import DpdkSpi.Packet.Extract
import DpdkSpi.Packet.Layer4
import DpdkSpi.Pipeline.Classify

/-!
# Hostnames of single packets

`ExtractHostname`, after `spi_pipeline.cpp`: it finds the payload by itself, from the bytes behind
the Ethernet header, which it takes for an IPv4 header.  The parser has found the payload before.
-/

namespace DpdkSpi

open Lib

variable {φ : Type}

/-! ## The extractor -/

/-- The IP header length that `ExtractHostname` takes from the byte behind the Ethernet header, in
the data of the first segment.  `beyond` is what the memory holds there if that data is shorter. -/
def guessedHeaderLen (beyond : Byte) (packet : Mbuf) : Nat :=
  (packet.head.data.getD kEtherHdrSize beyond &&& 0x0F).toNat * 4

/-- The offset of the payload that `ExtractHostname` computes. -/
def guessedPayloadOffset (beyond : Byte) (packet : Mbuf) (metadata : PacketMetadata) :
    Option (BitVec 32) :=
  let l4Off := kEtherHdrSize + guessedHeaderLen beyond packet
  if metadata.protocol = .kTcp then
    match rtePktmbufRead packet l4Off kTcpHdrSize with
    | none => none
    | some bytes =>
        let tcpHdrLen := ((TcpHdr.ofBytes bytes).dataOff >>> 4).toNat * 4
        if tcpHdrLen < kTcpHdrSize then none else some (BitVec.ofNat 32 (l4Off + tcpHdrLen))
  else some (BitVec.ofNat 32 l4Off)

/-- A destination port at which a hostname is looked for. -/
def WebPort (metadata : PacketMetadata) : Prop :=
  rteBeToCpu16 metadata.destinationPortBe = kTlsPort ∨
    rteBeToCpu16 metadata.destinationPortBe = kHttpPort

instance (metadata : PacketMetadata) : Decidable (WebPort metadata) := instDecidableOr

/-- The offset that `ExtractHostname` passes to `ExtractTlsSni` or `ExtractHttpHost`, if it calls
one of them. -/
def passedOffset (beyond : Byte) (packet : Mbuf) (metadata : PacketMetadata) :
    Option (BitVec 32) :=
  if WebPort metadata then guessedPayloadOffset beyond packet metadata else none

/-- The text that is found in the inspected bytes of a packet. -/
def packetText (find : List Byte → Except Fault (Option HostnameRange)) :
    Option (List Byte) → Except Fault (Option (List Byte))
  | none => pure none
  | some data => hostnameText data (find data)

/-- `ExtractHostname`: the hostname that it stores, if it finds one. -/
def extractHostname (beyond : Byte) (packet : Mbuf) (metadata : PacketMetadata) :
    Except Fault (Option (List Byte)) :=
  match guessedPayloadOffset beyond packet metadata with
  | none => pure none
  | some payloadOff =>
      let dstPort := rteBeToCpu16 metadata.destinationPortBe
      if dstPort = kTlsPort then
        packetText findTlsSni (readPayload packet payloadOff kMaxTlsInspect)
      else if dstPort = kHttpPort then
        packetText findHttpHost (readPayload packet payloadOff kMaxHttpInspect)
      else pure none

/-! ## Both offsets -/

section Offsets

variable {beyond : Byte} {packet chain : Mbuf} {metadata : PacketMetadata} {l4Length : Nat}

/-- The low half of a byte, times four. -/
theorem nibble_le (b : Byte) : (b &&& 0x0F).toNat * 4 ≤ 60 := by
  have h : (b &&& 0x0F).toNat ≤ 15 := by
    rw [BitVec.toNat_and]
    exact Nat.and_le_right
  omega

theorem tcpHeaderLenAt_le (packet : Mbuf) (offset : Nat) : tcpHeaderLenAt packet offset ≤ 60 := by
  have h : (packet.bytes.getD (offset + 12) 0 >>> 4).toNat ≤ 15 := by
    rw [BitVec.toNat_ushiftRight, Nat.shiftRight_eq_div_pow]
    omega
  unfold tcpHeaderLenAt
  omega

theorem parsedHeaderLen_le (packet : Mbuf) (version : IpVersion) :
    parsedHeaderLen packet version ≤ 60 := by
  cases version with
  | kIpv4 => exact nibble_le _
  | kIpv6 => exact (by decide : kIpv6HdrSize ≤ 60)

/-- What `ExtractHostname` computes for a TCP packet. -/
theorem guessedPayloadOffset_tcp (htcp : metadata.protocol = .kTcp) :
    guessedPayloadOffset beyond packet metadata =
      if packet.bytes.length < kEtherHdrSize + guessedHeaderLen beyond packet + kTcpHdrSize ∨
          tcpHeaderLenAt packet (kEtherHdrSize + guessedHeaderLen beyond packet) < kTcpHdrSize then
        none
      else some (BitVec.ofNat 32 (kEtherHdrSize + guessedHeaderLen beyond packet +
        tcpHeaderLenAt packet (kEtherHdrSize + guessedHeaderLen beyond packet))) := by
  unfold guessedPayloadOffset
  dsimp only
  rw [if_pos htcp, rtePktmbufRead]
  cases hread : window packet.bytes (kEtherHdrSize + guessedHeaderLen beyond packet)
      kTcpHdrSize with
  | none =>
      rw [if_pos]
      refine .inl (Nat.lt_of_not_le fun hle ↦ ?_)
      rw [window_of_le hle] at hread
      cases hread
  | some front =>
      dsimp only
      rw [tcpHeaderLen_of_window hread]
      refine if_congr ⟨.inr, fun h ↦ h.resolve_left ?_⟩ rfl rfl
      exact Nat.not_lt_of_le (length_le_of_window hread).1

/-- The bytes of the first segment are the first ones of the packet. -/
theorem guessedHeaderLen_eq (h : kEtherHdrSize < packet.dataLen) :
    guessedHeaderLen beyond packet = parsedHeaderLen packet .kIpv4 := by
  have hhead : packet.head.data.getD kEtherHdrSize beyond = packet.bytes.getD kEtherHdrSize 0 := by
    rw [List.getD_eq_getElem?_getD, List.getD_eq_getElem?_getD, Mbuf.bytes, Mbuf.segments,
      List.flatMap_cons, List.getElem?_append_left h, List.getElem?_eq_getElem h]
    rfl
  rw [guessedHeaderLen, hhead, parsedHeaderLen]

/-- With the right header length the offset is that of the parser. -/
theorem guessedPayloadOffset_of_eq {version : IpVersion} (htcp : metadata.protocol = .kTcp)
    (hguess : guessedHeaderLen beyond chain = parsedHeaderLen packet version)
    (hat : TcpAt chain (kEtherHdrSize + parsedHeaderLen packet version) l4Length metadata) :
    guessedPayloadOffset beyond chain metadata = some metadata.tcpPayloadOffset := by
  rw [guessedPayloadOffset_tcp htcp, hguess, if_neg, hat.offset]
  rintro (hlt | hlt)
  · exact Nat.not_lt_of_le hat.bound hlt
  · exact Nat.not_lt_of_le hat.header hlt

/-- Both offsets are far below the width of the field, which therefore tells them apart. -/
theorem guessedOffset_eq_iff
    (hat : TcpAt chain (kEtherHdrSize + parsedHeaderLen packet metadata.ipVersion) l4Length
      metadata) :
    BitVec.ofNat 32 (kEtherHdrSize + guessedHeaderLen beyond chain +
          tcpHeaderLenAt chain (kEtherHdrSize + guessedHeaderLen beyond chain)) =
        metadata.tcpPayloadOffset ↔
      guessedHeaderLen beyond chain +
          tcpHeaderLenAt chain (kEtherHdrSize + guessedHeaderLen beyond chain) =
        parsedHeaderLen packet metadata.ipVersion +
          tcpHeaderLenAt chain (kEtherHdrSize + parsedHeaderLen packet metadata.ipVersion) := by
  have hguess : guessedHeaderLen beyond chain ≤ 60 := nibble_le _
  have hparsed := parsedHeaderLen_le packet metadata.ipVersion
  have hguessTcp := tcpHeaderLenAt_le chain (kEtherHdrSize + guessedHeaderLen beyond chain)
  have hparsedTcp := tcpHeaderLenAt_le chain
    (kEtherHdrSize + parsedHeaderLen packet metadata.ipVersion)
  rw [hat.offset, ← BitVec.toNat_inj, BitVec.toNat_ofNat, BitVec.toNat_ofNat]
  unfold kEtherHdrSize at *
  omega

/-- The offset that `ExtractHostname` passes on, if any, is that of the payload. -/
def PassesPayload (beyond : Byte) (chain : Mbuf) (metadata : PacketMetadata) : Prop :=
  ∀ offset ∈ passedOffset beyond chain metadata, offset = metadata.tcpPayloadOffset

/-- `ExtractHostname` goes wrong where the byte behind the Ethernet header tells another length
than that of the IP header, the bytes that it then takes for a TCP header tell a possible length,
and the two errors do not cancel out. -/
theorem passesPayload_iff {fragTbl : Option (FragLibrary φ)} {tsc : BitVec 64} {fragments : φ}
    {wasReassembled : Bool}
    (hparse : (parsePacketOwned fragTbl packet tsc fragments).1 =
      .parsed metadata chain wasReassembled)
    (htcp : metadata.protocol = .kTcp) :
    PassesPayload beyond chain metadata ↔
      guessedHeaderLen beyond chain = parsedHeaderLen packet metadata.ipVersion ∨
        ¬ WebPort metadata ∨
        chain.bytes.length < kEtherHdrSize + guessedHeaderLen beyond chain + kTcpHdrSize ∨
        tcpHeaderLenAt chain (kEtherHdrSize + guessedHeaderLen beyond chain) < kTcpHdrSize ∨
        guessedHeaderLen beyond chain +
            tcpHeaderLenAt chain (kEtherHdrSize + guessedHeaderLen beyond chain) =
          parsedHeaderLen packet metadata.ipVersion +
            tcpHeaderLenAt chain (kEtherHdrSize + parsedHeaderLen packet metadata.ipVersion) := by
  obtain ⟨l4Length, hat, -⟩ := (parsedTcp_of_parsed hparse htcp).tcp
  unfold PassesPayload passedOffset
  by_cases hweb : WebPort metadata
  · rw [if_pos hweb, guessedPayloadOffset_tcp htcp]
    by_cases hread :
        chain.bytes.length < kEtherHdrSize + guessedHeaderLen beyond chain + kTcpHdrSize ∨
          tcpHeaderLenAt chain (kEtherHdrSize + guessedHeaderLen beyond chain) < kTcpHdrSize
    · rw [if_pos hread]
      refine iff_of_true (fun offset hoffset ↦ by cases hoffset) (.inr (.inr ?_))
      rcases hread with hshort | hlength
      · exact .inl hshort
      · exact .inr (.inl hlength)
    · rw [if_neg hread]
      obtain ⟨hlong, hheader⟩ := not_or.mp hread
      constructor
      · intro h
        exact .inr (.inr (.inr (.inr ((guessedOffset_eq_iff hat).mp (h _ rfl)))))
      · rintro h offset ⟨⟩
        refine (guessedOffset_eq_iff hat).mpr ?_
        rcases h with heq | hnot | hshort | hlength | hsum
        · rw [heq]
        · exact absurd hweb hnot
        · exact absurd hshort hlong
        · exact absurd hlength hheader
        · exact hsum
  · rw [if_neg hweb]
    refine iff_of_true (fun offset hoffset ↦ by cases hoffset) (.inr (.inl hweb))

end Offsets

/-! ## One packet of each version -/

/-- A TCP header of twenty bytes to port 80, and the start of a request. -/
def requestSegment : List Byte :=
  be16 1000 ++ be16 80 ++ be32 0 ++ be32 0 ++ [0x50, 0x18] ++ be16 0 ++ be16 0 ++ be16 0 ++
    asciiBytes "GET / "

/-- The segment in an IPv4 packet with four bytes of options. -/
def optionsPacket : Ipv4Packet where
  macs := List.replicate 12 0
  protocol := kIpprotoTcp
  source := 0x0A000001
  destination := 0x0A000002
  options := [1, 1, 1, 0]
  payload := requestSegment

theorem passesPayload_optionsPacket :
    PassesPayload 0 ⟨⟨0, optionsPacket.bytes⟩, []⟩ (optionsPacket.tcpMetadata 4) := by
  have hparse : (parsePacketOwned (none : Option (FragLibrary Unit)) ⟨⟨0, optionsPacket.bytes⟩, []⟩
      0 ()).1 = .parsed (optionsPacket.tcpMetadata 4) ⟨⟨0, optionsPacket.bytes⟩, []⟩ false := rfl
  exact (passesPayload_iff hparse rfl).mpr (.inl (by decide))

/-- The segment in an IPv6 packet from `2001:db8:5000::1`, without traffic class. -/
def requestIpv6 : Mbuf where
  head.address := 0
  head.data := Ipv6Packet.bytes
    { macs := List.replicate 12 0
      protocol := kIpprotoTcp
      source := #v[0x20, 0x01, 0x0D, 0xB8, 0x50, 0, 0, 0, 0, 0, 0, 0, 0, 0, 0, 1]
      destination := #v[0x20, 0x01, 0x0D, 0xB8, 0, 0, 0, 0, 0, 0, 0, 0, 0, 0, 0, 2]
      payload := requestSegment }

/-- The source address is taken for a TCP header, and the offset is forty bytes too small. -/
theorem ipv6_not_passesPayload : ∃ metadata,
    (parsePacketOwned (none : Option (FragLibrary Unit)) requestIpv6 0 ()).1 =
        .parsed metadata requestIpv6 false ∧
      metadata.protocol = .kTcp ∧ metadata.tcpPayloadOffset = 74 ∧
      passedOffset 0 requestIpv6 metadata = some 34 ∧
      ¬ PassesPayload 0 requestIpv6 metadata := by
  refine ⟨_, rfl, rfl, by decide, by decide, fun h ↦ ?_⟩
  exact absurd (h 34 (by decide)) (by decide)

end DpdkSpi
