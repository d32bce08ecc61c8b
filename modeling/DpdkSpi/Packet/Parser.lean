import DpdkSpi.Packet.Mbuf
import DpdkSpi.Pipeline.Context

/-!
# The packet parser

`ParsePacketOwned` and its helpers, after `spi_packet_parser.cpp`: Ethernet, IPv4 or IPv6 with
fragments, TCP or UDP.  The fragment tables are those of `rte_ip_frag`, a parameter here.
-/

namespace DpdkSpi

variable {φ : Type}

/-! ## Fragments -/

/-- `rte_ip_frag`, over a table.  A call gets a packet with its `l2_len` and `l3_len`, and returns
the packet that the given one completes, or null when the table keeps it. -/
structure FragLibrary (φ : Type) where
  rteIpv4FragReassemblePacket : Mbuf → (l2Len l3Len : Nat) → BitVec 64 → φ → Option Mbuf × φ
  rteIpv6FragReassemblePacket : Mbuf → (l2Len l3Len : Nat) → BitVec 64 → φ → Option Mbuf × φ

/-- `RTE_IPV4_HDR_OFFSET_MASK`. -/
def kIpv4HdrOffsetMask : BitVec 16 := 0x1FFF

/-- `RTE_IPV4_HDR_MF_FLAG`. -/
def kIpv4HdrMfFlag : BitVec 16 := 0x2000

/-- `IsIpv4Fragmented`. -/
def isIpv4Fragmented (hdr : Ipv4Hdr) : Bool :=
  let flagOffset := rteBeToCpu16 hdr.fragmentOffset
  flagOffset &&& kIpv4HdrMfFlag ≠ 0 || flagOffset &&& kIpv4HdrOffsetMask ≠ 0

/-- `IsValidFragment`: a first fragment has room for eight bytes of payload. -/
def isValidFragment (hdr : Ipv4Hdr) : Bool :=
  let flagOffset := rteBeToCpu16 hdr.fragmentOffset
  let offset := (flagOffset &&& kIpv4HdrOffsetMask) * 8
  let mf := flagOffset &&& kIpv4HdrMfFlag
  !(offset = 0 && mf ≠ 0 && (rteBeToCpu16 hdr.totalLength).toNat < hdr.headerLen + 8)

/-! ## Layer 4 -/

/-- `IPPROTO_TCP`. -/
def kIpprotoTcp : BitVec 8 := 6

/-- `IPPROTO_UDP`. -/
def kIpprotoUdp : BitVec 8 := 17

/-- `IPPROTO_FRAGMENT`. -/
def kIpprotoFragment : BitVec 8 := 44

/-- `ParseL4`, for a header of a size. -/
def parseL4 (size : Nat) (packet : Mbuf) (l4Offset : Nat) (ipv4Hdr : Ipv4Hdr) (proto : Protocol) :
    Option PacketMetadata :=
  (readHeaderFast packet l4Offset size).map fun hdr ↦
    { sourceIpBe := ipv4Hdr.srcAddr
      destinationIpBe := ipv4Hdr.dstAddr
      sourcePortBe := load16 hdr 0
      destinationPortBe := load16 hdr 2
      protocol := proto
      ipVersion := .kIpv4 }

/-- `ParseL4Ipv6`, for a header of a size. -/
def parseL4Ipv6 (size : Nat) (packet : Mbuf) (l4Offset : Nat) (ipv6Hdr : Ipv6Hdr)
    (proto : Protocol) : Option PacketMetadata :=
  (readHeaderFast packet l4Offset size).map fun hdr ↦
    { sourceIp6Address := ipv6Hdr.srcAddr
      destinationIp6Address := ipv6Hdr.dstAddr
      sourcePortBe := load16 hdr 0
      destinationPortBe := load16 hdr 2
      protocol := proto
      ipVersion := .kIpv6 }

/-- `PopulateTcpMetadata`. -/
def populateTcpMetadata (packet : Mbuf) (l4Offset l4Length : Nat) (metadata : PacketMetadata) :
    Option PacketMetadata :=
  match readHeaderFast packet l4Offset kTcpHdrSize with
  | none => none
  | some bytes =>
      let tcpHdr := TcpHdr.ofBytes bytes
      let tcpHeaderLength := (tcpHdr.dataOff >>> 4).toNat * 4
      if tcpHeaderLength < kTcpHdrSize ∨ l4Length < tcpHeaderLength then none
      else
        some { metadata with
          tcpSequence := rteBeToCpu32 tcpHdr.sentSeq
          tcpPayloadOffset := BitVec.ofNat 32 (l4Offset + tcpHeaderLength)
          tcpPayloadLength := BitVec.ofNat 32 (l4Length - tcpHeaderLength)
          tcpFlags := tcpHdr.tcpFlags }

/-! ## Both IP versions -/

/-- The end of the IPv4 branch, with the header length found at its start. -/
def parseIpv4Payload (packet : Mbuf) (ipv4HeaderLen : Nat) (ipv4Hdr : Ipv4Hdr) :
    Option PacketMetadata :=
  let l4Offset := kEtherHdrSize + ipv4HeaderLen
  if ipv4Hdr.nextProtoId = kIpprotoTcp then
    match parseL4 kTcpHdrSize packet l4Offset ipv4Hdr .kTcp with
    | none => none
    | some parsed =>
        let ipv4TotalLength := (rteBeToCpu16 ipv4Hdr.totalLength).toNat
        if ipv4TotalLength < ipv4HeaderLen then none
        else populateTcpMetadata packet l4Offset (ipv4TotalLength - ipv4HeaderLen) parsed
  else if ipv4Hdr.nextProtoId = kIpprotoUdp then
    parseL4 kUdpHdrSize packet l4Offset ipv4Hdr .kUdp
  else none

/-- The end of the IPv6 branch. -/
def parseIpv6Payload (packet : Mbuf) (ipv6Hdr : Ipv6Hdr) : Option PacketMetadata :=
  let l4Offset := kEtherHdrSize + kIpv6HdrSize
  if ipv6Hdr.proto = kIpprotoTcp then
    match parseL4Ipv6 kTcpHdrSize packet l4Offset ipv6Hdr .kTcp with
    | none => none
    | some parsed =>
        populateTcpMetadata packet l4Offset (rteBeToCpu16 ipv6Hdr.payloadLen).toNat parsed
  else if ipv6Hdr.proto = kIpprotoUdp then
    parseL4Ipv6 kUdpHdrSize packet l4Offset ipv6Hdr .kUdp
  else none

/-- What the caller gets, with the packet that its pointer is left at. -/
def ParseResult.ofOption {μ : Type} (packet : μ) (wasReassembled : Bool) :
    Option PacketMetadata → ParseResult μ
  | some metadata => .parsed metadata packet wasReassembled
  | none => .malformed packet

/-- The IPv4 branch of `ParsePacketOwned`. -/
def parseIpv4 (fragTbl : Option (FragLibrary φ)) (packet : Mbuf) (tsc : BitVec 64)
    (fragments : φ) : ParseResult Mbuf × φ :=
  match readHeaderFast packet kEtherHdrSize kIpv4HdrSize with
  | none => (.malformed packet, fragments)
  | some bytes =>
      let ipv4Hdr := Ipv4Hdr.ofBytes bytes
      let ipv4HeaderLen := ipv4Hdr.headerLen
      if ipv4HeaderLen < kIpv4HdrSize then (.malformed packet, fragments)
      else if isIpv4Fragmented ipv4Hdr then
        if !isValidFragment ipv4Hdr then (.malformed packet, fragments)
        else
          match fragTbl with
          | none =>
              (.ofOption packet false (parseIpv4Payload packet ipv4HeaderLen ipv4Hdr), fragments)
          | some lib =>
              if packet.dataLen < kEtherHdrSize + ipv4HeaderLen then (.malformed packet, fragments)
              else
                match lib.rteIpv4FragReassemblePacket packet kEtherHdrSize ipv4HeaderLen tsc
                  fragments with
                | (none, fragments) => (.waitingForFragments, fragments)
                | (some reassembled, fragments) =>
                    match readHeaderFast reassembled kEtherHdrSize kIpv4HdrSize with
                    | none => (.malformed reassembled, fragments)
                    | some bytes =>
                        (.ofOption reassembled true
                          (parseIpv4Payload reassembled ipv4HeaderLen (.ofBytes bytes)), fragments)
      else (.ofOption packet false (parseIpv4Payload packet ipv4HeaderLen ipv4Hdr), fragments)

/-- The IPv6 branch of `ParsePacketOwned`. -/
def parseIpv6 (fragTbl : Option (FragLibrary φ)) (packet : Mbuf) (tsc : BitVec 64)
    (fragments : φ) : ParseResult Mbuf × φ :=
  match readHeaderFast packet kEtherHdrSize kIpv6HdrSize with
  | none => (.malformed packet, fragments)
  | some bytes =>
      let ipv6Hdr := Ipv6Hdr.ofBytes bytes
      if ipv6Hdr.proto = kIpprotoFragment then
        let fragmentOffset := kEtherHdrSize + kIpv6HdrSize
        match readHeaderFast packet fragmentOffset kIpv6FragmentExtSize with
        | none => (.malformed packet, fragments)
        | some _ =>
            match fragTbl with
            | none => (.malformed packet, fragments)
            | some lib =>
                if packet.dataLen < fragmentOffset + kIpv6FragmentExtSize then
                  (.malformed packet, fragments)
                else
                  match lib.rteIpv6FragReassemblePacket packet kEtherHdrSize kIpv6HdrSize tsc
                    fragments with
                  | (none, fragments) => (.waitingForFragments, fragments)
                  | (some reassembled, fragments) =>
                      match readHeaderFast reassembled kEtherHdrSize kIpv6HdrSize with
                      | none => (.malformed reassembled, fragments)
                      | some bytes =>
                          (.ofOption reassembled true
                            (parseIpv6Payload reassembled (.ofBytes bytes)), fragments)
      else (.ofOption packet false (parseIpv6Payload packet ipv6Hdr), fragments)

/-- `RTE_ETHER_TYPE_IPV4`. -/
def kEtherTypeIpv4 : BitVec 16 := 0x0800

/-- `RTE_ETHER_TYPE_IPV6`. -/
def kEtherTypeIpv6 : BitVec 16 := 0x86DD

/-- `ParsePacketOwned`, on a packet that is there. -/
def parsePacketOwned (fragTbl : Option (FragLibrary φ)) (packet : Mbuf) (tsc : BitVec 64)
    (fragments : φ) : ParseResult Mbuf × φ :=
  match readHeaderFast packet 0 kEtherHdrSize with
  | none => (.malformed packet, fragments)
  | some bytes =>
      let etherType := rteBeToCpu16 (EtherHdr.ofBytes bytes).etherType
      if etherType = kEtherTypeIpv4 then parseIpv4 fragTbl packet tsc fragments
      else if etherType = kEtherTypeIpv6 then parseIpv6 fragTbl packet tsc fragments
      else (.malformed packet, fragments)

/-! ## What parsing can do -/

/-- What a call of the fragment library leaves to the caller. -/
def ParseResult.OfReassembly (result : ParseResult Mbuf × φ) : Option Mbuf × φ → Prop
  | (none, fragments) => result = (.waitingForFragments, fragments)
  | (some chain, fragments) => ∃ metadata, result = (.ofOption chain true metadata, fragments)

/-- The outcomes of parsing: the packet is whole or not to be reassembled, or the fragment library
decides. -/
inductive Parses (fragTbl : Option (FragLibrary φ)) (packet : Mbuf) (tsc : BitVec 64)
    (fragments : φ) (result : ParseResult Mbuf × φ) : Prop
  | kept (metadata : Option PacketMetadata)
      (h : result = (.ofOption packet false metadata, fragments))
  | ipv4 (lib : FragLibrary φ) (hlib : fragTbl = some lib) (l3Len : Nat)
      (h : ParseResult.OfReassembly result
        (lib.rteIpv4FragReassemblePacket packet kEtherHdrSize l3Len tsc fragments))
  | ipv6 (lib : FragLibrary φ) (hlib : fragTbl = some lib)
      (h : ParseResult.OfReassembly result
        (lib.rteIpv6FragReassemblePacket packet kEtherHdrSize kIpv6HdrSize tsc fragments))

theorem parseIpv4_parses (fragTbl : Option (FragLibrary φ)) (packet : Mbuf) (tsc : BitVec 64)
    (fragments : φ) :
    Parses fragTbl packet tsc fragments (parseIpv4 fragTbl packet tsc fragments) := by
  unfold parseIpv4
  cases readHeaderFast packet kEtherHdrSize kIpv4HdrSize with
  | none => exact .kept none rfl
  | some bytes =>
      dsimp only
      split
      · exact .kept none rfl
      split
      · split
        · exact .kept none rfl
        cases fragTbl with
        | none => exact .kept _ rfl
        | some lib =>
            dsimp only
            split
            · exact .kept none rfl
            refine .ipv4 lib rfl (Ipv4Hdr.ofBytes bytes).headerLen ?_
            rcases lib.rteIpv4FragReassemblePacket packet kEtherHdrSize
              (Ipv4Hdr.ofBytes bytes).headerLen tsc fragments with ⟨_ | chain, fragments'⟩
            · exact rfl
            · dsimp only
              cases readHeaderFast chain kEtherHdrSize kIpv4HdrSize with
              | none => exact ⟨none, rfl⟩
              | some bytes' => exact ⟨_, rfl⟩
      · exact .kept _ rfl

theorem parseIpv6_parses (fragTbl : Option (FragLibrary φ)) (packet : Mbuf) (tsc : BitVec 64)
    (fragments : φ) :
    Parses fragTbl packet tsc fragments (parseIpv6 fragTbl packet tsc fragments) := by
  unfold parseIpv6
  cases readHeaderFast packet kEtherHdrSize kIpv6HdrSize with
  | none => exact .kept none rfl
  | some bytes =>
      dsimp only
      split
      · cases readHeaderFast packet (kEtherHdrSize + kIpv6HdrSize) kIpv6FragmentExtSize with
        | none => exact .kept none rfl
        | some fragmentHdr =>
            cases fragTbl with
            | none => exact .kept none rfl
            | some lib =>
                dsimp only
                split
                · exact .kept none rfl
                refine .ipv6 lib rfl ?_
                rcases lib.rteIpv6FragReassemblePacket packet kEtherHdrSize kIpv6HdrSize tsc
                  fragments with ⟨_ | chain, fragments'⟩
                · exact rfl
                · dsimp only
                  cases readHeaderFast chain kEtherHdrSize kIpv6HdrSize with
                  | none => exact ⟨none, rfl⟩
                  | some bytes' => exact ⟨_, rfl⟩
      · exact .kept _ rfl

theorem parsePacketOwned_parses (fragTbl : Option (FragLibrary φ)) (packet : Mbuf)
    (tsc : BitVec 64) (fragments : φ) :
    Parses fragTbl packet tsc fragments (parsePacketOwned fragTbl packet tsc fragments) := by
  unfold parsePacketOwned
  cases readHeaderFast packet 0 kEtherHdrSize with
  | none => exact .kept none rfl
  | some bytes =>
      dsimp only
      split
      · exact parseIpv4_parses fragTbl packet tsc fragments
      split
      · exact parseIpv6_parses fragTbl packet tsc fragments
      · exact .kept none rfl

/-! ## What a parsed packet comes from -/

theorem ParseResult.parsed_of_ofOption {μ : Type} {packet chain : μ}
    {wasReassembled wasReassembled' : Bool} {parsed : Option PacketMetadata}
    {metadata : PacketMetadata}
    (h : ofOption packet wasReassembled parsed = .parsed metadata chain wasReassembled') :
    parsed = some metadata ∧ chain = packet ∧ wasReassembled' = wasReassembled := by
  cases parsed with
  | none => cases h
  | some found =>
      cases h
      exact ⟨rfl, rfl, rfl⟩

section

variable {packet : Mbuf} {metadata parsed : PacketMetadata}

/-- The header that is read fits, and only the fields of TCP are set. -/
theorem populateTcpMetadata_some {l4Offset l4Length : Nat}
    (h : populateTcpMetadata packet l4Offset l4Length parsed = some metadata) :
    ∃ bytes, readHeaderFast packet l4Offset kTcpHdrSize = some bytes ∧
      kTcpHdrSize ≤ ((TcpHdr.ofBytes bytes).dataOff >>> 4).toNat * 4 ∧
      ((TcpHdr.ofBytes bytes).dataOff >>> 4).toNat * 4 ≤ l4Length ∧
      metadata = { parsed with
        tcpSequence := rteBeToCpu32 (TcpHdr.ofBytes bytes).sentSeq
        tcpPayloadOffset :=
          BitVec.ofNat 32 (l4Offset + ((TcpHdr.ofBytes bytes).dataOff >>> 4).toNat * 4)
        tcpPayloadLength :=
          BitVec.ofNat 32 (l4Length - ((TcpHdr.ofBytes bytes).dataOff >>> 4).toNat * 4)
        tcpFlags := (TcpHdr.ofBytes bytes).tcpFlags } := by
  unfold populateTcpMetadata at h
  cases hread : readHeaderFast packet l4Offset kTcpHdrSize with
  | none =>
      rw [hread] at h
      cases h
  | some bytes =>
      rw [hread] at h
      dsimp only at h
      split at h
      · cases h
      · rename_i hlengths
        obtain ⟨hlong, hfits⟩ := not_or.mp hlengths
        exact ⟨bytes, rfl, Nat.le_of_not_lt hlong, Nat.le_of_not_lt hfits,
          (Option.some.inj h).symm⟩

/-- The end of the IPv4 branch has metadata for TCP or for UDP. -/
theorem parseIpv4Payload_some {ipv4HeaderLen : Nat} {ipv4Hdr : Ipv4Hdr}
    (h : parseIpv4Payload packet ipv4HeaderLen ipv4Hdr = some metadata) :
    (ipv4Hdr.nextProtoId = kIpprotoTcp ∧ ∃ parsed,
        parseL4 kTcpHdrSize packet (kEtherHdrSize + ipv4HeaderLen) ipv4Hdr .kTcp = some parsed ∧
        ipv4HeaderLen ≤ (rteBeToCpu16 ipv4Hdr.totalLength).toNat ∧
        populateTcpMetadata packet (kEtherHdrSize + ipv4HeaderLen)
          ((rteBeToCpu16 ipv4Hdr.totalLength).toNat - ipv4HeaderLen) parsed = some metadata) ∨
      (ipv4Hdr.nextProtoId = kIpprotoUdp ∧
        parseL4 kUdpHdrSize packet (kEtherHdrSize + ipv4HeaderLen) ipv4Hdr .kUdp =
          some metadata) := by
  unfold parseIpv4Payload at h
  dsimp only at h
  split at h
  · rename_i hproto
    cases hparse : parseL4 kTcpHdrSize packet (kEtherHdrSize + ipv4HeaderLen) ipv4Hdr .kTcp with
    | none =>
        rw [hparse] at h
        cases h
    | some parsed =>
        rw [hparse] at h
        dsimp only at h
        split at h
        · cases h
        · rename_i hle
          exact .inl ⟨hproto, parsed, rfl, Nat.le_of_not_lt hle, h⟩
  · split at h
    · rename_i hproto
      exact .inr ⟨hproto, h⟩
    · cases h

/-- The end of the IPv6 branch has metadata for TCP or for UDP. -/
theorem parseIpv6Payload_some {ipv6Hdr : Ipv6Hdr}
    (h : parseIpv6Payload packet ipv6Hdr = some metadata) :
    (ipv6Hdr.proto = kIpprotoTcp ∧ ∃ parsed,
        parseL4Ipv6 kTcpHdrSize packet (kEtherHdrSize + kIpv6HdrSize) ipv6Hdr .kTcp =
          some parsed ∧
        populateTcpMetadata packet (kEtherHdrSize + kIpv6HdrSize)
          (rteBeToCpu16 ipv6Hdr.payloadLen).toNat parsed = some metadata) ∨
      (ipv6Hdr.proto = kIpprotoUdp ∧
        parseL4Ipv6 kUdpHdrSize packet (kEtherHdrSize + kIpv6HdrSize) ipv6Hdr .kUdp =
          some metadata) := by
  unfold parseIpv6Payload at h
  dsimp only at h
  split at h
  · rename_i hproto
    cases hparse : parseL4Ipv6 kTcpHdrSize packet (kEtherHdrSize + kIpv6HdrSize) ipv6Hdr
        .kTcp with
    | none =>
        rw [hparse] at h
        cases h
    | some parsed =>
        rw [hparse] at h
        exact .inl ⟨hproto, parsed, rfl, h⟩
  · split at h
    · rename_i hproto
      exact .inr ⟨hproto, h⟩
    · cases h

end

end DpdkSpi
