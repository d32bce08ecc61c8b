import DpdkSpi.Packet.Fragments6

/-!
# Layer 4

What `ParsePacketOwned` tells about TCP and UDP.  The lengths it computes for a TCP packet never
underflow, whatever the frame is (`tcpLengths_of_parsed`).  And it reads back what was encoded
(`parsePacketOwned_frame`), in every frame that is no fragment and however the frame is split into
segments.
-/

namespace DpdkSpi

variable {φ : Type}

/-! ## Where the parser finds the payload -/

/-- The length of the TCP header at an offset, in the byte that holds it. -/
def tcpHeaderLenAt (packet : Mbuf) (offset : Nat) : Nat :=
  (packet.bytes.getD (offset + 12) 0 >>> 4).toNat * 4

/-- The metadata of a TCP segment at an offset. -/
structure TcpAt (packet : Mbuf) (l4Offset l4Length : Nat) (metadata : PacketMetadata) : Prop where
  bound : l4Offset + kTcpHdrSize ≤ packet.bytes.length
  header : kTcpHdrSize ≤ tcpHeaderLenAt packet l4Offset
  fits : tcpHeaderLenAt packet l4Offset ≤ l4Length
  offset : metadata.tcpPayloadOffset =
    BitVec.ofNat 32 (l4Offset + tcpHeaderLenAt packet l4Offset)
  length : metadata.tcpPayloadLength =
    BitVec.ofNat 32 (l4Length - tcpHeaderLenAt packet l4Offset)
  hostname : metadata.hostname = none

theorem length_le_of_window {bytes front : List (BitVec 8)} {offset size : Nat}
    (h : window bytes offset size = some front) :
    offset + size ≤ bytes.length ∧ front = (bytes.drop offset).take size := by
  unfold window at h
  by_cases hlt : bytes.length < offset + size
  · rw [if_pos hlt] at h
    cases h
  · rw [if_neg hlt] at h
    exact ⟨Nat.le_of_not_lt hlt, (Option.some.inj h).symm⟩

/-- A byte of a window. -/
theorem getD_of_window {bytes front : List (BitVec 8)} {offset size : Nat}
    (h : window bytes offset size = some front) {i : Nat} (hi : i < size) :
    front.getD i 0 = bytes.getD (offset + i) 0 := by
  rw [(length_le_of_window h).2, Ipv4Packet.getD_take hi, List.getD_eq_getElem?_getD,
    List.getElem?_drop, List.getD_eq_getElem?_getD]

/-- The length of a TCP header that is read at an offset. -/
theorem tcpHeaderLen_of_window {packet : Mbuf} {front : List (BitVec 8)} {offset : Nat}
    (h : window packet.bytes offset kTcpHdrSize = some front) :
    ((TcpHdr.ofBytes front).dataOff >>> 4).toNat * 4 = tcpHeaderLenAt packet offset := by
  rw [tcpHeaderLenAt, ← getD_of_window h (by decide)]
  rfl

theorem populateTcpMetadata_tcpAt {packet : Mbuf} {l4Offset l4Length : Nat}
    {parsed metadata : PacketMetadata} (hhostname : parsed.hostname = none)
    (h : populateTcpMetadata packet l4Offset l4Length parsed = some metadata) :
    metadata.ipVersion = parsed.ipVersion ∧ TcpAt packet l4Offset l4Length metadata := by
  obtain ⟨front, hread, hlong, hfits, rfl⟩ := populateTcpMetadata_some h
  rw [readHeaderFast_eq] at hread
  rw [tcpHeaderLen_of_window hread] at hlong hfits ⊢
  exact ⟨rfl, (length_le_of_window hread).1, hlong, hfits, rfl, rfl, hhostname⟩

/-- The length of the IP header that the parser uses for a packet. -/
def parsedHeaderLen (packet : Mbuf) : IpVersion → Nat
  | .kIpv4 => (packet.bytes.getD kEtherHdrSize 0 &&& 0x0F).toNat * 4
  | .kIpv6 => kIpv6HdrSize

/-- The length of an IPv4 packet, from its header. -/
def ipv4TotalLength (packet : Mbuf) : Nat := (rteBeToCpu16 (load16 packet.bytes 16)).toNat

/-- The length of the payload of an IPv6 packet, from its header. -/
def ipv6PayloadLength (packet : Mbuf) : Nat := (rteBeToCpu16 (load16 packet.bytes 18)).toNat

/-- What an IP header leaves for layer 4, in the packet `chain` that was completed by `packet`. -/
def l4Length (packet chain : Mbuf) : IpVersion → Nat
  | .kIpv4 => ipv4TotalLength chain - parsedHeaderLen packet .kIpv4
  | .kIpv6 => ipv6PayloadLength chain

/-- The lengths that are behind the metadata of a TCP packet. -/
structure TcpLengths (packet chain : Mbuf) (metadata : PacketMetadata) : Prop where
  at_l4 : TcpAt chain (kEtherHdrSize + parsedHeaderLen packet metadata.ipVersion)
    (l4Length packet chain metadata.ipVersion) metadata
  headerLen_le : metadata.ipVersion = .kIpv4 →
    parsedHeaderLen packet .kIpv4 ≤ ipv4TotalLength chain

/-- What the parser tells about a TCP packet that was given as `packet`. -/
structure ParsedTcp (packet chain : Mbuf) (wasReassembled : Bool) (metadata : PacketMetadata) :
    Prop where
  tcp : ∃ l4Length,
    TcpAt chain (kEtherHdrSize + parsedHeaderLen packet metadata.ipVersion) l4Length metadata ∧
      (wasReassembled = false → metadata.ipVersion = .kIpv4 →
        l4Length = ipv4TotalLength packet - parsedHeaderLen packet .kIpv4)
  whole : wasReassembled = false → chain = packet

/-- Two bytes of a header that is read behind the Ethernet header. -/
theorem load16_of_window {bytes front : List (BitVec 8)} {offset size i : Nat}
    (h : window bytes offset size = some front) (hi : i + 1 < size) :
    load16 front i = load16 bytes (offset + i) := by
  rw [load16, load16, getD_of_window h hi, getD_of_window h (Nat.lt_of_succ_lt hi), Nat.add_assoc]

/-- The fields of an IPv4 header that is read behind the Ethernet header. -/
theorem ipv4Hdr_of_read {packet : Mbuf} {front : List (BitVec 8)}
    (h : readHeaderFast packet kEtherHdrSize kIpv4HdrSize = some front) :
    (Ipv4Hdr.ofBytes front).headerLen = parsedHeaderLen packet .kIpv4 ∧
      (rteBeToCpu16 (Ipv4Hdr.ofBytes front).totalLength).toNat = ipv4TotalLength packet := by
  rw [readHeaderFast_eq] at h
  constructor
  · rw [parsedHeaderLen, ← Nat.add_zero kEtherHdrSize, ← getD_of_window h (by decide)]
    rfl
  · have hload : load16 front 2 = load16 packet.bytes 16 := load16_of_window h (by decide)
    rw [ipv4TotalLength, ← hload]
    rfl

/-- The length in an IPv6 header that is read behind the Ethernet header. -/
theorem ipv6Hdr_of_read {packet : Mbuf} {front : List (BitVec 8)}
    (h : readHeaderFast packet kEtherHdrSize kIpv6HdrSize = some front) :
    (rteBeToCpu16 (Ipv6Hdr.ofBytes front).payloadLen).toNat = ipv6PayloadLength packet := by
  rw [readHeaderFast_eq] at h
  have hload : load16 front 4 = load16 packet.bytes 18 := load16_of_window h (by decide)
  rw [ipv6PayloadLength, ← hload]
  rfl

section Parse

variable {fragTbl : Option (FragLibrary φ)} {packet chain : Mbuf} {tsc : BitVec 64} {fragments : φ}
  {metadata : PacketMetadata} {wasReassembled : Bool} {front : List (BitVec 8)}

/-- The end of the IPv4 branch, with the header length of the packet that was given and the header
of the chain. -/
theorem parseIpv4Payload_lengths
    (hread : readHeaderFast chain kEtherHdrSize kIpv4HdrSize = some front)
    (h : parseIpv4Payload chain (parsedHeaderLen packet .kIpv4) (.ofBytes front) = some metadata)
    (htcp : metadata.protocol = .kTcp) : TcpLengths packet chain metadata := by
  rcases parseIpv4Payload_some h with ⟨-, parsed, hparse, hle, h⟩ | ⟨-, hparse⟩
  · obtain ⟨header, -, rfl⟩ := Option.map_eq_some_iff.mp hparse
    rw [(ipv4Hdr_of_read hread).2] at hle h
    obtain ⟨hversion, hat⟩ := populateTcpMetadata_tcpAt rfl h
    refine ⟨?_, fun _ ↦ hle⟩
    rw [hversion]
    exact hat
  · obtain ⟨header, -, rfl⟩ := Option.map_eq_some_iff.mp hparse
    cases htcp

/-- The end of the IPv6 branch. -/
theorem parseIpv6Payload_lengths
    (hread : readHeaderFast chain kEtherHdrSize kIpv6HdrSize = some front)
    (h : parseIpv6Payload chain (.ofBytes front) = some metadata)
    (htcp : metadata.protocol = .kTcp) : TcpLengths packet chain metadata := by
  rcases parseIpv6Payload_some h with ⟨-, parsed, hparse, h⟩ | ⟨-, hparse⟩
  · obtain ⟨header, -, rfl⟩ := Option.map_eq_some_iff.mp hparse
    rw [ipv6Hdr_of_read hread] at h
    obtain ⟨hversion, hat⟩ := populateTcpMetadata_tcpAt rfl h
    refine ⟨?_, fun hipv4 ↦ ?_⟩
    · rw [hversion]
      exact hat
    · rw [hversion] at hipv4
      cases hipv4
  · obtain ⟨header, -, rfl⟩ := Option.map_eq_some_iff.mp hparse
    cases htcp

theorem ipVersion_of_parseIpv6Payload {hdr : Ipv6Hdr}
    (h : parseIpv6Payload chain hdr = some metadata) : metadata.ipVersion = .kIpv6 := by
  rcases parseIpv6Payload_some h with ⟨-, parsed, hparse, h⟩ | ⟨-, hparse⟩
  · obtain ⟨header, -, rfl⟩ := Option.map_eq_some_iff.mp hparse
    exact (populateTcpMetadata_tcpAt rfl h).1
  · obtain ⟨header, -, rfl⟩ := Option.map_eq_some_iff.mp hparse
    rfl

/-- What is checked of a fragment before it is given to the library: its header is no shorter than
an IPv4 header, and all of it is in the first mbuf. -/
structure CheckedHeader (packet : Mbuf) : Prop where
  length : kIpv4HdrSize ≤ parsedHeaderLen packet .kIpv4
  data : kEtherHdrSize + parsedHeaderLen packet .kIpv4 ≤ packet.dataLen

/-- What the IPv4 branch parses: the packet that was given, or one that the library completed.  The
header length that was checked is that of the packet that was given. -/
structure Ipv4Parsed (fragTbl : Option (FragLibrary φ)) (packet chain : Mbuf) (tsc : BitVec 64)
    (fragments : φ) (wasReassembled : Bool) (metadata : PacketMetadata) : Prop where
  headerLen : kIpv4HdrSize ≤ parsedHeaderLen packet .kIpv4
  whole : wasReassembled = false → chain = packet
  completed : wasReassembled = true → CheckedHeader packet ∧ ∃ lib, fragTbl = some lib ∧
    (lib.rteIpv4FragReassemblePacket packet kEtherHdrSize (parsedHeaderLen packet .kIpv4) tsc
      fragments).1 = some chain
  payload : ∃ front, readHeaderFast chain kEtherHdrSize kIpv4HdrSize = some front ∧
    parseIpv4Payload chain (parsedHeaderLen packet .kIpv4) (.ofBytes front) = some metadata

theorem parseIpv4_parsed
    (h : (parseIpv4 fragTbl packet tsc fragments).1 = .parsed metadata chain wasReassembled) :
    Ipv4Parsed fragTbl packet chain tsc fragments wasReassembled metadata := by
  unfold parseIpv4 at h
  cases hread : readHeaderFast packet kEtherHdrSize kIpv4HdrSize with
  | none =>
      rw [hread] at h
      cases h
  | some front =>
      rw [hread] at h
      dsimp only at h
      rw [(ipv4Hdr_of_read hread).1] at h
      split at h
      · cases h
      rename_i hheader
      have hwhole (h : ParseResult.ofOption packet false (parseIpv4Payload packet
          (parsedHeaderLen packet .kIpv4) (Ipv4Hdr.ofBytes front)) =
          .parsed metadata chain wasReassembled) :
          Ipv4Parsed fragTbl packet chain tsc fragments wasReassembled metadata := by
        obtain ⟨hparsed, rfl, rfl⟩ := ParseResult.parsed_of_ofOption h
        exact ⟨Nat.le_of_not_lt hheader, fun _ ↦ rfl, nofun, front, hread, hparsed⟩
      split at h
      · split at h
        · cases h
        cases fragTbl with
        | none => exact hwhole h
        | some lib =>
            dsimp only at h
            split at h
            · cases h
            rename_i hdata
            cases hanswer : lib.rteIpv4FragReassemblePacket packet kEtherHdrSize
              (parsedHeaderLen packet .kIpv4) tsc fragments with
            | mk completed fragments' =>
                rw [hanswer] at h
                cases completed with
                | none => cases h
                | some reassembled =>
                    dsimp only at h
                    cases hread' : readHeaderFast reassembled kEtherHdrSize kIpv4HdrSize with
                    | none =>
                        rw [hread'] at h
                        cases h
                    | some front' =>
                        rw [hread'] at h
                        obtain ⟨hparsed, rfl, rfl⟩ := ParseResult.parsed_of_ofOption h
                        refine ⟨Nat.le_of_not_lt hheader, nofun, fun _ ↦ ⟨?_, lib, rfl, ?_⟩,
                          front', hread', hparsed⟩
                        · exact ⟨Nat.le_of_not_lt hheader, Nat.le_of_not_lt hdata⟩
                        · exact congrArg Prod.fst hanswer
      · exact hwhole h

theorem parseIpv6_parsed
    (h : (parseIpv6 fragTbl packet tsc fragments).1 = .parsed metadata chain wasReassembled) :
    (wasReassembled = false → chain = packet) ∧
      ∃ front, readHeaderFast chain kEtherHdrSize kIpv6HdrSize = some front ∧
        parseIpv6Payload chain (.ofBytes front) = some metadata := by
  unfold parseIpv6 at h
  cases hread : readHeaderFast packet kEtherHdrSize kIpv6HdrSize with
  | none =>
      rw [hread] at h
      cases h
  | some front =>
      rw [hread] at h
      dsimp only at h
      split at h
      · cases hfragment : readHeaderFast packet (kEtherHdrSize + kIpv6HdrSize)
          kIpv6FragmentExtSize with
        | none =>
            rw [hfragment] at h
            cases h
        | some fragmentHdr =>
            rw [hfragment] at h
            cases fragTbl with
            | none => cases h
            | some lib =>
                dsimp only at h
                split at h
                · cases h
                generalize lib.rteIpv6FragReassemblePacket packet kEtherHdrSize kIpv6HdrSize tsc
                  fragments = answer at h
                rcases answer with ⟨_ | reassembled, fragments'⟩
                · cases h
                · dsimp only at h
                  cases hread' : readHeaderFast reassembled kEtherHdrSize kIpv6HdrSize with
                  | none =>
                      rw [hread'] at h
                      cases h
                  | some front' =>
                      rw [hread'] at h
                      obtain ⟨hparsed, rfl, rfl⟩ := ParseResult.parsed_of_ofOption h
                      exact ⟨nofun, front', hread', hparsed⟩
      · obtain ⟨hparsed, rfl, rfl⟩ := ParseResult.parsed_of_ofOption h
        exact ⟨fun _ ↦ rfl, front, hread, hparsed⟩

/-- The two branches of a packet that parses. -/
theorem parsePacketOwned_parsed
    (h : (parsePacketOwned fragTbl packet tsc fragments).1 =
      .parsed metadata chain wasReassembled) :
    (parseIpv4 fragTbl packet tsc fragments).1 = .parsed metadata chain wasReassembled ∨
      (parseIpv6 fragTbl packet tsc fragments).1 = .parsed metadata chain wasReassembled := by
  unfold parsePacketOwned at h
  cases hread : readHeaderFast packet 0 kEtherHdrSize with
  | none =>
      rw [hread] at h
      cases h
  | some front =>
      rw [hread] at h
      dsimp only at h
      split at h
      · exact .inl h
      split at h
      · exact .inr h
      · cases h

/-- **The lengths of a TCP packet** that is parsed: they come from the headers, and each fits into
the one around it. -/
theorem tcpLengths_of_parsed
    (h : (parsePacketOwned fragTbl packet tsc fragments).1 =
      .parsed metadata chain wasReassembled)
    (htcp : metadata.protocol = .kTcp) : TcpLengths packet chain metadata := by
  rcases parsePacketOwned_parsed h with h | h
  · obtain ⟨front, hread, hparsed⟩ := (parseIpv4_parsed h).payload
    exact parseIpv4Payload_lengths hread hparsed htcp
  · obtain ⟨-, front, hread, hparsed⟩ := parseIpv6_parsed h
    exact parseIpv6Payload_lengths hread hparsed htcp

theorem chain_of_parsed
    (h : (parsePacketOwned fragTbl packet tsc fragments).1 =
      .parsed metadata chain wasReassembled) : wasReassembled = false → chain = packet := by
  rcases parsePacketOwned_parsed h with h | h
  · exact (parseIpv4_parsed h).whole
  · exact (parseIpv6_parsed h).1

/-- Where the parser finds the TCP header of a packet. -/
theorem parsedTcp_of_parsed
    (h : (parsePacketOwned fragTbl packet tsc fragments).1 =
      .parsed metadata chain wasReassembled)
    (htcp : metadata.protocol = .kTcp) : ParsedTcp packet chain wasReassembled metadata := by
  refine ⟨⟨_, (tcpLengths_of_parsed h htcp).at_l4, fun hwhole hipv4 ↦ ?_⟩, chain_of_parsed h⟩
  rw [hipv4, l4Length, chain_of_parsed h hwhole]

end Parse

/-! ## Encodings -/

/-- A TCP segment.  Numbers are in host order. -/
structure WireTcp where
  sourcePort : BitVec 16
  destinationPort : BitVec 16
  sequence : BitVec 32
  acknowledgement : BitVec 32 := 0
  /-- The bits behind the data offset. -/
  reserved : BitVec 4 := 0
  flags : BitVec 8 := 0
  receiveWindow : BitVec 16 := 0
  checksum : BitVec 16 := 0
  urgent : BitVec 16 := 0
  options : List (BitVec 8) := []
  payload : List (BitVec 8)
deriving DecidableEq, Repr

namespace WireTcp

/-- The length of the header. -/
def headerLen (t : WireTcp) : Nat := kTcpHdrSize + t.options.length

/-- The byte of the data offset. -/
def dataOff (t : WireTcp) : BitVec 8 := BitVec.ofNat 4 (t.headerLen / 4) ++ t.reserved

/-- The twenty bytes in front of the options. -/
def header (t : WireTcp) : List (BitVec 8) :=
  be16 t.sourcePort ++ be16 t.destinationPort ++ be32 t.sequence ++ be32 t.acknowledgement ++
    [t.dataOff, t.flags] ++ be16 t.receiveWindow ++ be16 t.checksum ++ be16 t.urgent

/-- The segment. -/
def bytes (t : WireTcp) : List (BitVec 8) := t.header ++ (t.options ++ t.payload)

/-- Options as they can be in a segment. -/
structure Valid (t : WireTcp) : Prop where
  options_mod : t.options.length % 4 = 0
  options_le : t.options.length ≤ 40

/-- What the segment adds to the metadata of a packet, at an offset. -/
def populate (t : WireTcp) (offset : Nat) (metadata : PacketMetadata) : PacketMetadata :=
  { metadata with
    tcpSequence := t.sequence
    tcpPayloadOffset := BitVec.ofNat 32 (offset + t.headerLen)
    tcpPayloadLength := BitVec.ofNat 32 t.payload.length
    tcpFlags := t.flags }

variable {t : WireTcp}

theorem length_bytes (t : WireTcp) : t.bytes.length = t.headerLen + t.payload.length := by
  rw [bytes, List.length_append, List.length_append, ← Nat.add_assoc]
  rfl

theorem sourcePort_header (t : WireTcp) : rteBeToCpu16 (load16 t.header 0) = t.sourcePort :=
  rteBeToCpu16_load t.sourcePort

theorem destinationPort_header (t : WireTcp) :
    rteBeToCpu16 (load16 t.header 2) = t.destinationPort :=
  rteBeToCpu16_load t.destinationPort

theorem sequence_header (t : WireTcp) :
    rteBeToCpu32 (TcpHdr.ofBytes t.header).sentSeq = t.sequence := by
  have hload : (TcpHdr.ofBytes t.header).sentSeq = load32 (be32 t.sequence) 0 := rfl
  rw [hload, rteBeToCpu32_load]

theorem dataOff_header (h : t.Valid) :
    ((TcpHdr.ofBytes t.header).dataOff >>> 4).toNat * 4 = t.headerLen := by
  have hfour : ∀ n < 16, ∀ r : BitVec 4, ((BitVec.ofNat 4 n ++ r) >>> 4).toNat = n := by decide
  have hmod := h.options_mod
  have hle := h.options_le
  have hlen : t.headerLen = 20 + t.options.length := rfl
  have hoff := hfour (t.headerLen / 4) (by omega) t.reserved
  show (t.dataOff >>> 4).toNat * 4 = t.headerLen
  rw [dataOff, hoff]
  omega

section Read

variable {m : Mbuf} {front back : List (BitVec 8)} {offset : Nat}
  (hbytes : m.bytes = front ++ (t.bytes ++ back)) (hfront : front.length = offset)

include hbytes hfront

theorem read : readHeaderFast m offset kTcpHdrSize = some t.header := by
  have hsplit : m.bytes = front ++ (t.header ++ (t.options ++ t.payload ++ back)) := by
    rw [hbytes, bytes, List.append_assoc]
  exact readHeaderFast_of_bytes hsplit hfront rfl

/-- `PopulateTcpMetadata` on the segment. -/
theorem populateTcpMetadata_eq (h : t.Valid) (parsed : PacketMetadata) :
    populateTcpMetadata m offset t.bytes.length parsed = some (t.populate offset parsed) := by
  have hlengths : ¬ (t.headerLen < kTcpHdrSize ∨ t.bytes.length < t.headerLen) := by
    rw [length_bytes, headerLen]
    omega
  unfold populateTcpMetadata
  rw [read hbytes hfront]
  dsimp only
  rw [dataOff_header h, if_neg hlengths, sequence_header, length_bytes, Nat.add_sub_cancel_left]
  rfl

/-- The offset and the length in the metadata delimit the payload. -/
theorem window_populate (h : t.Valid) (hoffset : offset < 2 ^ 16)
    (hpayload : t.payload.length < 2 ^ 16) (parsed : PacketMetadata) :
    window m.bytes (t.populate offset parsed).tcpPayloadOffset.toNat
      (t.populate offset parsed).tcpPayloadLength.toNat = some t.payload := by
  have hle := h.options_le
  have hoff : (t.populate offset parsed).tcpPayloadOffset.toNat = offset + t.headerLen := by
    show (BitVec.ofNat 32 (offset + t.headerLen)).toNat = _
    rw [BitVec.toNat_ofNat, headerLen, kTcpHdrSize]
    omega
  have hlen : (t.populate offset parsed).tcpPayloadLength.toNat = t.payload.length := by
    show (BitVec.ofNat 32 t.payload.length).toNat = _
    rw [BitVec.toNat_ofNat]
    omega
  have hsplit : m.bytes = (front ++ t.header ++ t.options) ++ (t.payload ++ back) := by
    rw [hbytes, bytes]
    simp only [List.append_assoc]
  have hlength : (front ++ t.header ++ t.options).length = offset + t.headerLen := by
    rw [List.length_append, List.length_append, hfront, headerLen, ← Nat.add_assoc]
    rfl
  rw [hoff, hlen, hsplit, window_append (Nat.le_of_eq hlength), hlength, Nat.sub_self,
    window_append_left (Nat.le_of_eq (Nat.zero_add _)), List.drop_zero, List.take_length]

end Read

end WireTcp

/-- A UDP datagram.  Nothing reads its length. -/
structure WireUdp where
  sourcePort : BitVec 16
  destinationPort : BitVec 16
  length : BitVec 16 := 0
  checksum : BitVec 16 := 0
  payload : List (BitVec 8)
deriving DecidableEq, Repr

namespace WireUdp

/-- The eight bytes in front of the payload. -/
def header (u : WireUdp) : List (BitVec 8) :=
  be16 u.sourcePort ++ be16 u.destinationPort ++ be16 u.length ++ be16 u.checksum

/-- The datagram. -/
def bytes (u : WireUdp) : List (BitVec 8) := u.header ++ u.payload

theorem sourcePort_header (u : WireUdp) : rteBeToCpu16 (load16 u.header 0) = u.sourcePort :=
  rteBeToCpu16_load u.sourcePort

theorem destinationPort_header (u : WireUdp) :
    rteBeToCpu16 (load16 u.header 2) = u.destinationPort :=
  rteBeToCpu16_load u.destinationPort

theorem read {u : WireUdp} {m : Mbuf} {front back : List (BitVec 8)} {offset : Nat}
    (hbytes : m.bytes = front ++ (u.bytes ++ back)) (hfront : front.length = offset) :
    readHeaderFast m offset kUdpHdrSize = some u.header := by
  have hsplit : m.bytes = front ++ (u.header ++ (u.payload ++ back)) := by
    rw [hbytes, bytes, List.append_assoc]
  exact readHeaderFast_of_bytes hsplit hfront rfl

end WireUdp

/-- What an IP packet carries. -/
inductive Transport where
  | tcp (segment : WireTcp)
  | udp (datagram : WireUdp)
deriving DecidableEq, Repr

namespace Transport

/-- The protocol number. -/
def protocolId : Transport → BitVec 8
  | tcp _ => kIpprotoTcp
  | udp _ => kIpprotoUdp

/-- The protocol. -/
def protocol : Transport → Protocol
  | tcp _ => .kTcp
  | udp _ => .kUdp

/-- The bytes of layer 4. -/
def bytes : Transport → List (BitVec 8)
  | tcp segment => segment.bytes
  | udp datagram => datagram.bytes

/-- The source port. -/
def sourcePort : Transport → BitVec 16
  | tcp segment => segment.sourcePort
  | udp datagram => datagram.sourcePort

/-- The destination port. -/
def destinationPort : Transport → BitVec 16
  | tcp segment => segment.destinationPort
  | udp datagram => datagram.destinationPort

/-- A layer 4 as it can be in a packet. -/
def Valid : Transport → Prop
  | tcp segment => segment.Valid
  | udp _ => True

/-- Layer 4 is not taken for a fragment header. -/
theorem protocolId_ne_fragment (l4 : Transport) : l4.protocolId ≠ kIpprotoFragment := by
  cases l4 with
  | tcp segment => exact fun h ↦ absurd h (by decide : kIpprotoTcp ≠ kIpprotoFragment)
  | udp datagram => exact fun h ↦ absurd h (by decide : kIpprotoUdp ≠ kIpprotoFragment)

end Transport

/-! ## Layer 4 in an IP packet -/

namespace Ipv4Packet

variable {p : Ipv4Packet} {m : Mbuf} {padding : List (BitVec 8)}

/-- The metadata of the addresses and of a header of layer 4. -/
def l4Metadata (p : Ipv4Packet) (header : List (BitVec 8)) (proto : Protocol) :
    PacketMetadata where
  sourceIpBe := p.hdr.srcAddr
  destinationIpBe := p.hdr.dstAddr
  sourcePortBe := load16 header 0
  destinationPortBe := load16 header 2
  protocol := proto
  ipVersion := .kIpv4

theorem length_headers (h : p.Valid) :
    (p.etherHeader ++ p.fixedHeader ++ p.options).length = kEtherHdrSize + p.headerLen := by
  rw [List.length_append, length_front h, headerLen, ← Nat.add_assoc]
  rfl

section Read

variable (hm : m.bytes = p.bytes ++ padding)

include hm

theorem bytes_l4 :
    m.bytes = p.etherHeader ++ p.fixedHeader ++ p.options ++ (p.payload ++ padding) := by
  rw [hm, bytes]
  simp only [List.append_assoc]

theorem parseIpv4Payload_segment (h : p.Valid) {t : WireTcp} (ht : t.Valid)
    (hprotocol : p.protocol = kIpprotoTcp) (hpayload : p.payload = t.bytes) :
    parseIpv4Payload m p.headerLen p.hdr =
      some (t.populate (kEtherHdrSize + p.headerLen) (p.l4Metadata t.header .kTcp)) := by
  have hbytes := bytes_l4 hm
  rw [hpayload] at hbytes
  have htotal : p.totalLength = p.headerLen + t.bytes.length := by rw [totalLength, hpayload]
  unfold parseIpv4Payload
  dsimp only
  rw [nextProtoId_hdr, hprotocol, if_pos rfl, parseL4, WireTcp.read hbytes (length_headers h),
    Option.map_some]
  dsimp only
  rw [totalLength_hdr h, htotal, if_neg (by omega), Nat.add_sub_cancel_left]
  exact WireTcp.populateTcpMetadata_eq hbytes (length_headers h) ht _

theorem parseIpv4Payload_datagram (h : p.Valid) {u : WireUdp} (hprotocol : p.protocol = kIpprotoUdp)
    (hpayload : p.payload = u.bytes) :
    parseIpv4Payload m p.headerLen p.hdr = some (p.l4Metadata u.header .kUdp) := by
  have hbytes := bytes_l4 hm
  rw [hpayload] at hbytes
  unfold parseIpv4Payload
  dsimp only
  rw [nextProtoId_hdr, hprotocol, if_neg (by decide), if_pos rfl, parseL4,
    WireUdp.read hbytes (length_headers h)]
  rfl

end Read

theorem isIpv4Fragmented_hdr (hmf : p.fragment &&& kIpv4HdrMfFlag = 0)
    (hoffset : p.fragment &&& kIpv4HdrOffsetMask = 0) : isIpv4Fragmented p.hdr = false := by
  unfold isIpv4Fragmented
  rw [fragment_hdr]
  simp [hmf, hoffset]

end Ipv4Packet

namespace Ipv6Packet

variable {p : Ipv6Packet} {m : Mbuf} {padding : List (BitVec 8)}

/-- The metadata of the addresses and of a header of layer 4. -/
def l4Metadata (p : Ipv6Packet) (header : List (BitVec 8)) (proto : Protocol) :
    PacketMetadata where
  sourceIp6Address := p.source
  destinationIp6Address := p.destination
  sourcePortBe := load16 header 0
  destinationPortBe := load16 header 2
  protocol := proto
  ipVersion := .kIpv6

/-- The sixteen bytes of an address, where they are. -/
theorem loadIp6_of_append {front back : List (BitVec 8)} {address : Ip6Address} {offset : Nat}
    (hfront : front.length = offset) :
    loadIp6 (front ++ (address.toList ++ back)) offset = address := by
  unfold loadIp6
  ext i hi
  rw [Vector.getElem_ofFn, List.getD_eq_getElem?_getD, ← hfront,
    List.getElem?_append_right (Nat.le_add_right _ _), Nat.add_sub_cancel_left,
    List.getElem?_append_left (by rw [Vector.length_toList]; exact hi),
    List.getElem?_eq_getElem (by rw [Vector.length_toList]; exact hi), Option.getD_some,
    Vector.getElem_toList]

theorem srcAddr_fixedHeader (p : Ipv6Packet) :
    (Ipv6Hdr.ofBytes p.fixedHeader).srcAddr = p.source :=
  loadIp6_of_append rfl

theorem dstAddr_fixedHeader (p : Ipv6Packet) :
    (Ipv6Hdr.ofBytes p.fixedHeader).dstAddr = p.destination := by
  have hfront : (be32 p.vtcFlow ++ be16 (BitVec.ofNat 16 p.payloadLength) ++
      [p.nextHeader, p.hopLimits] ++ p.source.toList).length = 24 := by
    rw [List.length_append, Vector.length_toList]
    rfl
  have hsplit : p.fixedHeader = be32 p.vtcFlow ++ be16 (BitVec.ofNat 16 p.payloadLength) ++
      [p.nextHeader, p.hopLimits] ++ p.source.toList ++ (p.destination.toList ++ []) := by
    rw [fixedHeader, List.append_nil, List.append_assoc _ p.source.toList]
  show loadIp6 p.fixedHeader 24 = p.destination
  rw [hsplit]
  exact loadIp6_of_append hfront

theorem payloadLen_fixedHeader (h : p.Valid) :
    (rteBeToCpu16 (Ipv6Hdr.ofBytes p.fixedHeader).payloadLen).toNat = p.payloadLength := by
  have hload : rteBeToCpu16 (Ipv6Hdr.ofBytes p.fixedHeader).payloadLen =
      BitVec.ofNat 16 p.payloadLength := rteBeToCpu16_load _
  rw [hload, BitVec.toNat_ofNat, Nat.mod_eq_of_lt h.total]

theorem length_headers (h : p.Valid) :
    (p.etherHeader ++ p.fixedHeader).length = kEtherHdrSize + kIpv6HdrSize := by
  rw [List.length_append, length_etherHeader h, length_fixedHeader]

section Read

variable (hm : m.bytes = p.bytes ++ padding) (hwhole : p.fragment = none)

include hm hwhole

theorem bytes_l4 : m.bytes = p.etherHeader ++ p.fixedHeader ++ (p.payload ++ padding) := by
  have hextension : p.extension = [] := by rw [extension, hwhole]
  rw [hm, bytes, hextension]
  simp only [List.append_assoc, List.nil_append]

theorem parseIpv6Payload_segment (h : p.Valid) {t : WireTcp} (ht : t.Valid)
    (hprotocol : p.protocol = kIpprotoTcp) (hpayload : p.payload = t.bytes) :
    parseIpv6Payload m (.ofBytes p.fixedHeader) =
      some (t.populate (kEtherHdrSize + kIpv6HdrSize) (p.l4Metadata t.header .kTcp)) := by
  have hbytes := bytes_l4 hm hwhole
  rw [hpayload] at hbytes
  have hnext : p.nextHeader = kIpprotoTcp := by rw [nextHeader, hwhole]; exact hprotocol
  have hlength : p.payloadLength = t.bytes.length := by
    rw [payloadLength, extension, hwhole, hpayload]
    exact Nat.zero_add _
  unfold parseIpv6Payload
  dsimp only
  rw [proto_fixedHeader, hnext, if_pos rfl, parseL4Ipv6, WireTcp.read hbytes (length_headers h),
    Option.map_some]
  dsimp only
  rw [payloadLen_fixedHeader h, hlength, srcAddr_fixedHeader, dstAddr_fixedHeader]
  exact WireTcp.populateTcpMetadata_eq hbytes (length_headers h) ht _

theorem parseIpv6Payload_datagram (h : p.Valid) {u : WireUdp} (hprotocol : p.protocol = kIpprotoUdp)
    (hpayload : p.payload = u.bytes) :
    parseIpv6Payload m (.ofBytes p.fixedHeader) = some (p.l4Metadata u.header .kUdp) := by
  have hbytes := bytes_l4 hm hwhole
  rw [hpayload] at hbytes
  have hnext : p.nextHeader = kIpprotoUdp := by rw [nextHeader, hwhole]; exact hprotocol
  unfold parseIpv6Payload
  dsimp only
  rw [proto_fixedHeader, hnext, if_neg (by decide), if_pos rfl, parseL4Ipv6,
    WireUdp.read hbytes (length_headers h), srcAddr_fixedHeader, dstAddr_fixedHeader]
  rfl

/-- A packet without a fragment header is parsed as it is. -/
theorem parse_whole (h : p.Valid) (hprotocol : p.protocol ≠ kIpprotoFragment)
    (fragTbl : Option (FragLibrary φ)) (tsc : BitVec 64) (fragments : φ) :
    parsePacketOwned fragTbl m tsc fragments =
      (.ofOption m false (parseIpv6Payload m (.ofBytes p.fixedHeader)), fragments) := by
  have hin : p.In m := ⟨padding, hm⟩
  have hnext : p.nextHeader = p.protocol := by rw [nextHeader, hwhole]; rfl
  rw [hin.parsePacketOwned_eq h, parseIpv6, hin.readIpv6 h]
  dsimp only
  rw [proto_fixedHeader, hnext, if_neg hprotocol]

end Read

end Ipv6Packet

/-! ## Frames -/

/-- A frame with TCP or UDP in an IP packet. -/
inductive L4Frame where
  | ipv4 (ip : Ipv4Packet) (l4 : Transport)
  | ipv6 (ip : Ipv6Packet) (l4 : Transport)

namespace L4Frame

/-- Layer 4. -/
def l4 : L4Frame → Transport
  | ipv4 _ l4 | ipv6 _ l4 => l4

/-- The bytes of the frame. -/
def bytes : L4Frame → List (BitVec 8)
  | ipv4 ip _ => ip.bytes
  | ipv6 ip _ => ip.bytes

/-- The frame is no fragment, and an IPv6 header has layer 4 directly behind it. -/
inductive Valid : L4Frame → Prop
  | ipv4 {ip : Ipv4Packet} {l4 : Transport} (ip_valid : ip.Valid)
      (no_more : ip.fragment &&& kIpv4HdrMfFlag = 0)
      (no_offset : ip.fragment &&& kIpv4HdrOffsetMask = 0)
      (protocol : ip.protocol = l4.protocolId) (payload : ip.payload = l4.bytes)
      (l4_valid : l4.Valid) : Valid (.ipv4 ip l4)
  | ipv6 {ip : Ipv6Packet} {l4 : Transport} (ip_valid : ip.Valid) (whole : ip.fragment = none)
      (protocol : ip.protocol = l4.protocolId) (payload : ip.payload = l4.bytes)
      (l4_valid : l4.Valid) : Valid (.ipv6 ip l4)

/-- The IP version and the addresses of the metadata are those of the frame. -/
def SameAddresses (metadata : PacketMetadata) : L4Frame → Prop
  | ipv4 ip _ => metadata.ipVersion = .kIpv4 ∧ rteBeToCpu32 metadata.sourceIpBe = ip.source ∧
      rteBeToCpu32 metadata.destinationIpBe = ip.destination
  | ipv6 ip _ => metadata.ipVersion = .kIpv6 ∧ metadata.sourceIp6Address = ip.source ∧
      metadata.destinationIp6Address = ip.destination

/-- The metadata tells what a frame encodes, in a packet of some bytes. -/
structure Describes (f : L4Frame) (packet : List (BitVec 8)) (metadata : PacketMetadata) :
    Prop where
  addresses : f.SameAddresses metadata
  protocol : metadata.protocol = f.l4.protocol
  sourcePort : rteBeToCpu16 metadata.sourcePortBe = f.l4.sourcePort
  destinationPort : rteBeToCpu16 metadata.destinationPortBe = f.l4.destinationPort
  tcp : ∀ segment, f.l4 = .tcp segment →
    metadata.tcpSequence = segment.sequence ∧ metadata.tcpFlags = segment.flags ∧
      window packet metadata.tcpPayloadOffset.toNat metadata.tcpPayloadLength.toNat =
        some segment.payload

variable {m : Mbuf} {padding : List (BitVec 8)}

theorem parse_ipv4 {ip : Ipv4Packet} {l4 : Transport} (h : (ipv4 ip l4).Valid)
    (hm : m.bytes = ip.bytes ++ padding) (fragTbl : Option (FragLibrary φ)) (tsc : BitVec 64)
    (fragments : φ) :
    ∃ metadata, parsePacketOwned fragTbl m tsc fragments = (.parsed metadata m false, fragments) ∧
      (ipv4 ip l4).Describes m.bytes metadata := by
  obtain ⟨hip, hmf, hoffset, hprotocol, hpayload, hl4⟩ := h
  have hin : ip.In m := ⟨padding, hm⟩
  have hparse := hin.parse_whole hip (Ipv4Packet.isIpv4Fragmented_hdr hmf hoffset) fragTbl tsc
    fragments
  have hsource : rteBeToCpu32 ip.hdr.srcAddr = ip.source := rteBeToCpu32_load ip.source
  have hdestination : rteBeToCpu32 ip.hdr.dstAddr = ip.destination :=
    rteBeToCpu32_load ip.destination
  have hheader : ip.headerLen ≤ 60 := Nat.add_le_add_left hip.options_le 20
  have htotal := hip.total
  rw [Ipv4Packet.totalLength, hpayload] at htotal
  cases l4 with
  | tcp t =>
      rw [Ipv4Packet.parseIpv4Payload_segment hm hip hl4 hprotocol hpayload] at hparse
      refine ⟨_, hparse, ⟨rfl, hsource, hdestination⟩, rfl, t.sourcePort_header,
        t.destinationPort_header, ?_⟩
      rintro segment ⟨⟩
      have hbytes := Ipv4Packet.bytes_l4 hm
      rw [hpayload] at hbytes
      have hlength := t.length_bytes
      change _ + t.bytes.length < _ at htotal
      have hshort : kEtherHdrSize + ip.headerLen < 2 ^ 16 := by
        rw [kEtherHdrSize]
        omega
      exact ⟨rfl, rfl, WireTcp.window_populate hbytes (Ipv4Packet.length_headers hip) hl4 hshort
        (by omega) _⟩
  | udp u =>
      rw [Ipv4Packet.parseIpv4Payload_datagram hm hip hprotocol hpayload] at hparse
      exact ⟨_, hparse, ⟨rfl, hsource, hdestination⟩, rfl, u.sourcePort_header,
        u.destinationPort_header, fun segment h ↦ by cases h⟩

theorem parse_ipv6 {ip : Ipv6Packet} {l4 : Transport} (h : (ipv6 ip l4).Valid)
    (hm : m.bytes = ip.bytes ++ padding) (fragTbl : Option (FragLibrary φ)) (tsc : BitVec 64)
    (fragments : φ) :
    ∃ metadata, parsePacketOwned fragTbl m tsc fragments = (.parsed metadata m false, fragments) ∧
      (ipv6 ip l4).Describes m.bytes metadata := by
  cases h with | ipv6 hip hwhole hprotocol hpayload hl4 => ?_
  have hparse := Ipv6Packet.parse_whole hm hwhole hip
    (hprotocol ▸ l4.protocolId_ne_fragment) fragTbl tsc fragments
  have htotal := hip.total
  rw [Ipv6Packet.payloadLength, hpayload] at htotal
  cases l4 with
  | tcp t =>
      rw [Ipv6Packet.parseIpv6Payload_segment hm hwhole hip hl4 hprotocol hpayload] at hparse
      refine ⟨_, hparse, ⟨rfl, rfl, rfl⟩, rfl, t.sourcePort_header, t.destinationPort_header, ?_⟩
      rintro segment ⟨⟩
      have hbytes := Ipv6Packet.bytes_l4 hm hwhole
      rw [hpayload] at hbytes
      have hlength := t.length_bytes
      change _ + t.bytes.length < _ at htotal
      exact ⟨rfl, rfl, WireTcp.window_populate hbytes (Ipv6Packet.length_headers hip) hl4
        (by decide) (by omega) _⟩
  | udp u =>
      rw [Ipv6Packet.parseIpv6Payload_datagram hm hwhole hip hprotocol hpayload] at hparse
      exact ⟨_, hparse, ⟨rfl, rfl, rfl⟩, rfl, u.sourcePort_header, u.destinationPort_header,
        fun segment h ↦ by cases h⟩

end L4Frame

/-- **Parsing inverts encoding**, however the bytes of a frame and what pads it are split into
segments; and the lengths in the metadata of a TCP packet fit into each other in any frame. -/
theorem parsePacketOwned_frame (fragTbl : Option (FragLibrary φ)) (m : Mbuf) (tsc : BitVec 64)
    (fragments : φ) :
    (∀ (f : L4Frame) (padding : List (BitVec 8)), f.Valid → m.bytes = f.bytes ++ padding →
      ∃ metadata, parsePacketOwned fragTbl m tsc fragments =
          (.parsed metadata m false, fragments) ∧ f.Describes m.bytes metadata) ∧
      ∀ metadata chain wasReassembled,
        (parsePacketOwned fragTbl m tsc fragments).1 = .parsed metadata chain wasReassembled →
          metadata.protocol = .kTcp → TcpLengths m chain metadata := by
  refine ⟨fun f padding hf hm ↦ ?_, fun metadata chain wasReassembled h htcp ↦
    tcpLengths_of_parsed h htcp⟩
  cases f with
  | ipv4 ip l4 => exact L4Frame.parse_ipv4 hf hm fragTbl tsc fragments
  | ipv6 ip l4 => exact L4Frame.parse_ipv6 hf hm fragTbl tsc fragments

/-- A segment to port 80, with an option for its maximum size. -/
def optionSegment : WireTcp where
  sourcePort := 40000
  destinationPort := 80
  sequence := 1000
  flags := 0x18
  options := [2, 4, 5, 0xB4]
  payload := asciiBytes "GET /"

/-- The segment behind an IPv4 header that also has options. -/
def optionPacket : Ipv4Packet where
  macs := List.replicate 12 0
  protocol := kIpprotoTcp
  source := 0x0A000001
  destination := 0x0A000002
  options := [1, 1, 1, 0]
  payload := optionSegment.bytes

/-- The packet in two segments that part inside the IPv4 header, with two bytes of padding. -/
def optionMbuf : Mbuf :=
  ⟨⟨0, optionPacket.bytes.take 30⟩, [⟨1, optionPacket.bytes.drop 30 ++ [0, 0]⟩]⟩

theorem parsePacketOwned_frame_split :
    ∃ metadata, parsePacketOwned (none : Option (FragLibrary Unit)) optionMbuf 0 () =
        (.parsed metadata optionMbuf false, ()) ∧
      (L4Frame.ipv4 optionPacket (.tcp optionSegment)).Describes optionMbuf.bytes metadata ∧
        TcpLengths optionMbuf optionMbuf metadata := by
  have hpacket : optionPacket.Valid := by constructor <;> decide
  have hsegment : optionSegment.Valid := ⟨by decide, by decide⟩
  have hframe : (L4Frame.ipv4 optionPacket (.tcp optionSegment)).Valid :=
    .ipv4 hpacket (by decide) (by decide) rfl rfl hsegment
  obtain ⟨hwhole, hlengths⟩ :=
    parsePacketOwned_frame (none : Option (FragLibrary Unit)) optionMbuf 0 ()
  obtain ⟨metadata, hparse, hdescribes⟩ := hwhole _ [0, 0] hframe (by decide)
  refine ⟨metadata, hparse, hdescribes, hlengths metadata optionMbuf false ?_ hdescribes.protocol⟩
  rw [hparse]

end DpdkSpi
