import DpdkSpi.Packet.Parser

/-!
# IPv4 packets on the wire

The bytes of an Ethernet frame with an IPv4 packet, and what the parser reads from an mbuf that
carries them.
-/

namespace DpdkSpi

/-- A 16-bit number in network byte order. -/
def be16 (x : BitVec 16) : List (BitVec 8) := [x.extractLsb' 8 8, x.extractLsb' 0 8]

/-- A 32-bit number in network byte order. -/
def be32 (x : BitVec 32) : List (BitVec 8) :=
  [x.extractLsb' 24 8, x.extractLsb' 16 8, x.extractLsb' 8 8, x.extractLsb' 0 8]

/-- Loading a number in network byte order and swapping its bytes. -/
theorem rteBeToCpu16_load (x : BitVec 16) :
    rteBeToCpu16 (x.extractLsb' 0 8 ++ x.extractLsb' 8 8) = x := by
  unfold rteBeToCpu16 bswap16
  ext i hi
  simp only [BitVec.getElem_append, BitVec.getElem_extractLsb', BitVec.getLsbD_append,
    BitVec.getLsbD_extractLsb']
  grind

/-- Loading four bytes in network byte order and swapping them. -/
theorem rteBeToCpu32_load (x : BitVec 32) : rteBeToCpu32 (load32 (be32 x) 0) = x :=
  rteCpuToBe32_rteBeToCpu32 x

/-- A header that stands behind some bytes of a packet. -/
theorem readHeaderFast_of_bytes {m : Mbuf} {front header back : List (BitVec 8)}
    {offset size : Nat} (hbytes : m.bytes = front ++ (header ++ back))
    (hfront : front.length = offset) (hheader : header.length = size) :
    readHeaderFast m offset size = some header := by
  rw [readHeaderFast_eq, hbytes, window_append (Nat.le_of_eq hfront), hfront, Nat.sub_self,
    window_append_left (by rw [hheader, Nat.zero_add]), List.drop_zero,
    List.take_of_length_le (Nat.le_of_eq hheader)]

/-! ## Ethernet headers -/

section Ether

variable {macs : List (BitVec 8)} (h : macs.length = 12) (type : BitVec 16)

include h

theorem length_ether : (macs ++ be16 type).length = kEtherHdrSize := by
  rw [List.length_append, h]
  rfl

theorem etherType_ether : rteBeToCpu16 (EtherHdr.ofBytes (macs ++ be16 type)).etherType = type := by
  have hbyte (i : Nat) : (macs ++ be16 type).getD (12 + i) 0 = (be16 type).getD i 0 := by
    rw [List.getD_eq_getElem?_getD,
      List.getElem?_append_right (by rw [h]; exact Nat.le_add_right 12 i), h,
      Nat.add_sub_cancel_left, ← List.getD_eq_getElem?_getD]
  have hload : (EtherHdr.ofBytes (macs ++ be16 type)).etherType =
      (be16 type).getD 1 0 ++ (be16 type).getD 0 0 := by
    rw [← hbyte 1, ← hbyte 0]
    rfl
  rw [hload]
  exact rteBeToCpu16_load type

end Ether

/-! ## Frames -/

/-- An IPv4 packet in an Ethernet frame: a whole datagram or a fragment.  Numbers are in host
order; `fragment` is the word of flags and offset. -/
structure Ipv4Packet where
  macs : List (BitVec 8)
  typeOfService : BitVec 8 := 0
  packetId : BitVec 16 := 0
  fragment : BitVec 16 := 0
  timeToLive : BitVec 8 := 64
  protocol : BitVec 8
  checksum : BitVec 16 := 0
  source : BitVec 32
  destination : BitVec 32
  options : List (BitVec 8) := []
  payload : List (BitVec 8)
deriving DecidableEq, Repr

namespace Ipv4Packet

/-- The length of the IPv4 header. -/
def headerLen (p : Ipv4Packet) : Nat := kIpv4HdrSize + p.options.length

/-- The length of the IPv4 packet. -/
def totalLength (p : Ipv4Packet) : Nat := p.headerLen + p.payload.length

/-- The twenty bytes in front of the options. -/
def fixedHeader (p : Ipv4Packet) : List (BitVec 8) :=
  [BitVec.ofNat 8 (0x45 + p.options.length / 4), p.typeOfService] ++
    be16 (BitVec.ofNat 16 p.totalLength) ++ be16 p.packetId ++ be16 p.fragment ++
    [p.timeToLive, p.protocol] ++ be16 p.checksum ++ be32 p.source ++ be32 p.destination

/-- The Ethernet header. -/
def etherHeader (p : Ipv4Packet) : List (BitVec 8) := p.macs ++ be16 kEtherTypeIpv4

/-- The frame. -/
def bytes (p : Ipv4Packet) : List (BitVec 8) :=
  p.etherHeader ++ p.fixedHeader ++ (p.options ++ p.payload)

/-- Lengths as they can be in a frame. -/
structure Valid (p : Ipv4Packet) : Prop where
  macs : p.macs.length = 12
  options_mod : p.options.length % 4 = 0
  options_le : p.options.length ≤ 40
  total : p.totalLength < 2 ^ 16

/-- The header that the parser reads. -/
def hdr (p : Ipv4Packet) : Ipv4Hdr := Ipv4Hdr.ofBytes p.fixedHeader

variable {p : Ipv4Packet}

theorem length_front (h : p.Valid) : (p.etherHeader ++ p.fixedHeader).length = 34 := by
  rw [List.length_append, etherHeader, length_ether h.macs]
  rfl

theorem headerLen_hdr (h : p.Valid) : p.hdr.headerLen = p.headerLen := by
  have hfour : ∀ k ≤ 10, (BitVec.ofNat 8 (0x45 + k) &&& 0x0F).toNat * 4 = 20 + 4 * k := by decide
  have hle := h.options_le
  have hmod := h.options_mod
  have hlen := hfour (p.options.length / 4) (by omega)
  show (BitVec.ofNat 8 (0x45 + p.options.length / 4) &&& 0x0F).toNat * 4 = 20 + p.options.length
  omega

theorem totalLength_hdr (h : p.Valid) : (rteBeToCpu16 p.hdr.totalLength).toNat = p.totalLength := by
  have hload : rteBeToCpu16 p.hdr.totalLength = BitVec.ofNat 16 p.totalLength :=
    rteBeToCpu16_load _
  rw [hload, BitVec.toNat_ofNat, Nat.mod_eq_of_lt h.total]

theorem fragment_hdr (p : Ipv4Packet) : rteBeToCpu16 p.hdr.fragmentOffset = p.fragment :=
  rteBeToCpu16_load _

theorem nextProtoId_hdr (p : Ipv4Packet) : p.hdr.nextProtoId = p.protocol := rfl

theorem srcAddr_hdr (p : Ipv4Packet) : p.hdr.srcAddr = load32 (be32 p.source) 0 := rfl

theorem dstAddr_hdr (p : Ipv4Packet) : p.hdr.dstAddr = load32 (be32 p.destination) 0 := rfl

/-- An mbuf that begins with a frame. -/
def In (p : Ipv4Packet) (m : Mbuf) : Prop := ∃ padding, m.bytes = p.bytes ++ padding

section In

variable {φ : Type} {m : Mbuf}

theorem In.bytes_eq (hm : p.In m) :
    ∃ back, m.bytes = p.etherHeader ++ (p.fixedHeader ++ back) := by
  obtain ⟨padding, hbytes⟩ := hm
  refine ⟨p.options ++ p.payload ++ padding, ?_⟩
  rw [hbytes, bytes, List.append_assoc, List.append_assoc]

theorem In.readEther (h : p.Valid) (hm : p.In m) :
    readHeaderFast m 0 kEtherHdrSize = some p.etherHeader := by
  obtain ⟨back, hback⟩ := hm.bytes_eq
  exact readHeaderFast_of_bytes (hback.trans (List.nil_append _).symm) rfl
    (length_ether h.macs kEtherTypeIpv4)

theorem In.readIpv4 (h : p.Valid) (hm : p.In m) :
    readHeaderFast m kEtherHdrSize kIpv4HdrSize = some p.fixedHeader := by
  obtain ⟨back, hback⟩ := hm.bytes_eq
  exact readHeaderFast_of_bytes hback (length_ether h.macs kEtherTypeIpv4) rfl

theorem etherType_etherHeader (h : p.Valid) :
    rteBeToCpu16 (EtherHdr.ofBytes p.etherHeader).etherType = kEtherTypeIpv4 :=
  etherType_ether h.macs kEtherTypeIpv4

/-- The frame of an IPv4 packet goes to the IPv4 branch. -/
theorem In.parsePacketOwned_eq (h : p.Valid) (hm : p.In m) (fragTbl : Option (FragLibrary φ))
    (tsc : BitVec 64) (fragments : φ) :
    parsePacketOwned fragTbl m tsc fragments = parseIpv4 fragTbl m tsc fragments := by
  unfold parsePacketOwned
  rw [hm.readEther h]
  exact if_pos (etherType_etherHeader h)

/-- The header is long enough. -/
theorem not_headerLen_lt (h : p.Valid) : ¬ p.hdr.headerLen < kIpv4HdrSize := by
  rw [headerLen_hdr h]
  exact Nat.not_lt.mpr (Nat.le_add_right _ _)

/-- A packet that is no fragment is parsed as it is. -/
theorem In.parse_whole (h : p.Valid) (hm : p.In m) (hwhole : isIpv4Fragmented p.hdr = false)
    (fragTbl : Option (FragLibrary φ)) (tsc : BitVec 64) (fragments : φ) :
    parsePacketOwned fragTbl m tsc fragments =
      (.ofOption m false (parseIpv4Payload m p.headerLen p.hdr), fragments) := by
  rw [hm.parsePacketOwned_eq h, parseIpv4, hm.readIpv4 h]
  show (if p.hdr.headerLen < kIpv4HdrSize then _ else _) = _
  rw [if_neg (not_headerLen_lt h)]
  show (if isIpv4Fragmented p.hdr = true then _ else _) = _
  rw [hwhole, if_neg Bool.false_ne_true]
  show (ParseResult.ofOption m false (parseIpv4Payload m p.hdr.headerLen p.hdr), fragments) = _
  rw [headerLen_hdr h]

/-- A fragment goes to the library, and what the library hands back is parsed with the header
length of this fragment. -/
theorem In.parse_fragment (h : p.Valid) (hm : p.In m)
    (hheaders : kEtherHdrSize + p.headerLen ≤ m.dataLen)
    (hfragmented : isIpv4Fragmented p.hdr = true) (hvalid : isValidFragment p.hdr = true)
    (lib : FragLibrary φ) (tsc : BitVec 64) (fragments : φ) :
    parsePacketOwned (some lib) m tsc fragments =
      match lib.rteIpv4FragReassemblePacket m kEtherHdrSize p.headerLen tsc fragments with
      | (none, fragments) => (.waitingForFragments, fragments)
      | (some chain, fragments) =>
          match readHeaderFast chain kEtherHdrSize kIpv4HdrSize with
          | none => (.malformed chain, fragments)
          | some bytes =>
              (.ofOption chain true (parseIpv4Payload chain p.headerLen (.ofBytes bytes)),
                fragments) := by
  rw [← headerLen_hdr h] at hheaders ⊢
  rw [hm.parsePacketOwned_eq h, parseIpv4, hm.readIpv4 h]
  show (if p.hdr.headerLen < kIpv4HdrSize then _ else _) = _
  rw [if_neg (not_headerLen_lt h)]
  show (if isIpv4Fragmented p.hdr = true then _ else _) = _
  rw [hfragmented, if_pos rfl]
  show (if (!isValidFragment p.hdr) = true then _ else _) = _
  rw [hvalid, Bool.not_true, if_neg Bool.false_ne_true]
  show (if m.dataLen < kEtherHdrSize + p.hdr.headerLen then _ else _) = _
  rw [if_neg (Nat.not_lt.mpr hheaders)]
  rfl

end In

/-! ## Layer 4 -/

/-- The layer-4 bytes, if the IPv4 header had so many bytes of options. -/
def l4At (p : Ipv4Packet) (optionBytes : Nat) : List (BitVec 8) :=
  (p.options ++ p.payload).drop optionBytes

theorem l4At_options (p : Ipv4Packet) : p.l4At p.options.length = p.payload := by
  rw [l4At, List.drop_left]

/-- What is read at the end of a header of some length. -/
theorem read_l4At (h : p.Valid) {m : Mbuf} (hm : m.bytes = p.bytes) {k size : Nat}
    (hsize : size ≤ (p.l4At k).length) (hk : k ≤ p.options.length) :
    readHeaderFast m (kEtherHdrSize + (kIpv4HdrSize + k)) size = some ((p.l4At k).take size) := by
  have hfront := length_front h
  have hoffset : kEtherHdrSize + (kIpv4HdrSize + k) - (p.etherHeader ++ p.fixedHeader).length =
      k := by
    rw [hfront, kEtherHdrSize, kIpv4HdrSize]
    omega
  have hle : (p.etherHeader ++ p.fixedHeader).length ≤ kEtherHdrSize + (kIpv4HdrSize + k) := by
    rw [hfront, kEtherHdrSize, kIpv4HdrSize]
    omega
  rw [l4At, List.length_drop] at hsize
  rw [readHeaderFast_eq, hm, bytes, window_append hle, hoffset,
    window_of_le (by rw [List.length_append] at hsize ⊢; omega), l4At]


/-- The length of the TCP header at the start of some bytes. -/
def tcpHeaderLength (l4 : List (BitVec 8)) : Nat := (l4.getD 12 0 >>> 4).toNat * 4

/-- The metadata of a UDP packet whose layer 4 is behind so many bytes of options. -/
def udpMetadata (p : Ipv4Packet) (optionBytes : Nat) : PacketMetadata where
  sourceIpBe := p.hdr.srcAddr
  destinationIpBe := p.hdr.dstAddr
  sourcePortBe := load16 (p.l4At optionBytes) 0
  destinationPortBe := load16 (p.l4At optionBytes) 2
  protocol := .kUdp
  ipVersion := .kIpv4

/-- The metadata of a TCP packet whose layer 4 is behind so many bytes of options. -/
def tcpMetadata (p : Ipv4Packet) (optionBytes : Nat) : PacketMetadata :=
  let tcpOffset := tcpHeaderLength (p.l4At optionBytes)
  { sourceIpBe := p.hdr.srcAddr
    destinationIpBe := p.hdr.dstAddr
    sourcePortBe := load16 (p.l4At optionBytes) 0
    destinationPortBe := load16 (p.l4At optionBytes) 2
    protocol := .kTcp
    ipVersion := .kIpv4
    tcpSequence := rteBeToCpu32 (load32 (p.l4At optionBytes) 4)
    tcpPayloadOffset := BitVec.ofNat 32 (kEtherHdrSize + (kIpv4HdrSize + optionBytes) + tcpOffset)
    tcpPayloadLength := BitVec.ofNat 32 (p.totalLength - (kIpv4HdrSize + optionBytes) - tcpOffset)
    tcpFlags := (p.l4At optionBytes).getD 13 0 }

theorem getD_take {bytes : List (BitVec 8)} {size i : Nat} (hi : i < size) :
    (bytes.take size).getD i 0 = bytes.getD i 0 := by
  rw [List.getD_eq_getElem?_getD, List.getD_eq_getElem?_getD, List.getElem?_take_of_lt hi]

theorem load16_take {bytes : List (BitVec 8)} {size i : Nat} (hi : i + 1 < size) :
    load16 (bytes.take size) i = load16 bytes i := by
  rw [load16, load16, getD_take hi, getD_take (Nat.lt_of_succ_lt hi)]

theorem load32_take {bytes : List (BitVec 8)} {size i : Nat} (hi : i + 3 < size) :
    load32 (bytes.take size) i = load32 bytes i := by
  rw [load32, load32, getD_take hi, getD_take (i := i + 2) (by omega),
    getD_take (i := i + 1) (by omega), getD_take (i := i) (by omega)]

theorem ipv4Hdr_take (bytes : List (BitVec 8)) :
    Ipv4Hdr.ofBytes (bytes.take kIpv4HdrSize) = Ipv4Hdr.ofBytes bytes := by
  have hsize : 19 < kIpv4HdrSize := by decide
  rw [Ipv4Hdr.ofBytes, load16_take (by omega), load16_take (by omega), load32_take (by omega),
    load32_take hsize, getD_take (by omega), getD_take (by omega)]
  rfl

theorem tcpHdr_take (bytes : List (BitVec 8)) :
    TcpHdr.ofBytes (bytes.take kTcpHdrSize) = TcpHdr.ofBytes bytes := by
  have hsize : 13 < kTcpHdrSize := by decide
  rw [TcpHdr.ofBytes, load16_take (by omega), load16_take (by omega), load32_take (by omega),
    getD_take (by omega), getD_take hsize]
  rfl

theorem parseIpv4Payload_udp (h : p.Valid) {m : Mbuf} (hm : m.bytes = p.bytes)
    (hproto : p.protocol = kIpprotoUdp) {k : Nat} (hk : k ≤ p.options.length)
    (hsize : kUdpHdrSize ≤ (p.l4At k).length) :
    parseIpv4Payload m (kIpv4HdrSize + k) p.hdr = some (p.udpMetadata k) := by
  unfold parseIpv4Payload
  dsimp only
  rw [nextProtoId_hdr, hproto, if_neg (by decide), if_pos rfl, parseL4, read_l4At h hm hsize hk,
    Option.map_some, load16_take (by decide), load16_take (by decide)]
  rfl

theorem parseIpv4Payload_tcp (h : p.Valid) {m : Mbuf} (hm : m.bytes = p.bytes)
    (hproto : p.protocol = kIpprotoTcp) {k : Nat} (hk : k ≤ p.options.length)
    (hsize : kTcpHdrSize ≤ (p.l4At k).length) :
    parseIpv4Payload m (kIpv4HdrSize + k) p.hdr =
      if tcpHeaderLength (p.l4At k) < kTcpHdrSize ∨
          p.totalLength - (kIpv4HdrSize + k) < tcpHeaderLength (p.l4At k) then none
      else some (p.tcpMetadata k) := by
  have htotal : ¬ p.totalLength < kIpv4HdrSize + k := by
    rw [totalLength, headerLen]
    omega
  unfold parseIpv4Payload
  dsimp only
  rw [nextProtoId_hdr, hproto, if_pos rfl, parseL4, read_l4At h hm hsize hk, Option.map_some,
    load16_take (by decide), load16_take (by decide)]
  dsimp only
  rw [totalLength_hdr h, if_neg htotal, populateTcpMetadata, read_l4At h hm hsize hk]
  dsimp only
  rw [tcpHdr_take]
  rfl

end Ipv4Packet

end DpdkSpi
