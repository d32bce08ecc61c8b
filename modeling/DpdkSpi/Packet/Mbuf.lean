import DpdkSpi.Types

/-!
# Mbufs and headers

A packet is the head of a chain of mbufs, its segments.  The header readers of
`spi_packet_parser.cpp` come down to a window of the bytes of the chain, however they are split
into segments, and a header is the words a little-endian host loads from such a window.
-/

namespace DpdkSpi

/-! ## Chains -/

/-- An mbuf of a chain: where it is, and its data. -/
structure Segment where
  address : Nat
  data : List (BitVec 8)
deriving DecidableEq, Repr

/-- `rte_mbuf`, as the head of a chain. -/
structure Mbuf where
  head : Segment
  next : List Segment := []
deriving DecidableEq, Repr

namespace Mbuf

/-- The chain from its head on. -/
def segments (m : Mbuf) : List Segment := m.head :: m.next

/-- The mbufs of the chain. -/
def addresses (m : Mbuf) : List Nat := m.segments.map Segment.address

/-- The pointer to the packet. -/
def address (m : Mbuf) : Nat := m.head.address

/-- `nb_segs`. -/
def nbSegs (m : Mbuf) : Nat := m.segments.length

/-- `data_len`. -/
def dataLen (m : Mbuf) : Nat := m.head.data.length

/-- The bytes of the packet; their number is `pkt_len`. -/
def bytes (m : Mbuf) : List (BitVec 8) := m.segments.flatMap Segment.data

end Mbuf

/-- Some bytes, from an offset on. -/
def window (bytes : List (BitVec 8)) (offset size : Nat) : Option (List (BitVec 8)) :=
  if bytes.length < offset + size then none else some ((bytes.drop offset).take size)

/-- `rte_pktmbuf_read`, which walks the chain. -/
def rtePktmbufRead (packet : Mbuf) (offset size : Nat) : Option (List (BitVec 8)) :=
  window packet.bytes offset size

/-- `ReadHeaderFast` for a header of a size: the data of a single segment, or what `ReadHeader`
reads from a chain. -/
def readHeaderFast (packet : Mbuf) (offset size : Nat) : Option (List (BitVec 8)) :=
  if packet.nbSegs ≠ 1 then rtePktmbufRead packet offset size
  else if packet.dataLen < offset + size then none
  else some ((packet.head.data.drop offset).take size)

/-- The fast path reads the same bytes. -/
theorem readHeaderFast_eq (packet : Mbuf) (offset size : Nat) :
    readHeaderFast packet offset size = window packet.bytes offset size := by
  rcases packet with ⟨head, _ | ⟨segment, next⟩⟩
  · have hbytes : Mbuf.bytes ⟨head, []⟩ = head.data := List.append_nil head.data
    have hone : Mbuf.nbSegs ⟨head, []⟩ = 1 := rfl
    rw [readHeaderFast, if_neg (not_not_intro hone), window, hbytes]
    rfl
  · rw [readHeaderFast, if_pos (by simp [Mbuf.nbSegs, Mbuf.segments]), rtePktmbufRead]

theorem window_of_le {bytes : List (BitVec 8)} {offset size : Nat}
    (h : offset + size ≤ bytes.length) :
    window bytes offset size = some ((bytes.drop offset).take size) :=
  if_neg (Nat.not_lt.mpr h)

/-- A window behind a first part. -/
theorem window_append {first rest : List (BitVec 8)} {offset size : Nat}
    (h : first.length ≤ offset) :
    window (first ++ rest) offset size = window rest (offset - first.length) size := by
  have hlength : (first ++ rest).length < offset + size ↔
      rest.length < offset - first.length + size := by
    rw [List.length_append]
    omega
  rw [window, window, if_congr hlength rfl rfl, List.drop_append, List.drop_eq_nil_of_le h,
    List.nil_append]

/-- A window within a first part. -/
theorem window_append_left {first rest : List (BitVec 8)} {offset size : Nat}
    (h : offset + size ≤ first.length) :
    window (first ++ rest) offset size = some ((first.drop offset).take size) := by
  have hwhole : offset + size ≤ (first ++ rest).length := by
    rw [List.length_append]
    omega
  rw [window_of_le hwhole, List.drop_append_of_le_length (by omega),
    List.take_append_of_le_length (by rw [List.length_drop]; omega)]

/-! ## Headers -/

/-- Two bytes, as a little-endian host loads them. -/
def load16 (bytes : List (BitVec 8)) (offset : Nat) : BitVec 16 :=
  bytes.getD (offset + 1) 0 ++ bytes.getD offset 0

/-- Four bytes, as a little-endian host loads them. -/
def load32 (bytes : List (BitVec 8)) (offset : Nat) : BitVec 32 :=
  bytes.getD (offset + 3) 0 ++ bytes.getD (offset + 2) 0 ++ bytes.getD (offset + 1) 0 ++
    bytes.getD offset 0

/-- `memcpy` of an IPv6 address. -/
def loadIp6 (bytes : List (BitVec 8)) (offset : Nat) : Ip6Address :=
  Vector.ofFn fun i : Fin 16 ↦ bytes.getD (offset + i) 0

/-- `sizeof(rte_ether_hdr)`. -/
def kEtherHdrSize : Nat := 14

/-- `sizeof(rte_ipv4_hdr)`. -/
def kIpv4HdrSize : Nat := 20

/-- `sizeof(rte_ipv6_hdr)`. -/
def kIpv6HdrSize : Nat := 40

/-- `sizeof(rte_ipv6_fragment_ext)`. -/
def kIpv6FragmentExtSize : Nat := 8

/-- `sizeof(rte_tcp_hdr)`. -/
def kTcpHdrSize : Nat := 20

/-- `sizeof(rte_udp_hdr)`. -/
def kUdpHdrSize : Nat := 8

/-- The field of `rte_ether_hdr` that the parser reads. -/
structure EtherHdr where
  etherType : BitVec 16

/-- The fields of `rte_ipv4_hdr` that the parser reads. -/
structure Ipv4Hdr where
  versionIhl : BitVec 8
  totalLength : BitVec 16
  fragmentOffset : BitVec 16
  nextProtoId : BitVec 8
  srcAddr : BitVec 32
  dstAddr : BitVec 32
deriving DecidableEq

/-- The fields of `rte_ipv6_hdr` that the parser reads. -/
structure Ipv6Hdr where
  payloadLen : BitVec 16
  proto : BitVec 8
  srcAddr : Ip6Address
  dstAddr : Ip6Address

/-- The fields of `rte_tcp_hdr` that the parser reads. -/
structure TcpHdr where
  srcPort : BitVec 16
  dstPort : BitVec 16
  sentSeq : BitVec 32
  dataOff : BitVec 8
  tcpFlags : BitVec 8
deriving DecidableEq

/-- The Ethernet header in fourteen bytes. -/
def EtherHdr.ofBytes (bytes : List (BitVec 8)) : EtherHdr where
  etherType := load16 bytes 12

/-- The IPv4 header in twenty bytes. -/
def Ipv4Hdr.ofBytes (bytes : List (BitVec 8)) : Ipv4Hdr where
  versionIhl := bytes.getD 0 0
  totalLength := load16 bytes 2
  fragmentOffset := load16 bytes 6
  nextProtoId := bytes.getD 9 0
  srcAddr := load32 bytes 12
  dstAddr := load32 bytes 16

/-- The IPv6 header in forty bytes. -/
def Ipv6Hdr.ofBytes (bytes : List (BitVec 8)) : Ipv6Hdr where
  payloadLen := load16 bytes 4
  proto := bytes.getD 6 0
  srcAddr := loadIp6 bytes 8
  dstAddr := loadIp6 bytes 24

/-- The TCP header in twenty bytes. -/
def TcpHdr.ofBytes (bytes : List (BitVec 8)) : TcpHdr where
  srcPort := load16 bytes 0
  dstPort := load16 bytes 2
  sentSeq := load32 bytes 4
  dataOff := bytes.getD 12 0
  tcpFlags := bytes.getD 13 0

/-- `rte_ipv4_hdr_len`. -/
def Ipv4Hdr.headerLen (hdr : Ipv4Hdr) : Nat := (hdr.versionIhl &&& 0x0F).toNat * 4

end DpdkSpi
