import DpdkSpi.Packet.Parser
import DpdkSpi.Pipeline.Coupling

/-!
# Header rewriting

`UpdateL2ForwardMacs` and `UpdateL3ForwardHeaders`, after `spi_pipeline.cpp`.  Both write into the
data of the first mbuf of a chain and leave the chain as it is.  The checksums are those of DPDK.
-/

namespace DpdkSpi

variable {φ ρ : Type}

/-! ## Stores -/

/-- Write bytes over the data of the first mbuf, from an offset on.  What goes beyond the data
ends up in the tailroom. -/
def Mbuf.store (m : Mbuf) (offset : Nat) (bytes : List (BitVec 8)) : Mbuf :=
  { m with
    head := { m.head with
      data := m.head.data.mapIdx fun i b ↦
        if offset ≤ i then bytes.getD (i - offset) b else b } }

/-- A 16-bit word as a little-endian host stores it. -/
def storeWord (x : BitVec 16) : List (BitVec 8) := [x.extractLsb' 0 8, x.extractLsb' 8 8]

/-- The bytes of a MAC address. -/
def etherBytes (a : EtherAddr) : List (BitVec 8) :=
  [a.extractLsb' 40 8, a.extractLsb' 32 8, a.extractLsb' 24 8, a.extractLsb' 16 8,
    a.extractLsb' 8 8, a.extractLsb' 0 8]

/-! ## MAC addresses -/

/-- `kLocalAdminMacPrefix`. -/
def kLocalAdminMacPrefix : BitVec 8 := 0x02

/-- `UpdateL2ForwardMacs`. -/
def updateL2ForwardMacs (packet : Mbuf) (srcAddr : EtherAddr) (transmitPort : BitVec 16) : Mbuf :=
  (packet.store 0 [kLocalAdminMacPrefix, 0, 0, 0, 0, transmitPort.setWidth 8]).store 6
    (etherBytes srcAddr)

/-! ## TTL and checksums -/

/-- The checksums of DPDK: of an IPv4 header, and of the TCP or UDP part of a packet. -/
structure Cksums where
  rteIpv4Cksum : List (BitVec 8) → BitVec 16
  rteIpv4UdptcpCksumMbuf : Mbuf → (ipv4Hdr : List (BitVec 8)) → (l4Offset : Nat) → BitVec 16

/-- The IPv4 header where it is in the first mbuf, with its options. -/
def ipv4HeaderBytes (packet : Mbuf) : List (BitVec 8) :=
  let data := packet.head.data.drop kEtherHdrSize
  data.take (Ipv4Hdr.ofBytes data).headerLen

/-- Clear a checksum of layer 4, compute it and store it. -/
def storeL4Cksum (ck : Cksums) (packet : Mbuf) (l4Offset offset : Nat) : Mbuf :=
  let packet := packet.store (l4Offset + offset) [0, 0]
  packet.store (l4Offset + offset)
    (storeWord (ck.rteIpv4UdptcpCksumMbuf packet (ipv4HeaderBytes packet) l4Offset))

/-- `RecomputeL4Checksum`. -/
def recomputeL4Checksum (ck : Cksums) (packet : Mbuf) : Bool × Mbuf :=
  let ipv4Hdr := Ipv4Hdr.ofBytes (packet.head.data.drop kEtherHdrSize)
  let l4Offset := kEtherHdrSize + ipv4Hdr.headerLen
  if ipv4Hdr.nextProtoId = kIpprotoTcp then
    if packet.dataLen < l4Offset + kTcpHdrSize then (false, packet)
    else (true, storeL4Cksum ck packet l4Offset 16)
  else if ipv4Hdr.nextProtoId = kIpprotoUdp then
    if packet.dataLen < l4Offset + kUdpHdrSize then (false, packet)
    else (true, storeL4Cksum ck packet l4Offset 6)
  else (true, packet)

/-- `UpdateL3ForwardHeaders`. -/
def updateL3ForwardHeaders (ck : Cksums) (packet : Mbuf) (srcAddr dstAddr : EtherAddr) :
    Bool × Mbuf :=
  let packet := (packet.store 0 (etherBytes dstAddr)).store 6 (etherBytes srcAddr)
  let timeToLive := packet.head.data.getD (kEtherHdrSize + 8) 0
  if timeToLive ≤ 1 then (false, packet)
  else
    let packet := packet.store (kEtherHdrSize + 8) [timeToLive - 1]
    let packet := packet.store (kEtherHdrSize + 10) [0, 0]
    let packet := packet.store (kEtherHdrSize + 10)
      (storeWord (ck.rteIpv4Cksum (ipv4HeaderBytes packet)))
    recomputeL4Checksum ck packet

theorem addresses_recomputeL4Checksum (ck : Cksums) (packet : Mbuf) :
    (recomputeL4Checksum ck packet).2.addresses = packet.addresses := by
  unfold recomputeL4Checksum
  dsimp only
  split
  · split <;> rfl
  · split
    · split <;> rfl
    · rfl

theorem addresses_updateL3ForwardHeaders (ck : Cksums) (packet : Mbuf)
    (srcAddr dstAddr : EtherAddr) :
    (updateL3ForwardHeaders ck packet srcAddr dstAddr).2.addresses = packet.addresses := by
  unfold updateL3ForwardHeaders
  dsimp only
  split
  · rfl
  · exact addresses_recomputeL4Checksum ck _

/-! ## Services on mbufs -/

/-- Services with the parser and the header rewriting of this repository. -/
def mbufServices (ck : Cksums) (fragTbl : Option (FragLibrary φ)) (svc : Services Mbuf ρ) :
    Services Mbuf (φ × ρ) :=
  Services.withFragments (parsePacketOwned fragTbl)
    { svc with
      pktmbufRead := rtePktmbufRead
      updateL3ForwardHeaders := updateL3ForwardHeaders ck
      updateL2ForwardMacs := updateL2ForwardMacs }

end DpdkSpi
