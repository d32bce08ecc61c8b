import DpdkSpi.Packet.Fragments6

/-!
# The flow hash

`HashPacketFlow`, after `spi_pipeline.cpp`, which chooses the worker of a packet in flow-hash mode.
It reads headers from the first segment of a packet alone, and leaves out what it does not find
there.  When the first segment shows the 5-tuple of a packet, the hash is one of the 5-tuple
(`hashPacketFlow_of_flowTuple`); when it shows which datagram a fragment is of, the hash is one of
the datagram (`hashPacketFlow_of_datagramId`).
-/

namespace DpdkSpi

/-! ## The hash -/

/-- `kFnvOffset`. -/
def kFnvOffset : BitVec 32 := 2166136261

/-- `kFnvPrime`. -/
def kFnvPrime : BitVec 32 := 16777619

/-- `MixHash`. -/
def mixHash (hash value : BitVec 32) : BitVec 32 :=
  [0, 8, 16, 24].foldl
    (fun hash shift ↦ (hash ^^^ ((value >>> shift).setWidth 8).setWidth 32) * kFnvPrime) hash

/-- The loop over the bytes of an IPv6 address. -/
def mixAddress (hash : BitVec 32) (address : Ip6Address) : BitVec 32 :=
  address.toList.foldl (fun hash byte ↦ mixHash hash (byte.setWidth 32)) hash

/-- `HashPacketFlow`. -/
def hashPacketFlow (packet : Mbuf) (receivePort : BitVec 16) : BitVec 32 :=
  let hash := mixHash kFnvOffset (receivePort.setWidth 32)
  let data := packet.head.data
  let dataLen := packet.dataLen
  if dataLen < kEtherHdrSize then hash
  else
    let etherType := rteBeToCpu16 (EtherHdr.ofBytes data).etherType
    let hash := mixHash hash (etherType.setWidth 32)
    if etherType = kEtherTypeIpv6 then
      if dataLen < kEtherHdrSize + kIpv6HdrSize then hash
      else
        let ipv6Hdr := Ipv6Hdr.ofBytes (data.drop kEtherHdrSize)
        let hash := mixHash hash (ipv6Hdr.proto.setWidth 32)
        let hash := mixAddress hash ipv6Hdr.srcAddr
        let hash := mixAddress hash ipv6Hdr.dstAddr
        let fragmentOffset := kEtherHdrSize + kIpv6HdrSize
        if ipv6Hdr.proto = kIpprotoFragment ∧ fragmentOffset + kIpv6FragmentExtSize ≤ dataLen then
          mixHash hash (rteBeToCpu32 (load32 (data.drop fragmentOffset) 4))
        else hash
    else if etherType ≠ kEtherTypeIpv4 ∨ dataLen < kEtherHdrSize + kIpv4HdrSize then hash
    else
      let ipv4 := data.drop kEtherHdrSize
      let ipv4Hdr := Ipv4Hdr.ofBytes ipv4
      let ipv4HeaderLen := ipv4Hdr.headerLen
      if ipv4HeaderLen < kIpv4HdrSize then hash
      else
        let hash := mixHash hash (rteBeToCpu32 ipv4Hdr.srcAddr)
        let hash := mixHash hash (rteBeToCpu32 ipv4Hdr.dstAddr)
        let hash := mixHash hash (ipv4Hdr.nextProtoId.setWidth 32)
        if isIpv4Fragmented ipv4Hdr then
          mixHash hash ((rteBeToCpu16 (load16 ipv4 4)).setWidth 32)
        else
          let l4Offset := kEtherHdrSize + ipv4HeaderLen
          let l4 := data.drop l4Offset
          let withPorts := mixHash (mixHash hash ((rteBeToCpu16 (load16 l4 0)).setWidth 32))
            ((rteBeToCpu16 (load16 l4 2)).setWidth 32)
          if dataLen < l4Offset + kUdpHdrSize then hash
          else if ipv4Hdr.nextProtoId = kIpprotoTcp then
            if dataLen < l4Offset + kTcpHdrSize then hash else withPorts
          else if ipv4Hdr.nextProtoId = kIpprotoUdp then withPorts
          else hash

/-! ## What a packet is -/

/-- A directed 5-tuple, with the numbers as they stand in the packet. -/
inductive FlowTuple where
  | ipv4 (source destination : BitVec 32) (sourcePort destinationPort : BitVec 16)
      (protocol : Protocol)
  | ipv6 (source destination : Ip6Address) (sourcePort destinationPort : BitVec 16)
      (protocol : Protocol)
deriving DecidableEq, Repr

/-- The 5-tuple in the metadata of a packet. -/
def PacketMetadata.flowTuple (metadata : PacketMetadata) : FlowTuple :=
  match metadata.ipVersion with
  | .kIpv4 => .ipv4 metadata.sourceIpBe metadata.destinationIpBe metadata.sourcePortBe
      metadata.destinationPortBe metadata.protocol
  | .kIpv6 => .ipv6 metadata.sourceIp6Address metadata.destinationIp6Address metadata.sourcePortBe
      metadata.destinationPortBe metadata.protocol

/-- The 5-tuple of a packet that is no fragment, behind an IPv4 header. -/
def ipv4Tuple (packet : Mbuf) : Option FlowTuple :=
  match readHeaderFast packet kEtherHdrSize kIpv4HdrSize with
  | none => none
  | some bytes =>
      let ipv4Hdr := Ipv4Hdr.ofBytes bytes
      if ipv4Hdr.headerLen < kIpv4HdrSize ∨ isIpv4Fragmented ipv4Hdr then none
      else (parseIpv4Payload packet ipv4Hdr.headerLen ipv4Hdr).map PacketMetadata.flowTuple

/-- The 5-tuple of a packet that is no fragment, behind an IPv6 header. -/
def ipv6Tuple (packet : Mbuf) : Option FlowTuple :=
  match readHeaderFast packet kEtherHdrSize kIpv6HdrSize with
  | none => none
  | some bytes => (parseIpv6Payload packet (.ofBytes bytes)).map PacketMetadata.flowTuple

/-- The directed 5-tuple of a TCP or UDP packet that is no fragment. -/
def flowTuple (packet : Mbuf) : Option FlowTuple :=
  match readHeaderFast packet 0 kEtherHdrSize with
  | none => none
  | some bytes =>
      let etherType := rteBeToCpu16 (EtherHdr.ofBytes bytes).etherType
      if etherType = kEtherTypeIpv4 then ipv4Tuple packet
      else if etherType = kEtherTypeIpv6 then ipv6Tuple packet
      else none

/-- What the fragments of a datagram have in common.  An IPv6 packet without a fragment header
directly behind its IPv6 header has no identification there. -/
inductive DatagramId where
  | ipv4 (source destination : BitVec 32) (protocol : BitVec 8) (packetId : BitVec 16)
  | ipv6 (source destination : Ip6Address) (proto : BitVec 8) (id : Option (BitVec 32))
deriving DecidableEq, Repr

/-- The datagram of an IPv4 fragment. -/
def ipv4DatagramId (packet : Mbuf) : Option DatagramId :=
  match readHeaderFast packet kEtherHdrSize kIpv4HdrSize with
  | none => none
  | some bytes =>
      let ipv4Hdr := Ipv4Hdr.ofBytes bytes
      if ipv4Hdr.headerLen < kIpv4HdrSize ∨ ¬ isIpv4Fragmented ipv4Hdr then none
      else some (.ipv4 ipv4Hdr.srcAddr ipv4Hdr.dstAddr ipv4Hdr.nextProtoId (load16 bytes 4))

/-- The datagram of an IPv6 packet. -/
def ipv6DatagramId (packet : Mbuf) : Option DatagramId :=
  match readHeaderFast packet kEtherHdrSize kIpv6HdrSize with
  | none => none
  | some bytes =>
      let ipv6Hdr := Ipv6Hdr.ofBytes bytes
      if ipv6Hdr.proto = kIpprotoFragment then
        (readHeaderFast packet (kEtherHdrSize + kIpv6HdrSize) kIpv6FragmentExtSize).map fun ext ↦
          .ipv6 ipv6Hdr.srcAddr ipv6Hdr.dstAddr ipv6Hdr.proto (some (load32 ext 4))
      else some (.ipv6 ipv6Hdr.srcAddr ipv6Hdr.dstAddr ipv6Hdr.proto none)

/-- The datagram a packet is of. -/
def datagramId (packet : Mbuf) : Option DatagramId :=
  match readHeaderFast packet 0 kEtherHdrSize with
  | none => none
  | some bytes =>
      let etherType := rteBeToCpu16 (EtherHdr.ofBytes bytes).etherType
      if etherType = kEtherTypeIpv4 then ipv4DatagramId packet
      else if etherType = kEtherTypeIpv6 then ipv6DatagramId packet
      else none

/-! ## Hashes of these -/

/-- The hash of a receive port and an Ethernet type. -/
def portHash (receivePort etherType : BitVec 16) : BitVec 32 :=
  mixHash (mixHash kFnvOffset (receivePort.setWidth 32)) (etherType.setWidth 32)

/-- The hash of the addresses and the protocol of an IPv4 packet. -/
def ipv4Hash (receivePort : BitVec 16) (source destination : BitVec 32) (protocol : BitVec 8) :
    BitVec 32 :=
  mixHash (mixHash (mixHash (portHash receivePort kEtherTypeIpv4) (rteBeToCpu32 source))
    (rteBeToCpu32 destination)) (protocol.setWidth 32)

/-- The hash of the protocol and the addresses of an IPv6 packet. -/
def ipv6Hash (receivePort : BitVec 16) (source destination : Ip6Address) (proto : BitVec 8) :
    BitVec 32 :=
  mixAddress (mixAddress (mixHash (portHash receivePort kEtherTypeIpv6) (proto.setWidth 32)) source)
    destination

/-- The hash of a 5-tuple.  It has the ports for IPv4 only. -/
def FlowTuple.hash (receivePort : BitVec 16) : FlowTuple → BitVec 32
  | .ipv4 source destination sourcePort destinationPort protocol =>
      mixHash (mixHash (ipv4Hash receivePort source destination (protocolToIpProto protocol))
        ((rteBeToCpu16 sourcePort).setWidth 32)) ((rteBeToCpu16 destinationPort).setWidth 32)
  | .ipv6 source destination _ _ protocol =>
      ipv6Hash receivePort source destination (protocolToIpProto protocol)

/-- The hash of a datagram. -/
def DatagramId.hash (receivePort : BitVec 16) : DatagramId → BitVec 32
  | .ipv4 source destination protocol packetId =>
      mixHash (ipv4Hash receivePort source destination protocol)
        ((rteBeToCpu16 packetId).setWidth 32)
  | .ipv6 source destination proto none => ipv6Hash receivePort source destination proto
  | .ipv6 source destination proto (some id) =>
      mixHash (ipv6Hash receivePort source destination proto) (rteBeToCpu32 id)

/-! ## What the first segment shows -/

/-- The size of the header that the parser reads for the ports. -/
def l4HdrSize : Protocol → Nat
  | .kTcp => kTcpHdrSize
  | .kUdp => kUdpHdrSize

/-- The length of the IPv4 header of a packet. -/
def ipv4HeaderLength (packet : Mbuf) : Nat :=
  (readHeaderFast packet kEtherHdrSize kIpv4HdrSize).elim 0 fun bytes ↦
    (Ipv4Hdr.ofBytes bytes).headerLen

/-- Where the headers end that the hash of a 5-tuple is taken from. -/
def FlowTuple.headersEnd (packet : Mbuf) : FlowTuple → Nat
  | .ipv4 _ _ _ _ protocol => kEtherHdrSize + ipv4HeaderLength packet + l4HdrSize protocol
  | .ipv6 .. => kEtherHdrSize + kIpv6HdrSize

/-- Where the headers end that the hash of a datagram is taken from. -/
def DatagramId.headersEnd : DatagramId → Nat
  | .ipv4 .. => kEtherHdrSize + kIpv4HdrSize
  | .ipv6 _ _ _ none => kEtherHdrSize + kIpv6HdrSize
  | .ipv6 _ _ _ (some _) => kEtherHdrSize + kIpv6HdrSize + kIpv6FragmentExtSize

variable {packet : Mbuf} {bytes : List (BitVec 8)} {offset size : Nat}

/-- A header in the first segment. -/
theorem read_shown (h : readHeaderFast packet offset size = some bytes)
    (hle : offset + size ≤ packet.dataLen) :
    bytes = (packet.head.data.drop offset).take size := by
  have hbytes : packet.bytes = packet.head.data ++ packet.next.flatMap Segment.data := rfl
  rw [readHeaderFast_eq, hbytes, window_append_left hle] at h
  exact (Option.some.inj h).symm

theorem etherHdr_take (bytes : List (BitVec 8)) :
    EtherHdr.ofBytes (bytes.take kEtherHdrSize) = EtherHdr.ofBytes bytes := by
  rw [EtherHdr.ofBytes, Ipv4Packet.load16_take (by decide)]
  rfl

theorem loadIp6_take {i : Nat} (hi : i + 16 ≤ size) :
    loadIp6 (bytes.take size) i = loadIp6 bytes i := by
  unfold loadIp6
  congr 1
  funext j
  exact Ipv4Packet.getD_take (by omega)

theorem ipv6Hdr_take (bytes : List (BitVec 8)) :
    Ipv6Hdr.ofBytes (bytes.take kIpv6HdrSize) = Ipv6Hdr.ofBytes bytes := by
  rw [Ipv6Hdr.ofBytes, Ipv4Packet.load16_take (by decide), Ipv4Packet.getD_take (by decide),
    loadIp6_take (by decide), loadIp6_take (by decide)]
  rfl

/-- What the metadata of an IPv4 packet says of it. -/
theorem flowTuple_parseIpv4Payload {ipv4HeaderLen : Nat} {ipv4Hdr : Ipv4Hdr}
    {metadata : PacketMetadata}
    (h : parseIpv4Payload packet ipv4HeaderLen ipv4Hdr = some metadata) :
    ∃ l4, readHeaderFast packet (kEtherHdrSize + ipv4HeaderLen) (l4HdrSize metadata.protocol) =
        some l4 ∧
      ipv4Hdr.nextProtoId = protocolToIpProto metadata.protocol ∧
      metadata.flowTuple = .ipv4 ipv4Hdr.srcAddr ipv4Hdr.dstAddr (load16 l4 0) (load16 l4 2)
        metadata.protocol := by
  rcases parseIpv4Payload_some h with ⟨hproto, parsed, hparse, -, h⟩ | ⟨hproto, hparse⟩
  · obtain ⟨l4, hread, rfl⟩ := Option.map_eq_some_iff.mp hparse
    obtain ⟨-, -, -, -, rfl⟩ := populateTcpMetadata_some h
    exact ⟨l4, hread, hproto, rfl⟩
  · obtain ⟨l4, hread, rfl⟩ := Option.map_eq_some_iff.mp hparse
    exact ⟨l4, hread, hproto, rfl⟩

/-- What the metadata of an IPv6 packet says of it. -/
theorem flowTuple_parseIpv6Payload {ipv6Hdr : Ipv6Hdr} {metadata : PacketMetadata}
    (h : parseIpv6Payload packet ipv6Hdr = some metadata) :
    ipv6Hdr.proto = protocolToIpProto metadata.protocol ∧ ∃ sourcePort destinationPort,
      metadata.flowTuple = .ipv6 ipv6Hdr.srcAddr ipv6Hdr.dstAddr sourcePort destinationPort
        metadata.protocol := by
  rcases parseIpv6Payload_some h with ⟨hproto, parsed, hparse, h⟩ | ⟨hproto, hparse⟩
  · obtain ⟨l4, -, rfl⟩ := Option.map_eq_some_iff.mp hparse
    obtain ⟨-, -, -, -, rfl⟩ := populateTcpMetadata_some h
    exact ⟨hproto, _, _, rfl⟩
  · obtain ⟨l4, -, rfl⟩ := Option.map_eq_some_iff.mp hparse
    exact ⟨hproto, _, _, rfl⟩

/-! ## The hash of what the first segment shows -/

section Shown

variable {receivePort : BitVec 16}

/-- The branch for an IPv4 header in the first segment. -/
theorem hashPacketFlow_ipv4
    (htype : rteBeToCpu16 (EtherHdr.ofBytes packet.head.data).etherType = kEtherTypeIpv4)
    (hlen : kEtherHdrSize + kIpv4HdrSize ≤ packet.dataLen)
    (hihl : ¬ (Ipv4Hdr.ofBytes (packet.head.data.drop kEtherHdrSize)).headerLen < kIpv4HdrSize) :
    hashPacketFlow packet receivePort =
      let ipv4 := packet.head.data.drop kEtherHdrSize
      let ipv4Hdr := Ipv4Hdr.ofBytes ipv4
      let hash := ipv4Hash receivePort ipv4Hdr.srcAddr ipv4Hdr.dstAddr ipv4Hdr.nextProtoId
      if isIpv4Fragmented ipv4Hdr then mixHash hash ((rteBeToCpu16 (load16 ipv4 4)).setWidth 32)
      else
        let l4Offset := kEtherHdrSize + ipv4Hdr.headerLen
        let l4 := packet.head.data.drop l4Offset
        let withPorts := mixHash (mixHash hash ((rteBeToCpu16 (load16 l4 0)).setWidth 32))
          ((rteBeToCpu16 (load16 l4 2)).setWidth 32)
        if packet.dataLen < l4Offset + kUdpHdrSize then hash
        else if ipv4Hdr.nextProtoId = kIpprotoTcp then
          if packet.dataLen < l4Offset + kTcpHdrSize then hash else withPorts
        else if ipv4Hdr.nextProtoId = kIpprotoUdp then withPorts
        else hash := by
  have hether : kEtherHdrSize ≤ packet.dataLen := (Nat.le_add_right _ _).trans hlen
  have hnot6 : ¬ kEtherTypeIpv4 = kEtherTypeIpv6 := by decide
  have hnot : ¬ (kEtherTypeIpv4 ≠ kEtherTypeIpv4 ∨
      packet.dataLen < kEtherHdrSize + kIpv4HdrSize) := by
    rw [not_or]
    exact ⟨fun hne ↦ hne rfl, Nat.not_lt.mpr hlen⟩
  unfold hashPacketFlow
  dsimp only
  rw [if_neg (Nat.not_lt.mpr hether), htype, if_neg hnot6, if_neg hnot, if_neg hihl]
  rfl

/-- The branch for an IPv6 header in the first segment. -/
theorem hashPacketFlow_ipv6
    (htype : rteBeToCpu16 (EtherHdr.ofBytes packet.head.data).etherType = kEtherTypeIpv6)
    (hlen : kEtherHdrSize + kIpv6HdrSize ≤ packet.dataLen) :
    hashPacketFlow packet receivePort =
      let ipv6Hdr := Ipv6Hdr.ofBytes (packet.head.data.drop kEtherHdrSize)
      let hash := ipv6Hash receivePort ipv6Hdr.srcAddr ipv6Hdr.dstAddr ipv6Hdr.proto
      let fragmentOffset := kEtherHdrSize + kIpv6HdrSize
      if ipv6Hdr.proto = kIpprotoFragment ∧
          fragmentOffset + kIpv6FragmentExtSize ≤ packet.dataLen then
        mixHash hash (rteBeToCpu32 (load32 (packet.head.data.drop fragmentOffset) 4))
      else hash := by
  have hether : kEtherHdrSize ≤ packet.dataLen := (Nat.le_add_right _ _).trans hlen
  unfold hashPacketFlow
  dsimp only
  rw [if_neg (Nat.not_lt.mpr hether), htype, if_pos rfl, if_neg (Nat.not_lt.mpr hlen)]
  rfl

/-- Where the first segment shows the Ethernet header, its type decides which header of layer 3
is looked at. -/
theorem of_etherType {α : Type} {ipv4 ipv6 : Option α} {x : α}
    (hether : kEtherHdrSize ≤ packet.dataLen)
    (h : (match readHeaderFast packet 0 kEtherHdrSize with
      | none => none
      | some bytes =>
          let etherType := rteBeToCpu16 (EtherHdr.ofBytes bytes).etherType
          if etherType = kEtherTypeIpv4 then ipv4
          else if etherType = kEtherTypeIpv6 then ipv6
          else none) = some x) :
    rteBeToCpu16 (EtherHdr.ofBytes packet.head.data).etherType = kEtherTypeIpv4 ∧
        ipv4 = some x ∨
      rteBeToCpu16 (EtherHdr.ofBytes packet.head.data).etherType = kEtherTypeIpv6 ∧
        ipv6 = some x := by
  cases hread : readHeaderFast packet 0 kEtherHdrSize with
  | none =>
      rw [hread] at h
      cases h
  | some bytes =>
      obtain rfl := read_shown hread (by omega)
      rw [hread] at h
      dsimp only at h
      rw [List.drop_zero, etherHdr_take] at h
      split at h
      · rename_i htype
        exact .inl ⟨htype, h⟩
      · split at h
        · rename_i htype
          exact .inr ⟨htype, h⟩
        · cases h

/-- An IPv4 packet with its headers in the first segment. -/
theorem hashPacketFlow_of_ipv4Tuple {t : FlowTuple}
    (htype : rteBeToCpu16 (EtherHdr.ofBytes packet.head.data).etherType = kEtherTypeIpv4)
    (h : ipv4Tuple packet = some t) (hshown : t.headersEnd packet ≤ packet.dataLen) :
    hashPacketFlow packet receivePort = t.hash receivePort := by
  unfold ipv4Tuple at h
  cases hread : readHeaderFast packet kEtherHdrSize kIpv4HdrSize with
  | none =>
      rw [hread] at h
      cases h
  | some bytes =>
      rw [hread] at h
      dsimp only at h
      split at h
      · cases h
      rename_i hplain
      obtain ⟨hihl, hwhole⟩ := not_or.mp hplain
      obtain ⟨metadata, hparse, rfl⟩ := Option.map_eq_some_iff.mp h
      obtain ⟨l4, hl4, hproto, htuple⟩ := flowTuple_parseIpv4Payload hparse
      rw [htuple, FlowTuple.headersEnd, ipv4HeaderLength, hread, Option.elim_some] at hshown
      have hlen : kEtherHdrSize + kIpv4HdrSize ≤ packet.dataLen := by omega
      obtain rfl := read_shown hread hlen
      obtain rfl := read_shown hl4 hshown
      rw [Ipv4Packet.ipv4Hdr_take] at hihl hwhole hproto htuple hshown
      have hports : 4 ≤ l4HdrSize metadata.protocol := by
        cases metadata.protocol <;> decide
      rw [Ipv4Packet.load16_take (by omega), Ipv4Packet.load16_take (by omega)] at htuple
      have hudp : ¬ packet.dataLen < kEtherHdrSize +
          (Ipv4Hdr.ofBytes (packet.head.data.drop kEtherHdrSize)).headerLen + kUdpHdrSize := by
        have hsize : kUdpHdrSize ≤ l4HdrSize metadata.protocol := by
          cases metadata.protocol <;> decide
        omega
      rw [hashPacketFlow_ipv4 htype hlen hihl]
      dsimp only
      rw [if_neg hwhole, if_neg hudp, htuple, hproto]
      cases hp : metadata.protocol with
      | kTcp =>
          rw [hp, l4HdrSize] at hshown
          rw [if_pos (show protocolToIpProto .kTcp = kIpprotoTcp from rfl),
            if_neg (Nat.not_lt.mpr hshown)]
          rfl
      | kUdp =>
          rw [if_neg (show protocolToIpProto .kUdp ≠ kIpprotoTcp by decide),
            if_pos (show protocolToIpProto .kUdp = kIpprotoUdp from rfl)]
          rfl

/-- An IPv6 packet with its headers in the first segment. -/
theorem hashPacketFlow_of_ipv6Tuple {t : FlowTuple}
    (htype : rteBeToCpu16 (EtherHdr.ofBytes packet.head.data).etherType = kEtherTypeIpv6)
    (h : ipv6Tuple packet = some t) (hshown : t.headersEnd packet ≤ packet.dataLen) :
    hashPacketFlow packet receivePort = t.hash receivePort := by
  unfold ipv6Tuple at h
  cases hread : readHeaderFast packet kEtherHdrSize kIpv6HdrSize with
  | none =>
      rw [hread] at h
      cases h
  | some bytes =>
      rw [hread] at h
      dsimp only at h
      obtain ⟨metadata, hparse, rfl⟩ := Option.map_eq_some_iff.mp h
      obtain ⟨hproto, sourcePort, destinationPort, htuple⟩ := flowTuple_parseIpv6Payload hparse
      rw [htuple, FlowTuple.headersEnd] at hshown
      obtain rfl := read_shown hread hshown
      rw [ipv6Hdr_take] at hproto htuple
      have hnot : ¬ (protocolToIpProto metadata.protocol = kIpprotoFragment ∧
          kEtherHdrSize + kIpv6HdrSize + kIpv6FragmentExtSize ≤ packet.dataLen) := by
        rintro ⟨hfragment, -⟩
        cases hp : metadata.protocol with
        | kTcp =>
            rw [hp] at hfragment
            exact absurd hfragment (by decide)
        | kUdp =>
            rw [hp] at hfragment
            exact absurd hfragment (by decide)
      rw [hashPacketFlow_ipv6 htype hshown]
      dsimp only
      rw [hproto, if_neg hnot, htuple]
      rfl

/-- The Ethernet header is in front of everything else. -/
theorem FlowTuple.etherHdrSize_le (t : FlowTuple) (packet : Mbuf) :
    kEtherHdrSize ≤ t.headersEnd packet := by
  cases t with
  | ipv4 => exact (Nat.le_add_right _ _).trans (Nat.le_add_right _ _)
  | ipv6 => exact Nat.le_add_right _ _

/-- **The hash of a packet whose first segment has its headers** is the hash of its 5-tuple. -/
theorem hashPacketFlow_of_flowTuple {t : FlowTuple} (h : flowTuple packet = some t)
    (hshown : t.headersEnd packet ≤ packet.dataLen) :
    hashPacketFlow packet receivePort = t.hash receivePort := by
  rcases of_etherType ((t.etherHdrSize_le packet).trans hshown) h with
    ⟨htype, h⟩ | ⟨htype, h⟩
  · exact hashPacketFlow_of_ipv4Tuple htype h hshown
  · exact hashPacketFlow_of_ipv6Tuple htype h hshown

/-- An IPv4 fragment with its header in the first segment. -/
theorem hashPacketFlow_of_ipv4DatagramId {id : DatagramId}
    (htype : rteBeToCpu16 (EtherHdr.ofBytes packet.head.data).etherType = kEtherTypeIpv4)
    (h : ipv4DatagramId packet = some id) (hshown : id.headersEnd ≤ packet.dataLen) :
    hashPacketFlow packet receivePort = id.hash receivePort := by
  unfold ipv4DatagramId at h
  cases hread : readHeaderFast packet kEtherHdrSize kIpv4HdrSize with
  | none =>
      rw [hread] at h
      cases h
  | some bytes =>
      rw [hread] at h
      dsimp only at h
      split at h
      · cases h
      rename_i hplain
      obtain ⟨hihl, hfragmented⟩ := not_or.mp hplain
      cases h
      rw [DatagramId.headersEnd] at hshown
      obtain rfl := read_shown hread hshown
      rw [Ipv4Packet.ipv4Hdr_take] at hihl hfragmented
      rw [hashPacketFlow_ipv4 htype hshown hihl]
      dsimp only
      rw [if_pos (not_not.mp hfragmented), Ipv4Packet.ipv4Hdr_take,
        Ipv4Packet.load16_take (by decide)]
      rfl

/-- An IPv6 packet with its headers in the first segment. -/
theorem hashPacketFlow_of_ipv6DatagramId {id : DatagramId}
    (htype : rteBeToCpu16 (EtherHdr.ofBytes packet.head.data).etherType = kEtherTypeIpv6)
    (h : ipv6DatagramId packet = some id) (hshown : id.headersEnd ≤ packet.dataLen) :
    hashPacketFlow packet receivePort = id.hash receivePort := by
  unfold ipv6DatagramId at h
  cases hread : readHeaderFast packet kEtherHdrSize kIpv6HdrSize with
  | none =>
      rw [hread] at h
      cases h
  | some bytes =>
      rw [hread] at h
      dsimp only at h
      split at h
      · rename_i hfragment
        obtain ⟨ext, hext, rfl⟩ := Option.map_eq_some_iff.mp h
        rw [DatagramId.headersEnd] at hshown
        have hlen : kEtherHdrSize + kIpv6HdrSize ≤ packet.dataLen := by omega
        obtain rfl := read_shown hread hlen
        obtain rfl := read_shown hext hshown
        rw [ipv6Hdr_take] at hfragment ⊢
        rw [hashPacketFlow_ipv6 htype hlen]
        dsimp only
        rw [if_pos ⟨hfragment, hshown⟩, Ipv4Packet.load32_take (by decide)]
        rfl
      · rename_i hplain
        cases h
        rw [DatagramId.headersEnd] at hshown
        obtain rfl := read_shown hread hshown
        rw [ipv6Hdr_take] at hplain ⊢
        rw [hashPacketFlow_ipv6 htype hshown]
        dsimp only
        rw [if_neg fun hboth ↦ hplain hboth.1]
        rfl

/-- The Ethernet header is in front of everything else. -/
theorem DatagramId.etherHdrSize_le (id : DatagramId) : kEtherHdrSize ≤ id.headersEnd := by
  rcases id with _ | ⟨_, _, _, _ | _⟩
  · exact Nat.le_add_right _ _
  · exact Nat.le_add_right _ _
  · exact (Nat.le_add_right _ _).trans (Nat.le_add_right _ _)

/-- **The hash of a packet whose first segment shows its datagram** is the hash of the datagram. -/
theorem hashPacketFlow_of_datagramId {id : DatagramId} (h : datagramId packet = some id)
    (hshown : id.headersEnd ≤ packet.dataLen) :
    hashPacketFlow packet receivePort = id.hash receivePort := by
  rcases of_etherType (id.etherHdrSize_le.trans hshown) h with ⟨htype, h⟩ | ⟨htype, h⟩
  · exact hashPacketFlow_of_ipv4DatagramId htype h hshown
  · exact hashPacketFlow_of_ipv6DatagramId htype h hshown

end Shown

/-! ## Whole packets, fragments and chains -/

variable {φ : Type}

section Parsed

variable {lib : FragLibrary φ} {packet' : Mbuf} {tsc : BitVec 64} {fragments fragments' : φ}
  {metadata : PacketMetadata}

theorem ipv4Tuple_of_parsed (h : parseIpv4 (some lib) packet tsc fragments =
    (.parsed metadata packet' false, fragments')) :
    packet' = packet ∧ ipv4Tuple packet = some metadata.flowTuple := by
  unfold parseIpv4 at h
  unfold ipv4Tuple
  cases hread : readHeaderFast packet kEtherHdrSize kIpv4HdrSize with
  | none =>
      rw [hread] at h
      cases h
  | some bytes =>
      rw [hread] at h
      dsimp only at h ⊢
      split at h
      · cases h
      rename_i hihl
      split at h
      · split at h
        · cases h
        split at h
        · cases h
        split at h
        · cases h
        split at h
        · cases h
        · obtain ⟨-, -, hreassembled⟩ := ParseResult.parsed_of_ofOption (Prod.mk.inj h).1
          cases hreassembled
      · rename_i hwhole
        obtain ⟨hfound, rfl, -⟩ := ParseResult.parsed_of_ofOption (Prod.mk.inj h).1
        rw [if_neg (not_or.mpr ⟨hihl, hwhole⟩), hfound]
        exact ⟨rfl, rfl⟩

theorem ipv6Tuple_of_parsed (h : parseIpv6 (some lib) packet tsc fragments =
    (.parsed metadata packet' false, fragments')) :
    packet' = packet ∧ ipv6Tuple packet = some metadata.flowTuple := by
  unfold parseIpv6 at h
  unfold ipv6Tuple
  cases hread : readHeaderFast packet kEtherHdrSize kIpv6HdrSize with
  | none =>
      rw [hread] at h
      cases h
  | some bytes =>
      rw [hread] at h
      dsimp only at h ⊢
      split at h
      · split at h
        · cases h
        split at h
        · cases h
        split at h
        · cases h
        split at h
        · cases h
        · obtain ⟨-, -, hreassembled⟩ := ParseResult.parsed_of_ofOption (Prod.mk.inj h).1
          cases hreassembled
      · obtain ⟨hfound, rfl, -⟩ := ParseResult.parsed_of_ofOption (Prod.mk.inj h).1
        rw [hfound]
        exact ⟨rfl, rfl⟩

/-- A packet that is parsed as it came has the 5-tuple of its metadata. -/
theorem flowTuple_of_parsed (h : parsePacketOwned (some lib) packet tsc fragments =
    (.parsed metadata packet' false, fragments')) :
    packet' = packet ∧ flowTuple packet = some metadata.flowTuple := by
  unfold parsePacketOwned at h
  unfold flowTuple
  cases hether : readHeaderFast packet 0 kEtherHdrSize with
  | none =>
      rw [hether] at h
      cases h
  | some ether =>
      rw [hether] at h
      dsimp only at h ⊢
      split at h
      · rename_i htype
        rw [if_pos htype]
        exact ipv4Tuple_of_parsed h
      rename_i hnot4
      rw [if_neg hnot4]
      split at h
      · rename_i htype
        rw [if_pos htype]
        exact ipv6Tuple_of_parsed h
      · cases h

end Parsed

/-- The fragments of an IPv4 datagram are of one datagram. -/
theorem datagramId_ipv4Fragment {d first f : Ipv4Packet} {rest : List Ipv4Packet}
    (hfrag : Ipv4Packet.Fragmentation d first rest) (hd : d.WellFormed) (hf : f ∈ first :: rest)
    (hm : f.In packet) :
    datagramId packet = some (.ipv4 (load32 (be32 d.source) 0) (load32 (be32 d.destination) 0)
      d.protocol (load16 (be16 d.packetId) 0)) := by
  have hvalid := hfrag.valid f hf
  have hshort : 0 + ((first :: rest).flatMap Ipv4Packet.payload).length < 2 ^ 16 := by
    have htotal := hd.valid.total
    rw [Ipv4Packet.totalLength] at htotal
    rw [hfrag.payload]
    omega
  have hseveral : 2 ≤ (first :: rest).length :=
    Nat.succ_le_succ (List.length_pos_iff.mpr hfrag.several)
  obtain ⟨hfragmented, -⟩ := Ipv4Packet.isFragment_of_consecutive hfrag.consecutive hfrag.valid
    (.inr hseveral) hshort f hf
  obtain ⟨hproto, hsource, hdestination, hid⟩ := hfrag.same f hf
  have hplain : ¬ (f.hdr.headerLen < kIpv4HdrSize ∨ ¬ isIpv4Fragmented f.hdr) := by
    rw [not_or, not_not]
    exact ⟨Ipv4Packet.not_headerLen_lt hvalid, hfragmented⟩
  unfold datagramId ipv4DatagramId
  rw [hm.readEther hvalid, hm.readIpv4 hvalid]
  dsimp only
  rw [if_pos (Ipv4Packet.etherType_etherHeader hvalid)]
  change (if f.hdr.headerLen < kIpv4HdrSize ∨ ¬ isIpv4Fragmented f.hdr then none else _) = _
  rw [if_neg hplain, ← hproto, ← hsource, ← hdestination, ← hid]
  rfl

/-- The fragments of an IPv6 datagram are of one datagram. -/
theorem datagramId_ipv6Fragment {d : Ipv6Packet} {fs : List Ipv6Packet}
    (hfrag : Ipv6Packet.Fragmentation d fs) :
    ∃ id, ∀ f ∈ fs, ∀ m, f.In m → datagramId m =
      some (.ipv6 (loadIp6 d.fixedHeader 8) (loadIp6 d.fixedHeader 24) kIpprotoFragment
        (some (load32 (be32 id) 0))) := by
  obtain ⟨id, hid⟩ := hfrag.sameId
  refine ⟨id, fun f hf m hm ↦ ?_⟩
  have hvalid := hfrag.valid f hf
  have hsome := Ipv6Packet.isSome_of_consecutive hfrag.consecutive f hf
  obtain ⟨ext, hext⟩ := Option.isSome_iff_exists.mp hsome
  obtain ⟨-, hsource, hdestination⟩ := hfrag.same f hf
  have hid' : load32 f.extension 4 = load32 (be32 id) 0 := by
    rw [Ipv6Packet.extension, hext, ← hid f hf ext hext]
    rfl
  have haddresses : ∀ i, 8 ≤ i → f.fixedHeader.getD i 0 = d.fixedHeader.getD i 0 := by
    intro i hi
    have hbehind : ∀ p : Ipv6Packet, p.fixedHeader.getD i 0 =
        (p.source.toList ++ p.destination.toList).getD (i - 8) 0 := by
      intro p
      rw [Ipv6Packet.fixedHeader, List.getD_eq_getElem?_getD, List.getElem?_append_right hi,
        ← List.getD_eq_getElem?_getD]
      rfl
    rw [hbehind f, hbehind d, hsource, hdestination]
  have hload : ∀ i, 8 ≤ i → loadIp6 f.fixedHeader i = loadIp6 d.fixedHeader i := by
    intro i hi
    unfold loadIp6
    congr 1
    funext j
    exact haddresses _ (by omega)
  unfold datagramId ipv6DatagramId
  rw [hm.readEther hvalid, hm.readIpv6 hvalid]
  dsimp only
  rw [Ipv6Packet.etherType_etherHeader hvalid, if_neg (by decide), if_pos rfl,
    Ipv6Packet.proto_fixedHeader, Ipv6Packet.nextHeader, if_pos hsome, if_pos rfl,
    hm.readExtension hvalid hsome,
    Option.map_some, hid', Ipv6Hdr.ofBytes, hload 8 le_rfl, hload 24 (by omega)]

/-- The 5-tuple of an IPv4 packet in an mbuf. -/
theorem flowTuple_ipv4Packet {p : Ipv4Packet} (h : p.Valid) (hm : packet.bytes = p.bytes)
    (hwhole : isIpv4Fragmented p.hdr = false) :
    flowTuple packet =
        (parseIpv4Payload packet p.headerLen p.hdr).map PacketMetadata.flowTuple ∧
      ipv4HeaderLength packet = p.headerLen := by
  have hin : p.In packet := ⟨[], by rw [hm, List.append_nil]⟩
  have hplain : ¬ (p.hdr.headerLen < kIpv4HdrSize ∨ isIpv4Fragmented p.hdr) := by
    rw [not_or, hwhole]
    exact ⟨Ipv4Packet.not_headerLen_lt h, Bool.false_ne_true⟩
  constructor
  · unfold flowTuple ipv4Tuple
    rw [hin.readEther h, hin.readIpv4 h]
    dsimp only
    rw [if_pos (Ipv4Packet.etherType_etherHeader h)]
    change (if p.hdr.headerLen < kIpv4HdrSize ∨ isIpv4Fragmented p.hdr then none else
      (parseIpv4Payload packet p.hdr.headerLen p.hdr).map PacketMetadata.flowTuple) = _
    rw [if_neg hplain, Ipv4Packet.headerLen_hdr h]
  · rw [ipv4HeaderLength, hin.readIpv4 h]
    exact Ipv4Packet.headerLen_hdr h

/-- A reassembled IPv4 datagram has the 5-tuple of the whole one.  When its first segment is the
first fragment, this segment has the headers just in case they fit into the first fragment. -/
theorem flowTuple_reassembled {d first : Ipv4Packet} {rest : List Ipv4Packet} {whole chain : Mbuf}
    {checksum : BitVec 16} (hd : d.WellFormed) (hfrag : Ipv4Packet.Fragmentation d first rest)
    (hwhole : whole.bytes = d.bytes) (hchain : chain.bytes = (d.reassembled first checksum).bytes)
    (hfirst : chain.dataLen = kEtherHdrSize + first.headerLen + first.payload.length) :
    ∃ source destination sourcePort destinationPort protocol,
      flowTuple whole = some (.ipv4 source destination sourcePort destinationPort protocol) ∧
        flowTuple chain = flowTuple whole ∧
        ((FlowTuple.ipv4 source destination sourcePort destinationPort protocol).headersEnd chain ≤
          chain.dataLen ↔ l4HdrSize protocol ≤ first.payload.length) := by
  have hvalid := Ipv4Packet.valid_reassembled hfrag checksum hd.valid
  have hplain : isIpv4Fragmented (d.reassembled first checksum).hdr = false := by
    simp only [isIpv4Fragmented, Ipv4Packet.fragment_hdr]
    change (decide ((0 : BitVec 16) &&& kIpv4HdrMfFlag ≠ 0) ||
      decide ((0 : BitVec 16) &&& kIpv4HdrOffsetMask ≠ 0)) = false
    decide
  obtain ⟨htuple, -⟩ := flowTuple_ipv4Packet hd.valid hwhole hd.whole
  obtain ⟨htuple', hlength⟩ := flowTuple_ipv4Packet hvalid hchain hplain
  have hheader : (d.reassembled first checksum).headerLen = kIpv4HdrSize + d.options.length := by
    rw [← hfrag.options]
    rfl
  have hsame : ∃ metadata, parseIpv4Payload whole d.headerLen d.hdr = some metadata ∧
      parseIpv4Payload chain (kIpv4HdrSize + d.options.length)
        (d.reassembled first checksum).hdr = some metadata := by
    rcases hd.l4 with ⟨hproto, hmin, hmax⟩ | ⟨hproto, hsize⟩
    · exact (Ipv4Packet.tcp_same_iff hfrag checksum hwhole hchain le_rfl hd.valid hproto hmin
        hmax).mpr d.spellsSame_self
    · exact (Ipv4Packet.udp_same_iff hfrag checksum hwhole hchain le_rfl hd.valid hproto
        hsize).mpr d.spellsSame_self
  obtain ⟨metadata, hparse, hparse'⟩ := hsame
  obtain ⟨l4, -, -, hfound⟩ := flowTuple_parseIpv4Payload hparse
  rw [hparse, Option.map_some, hfound] at htuple
  rw [hheader, hparse', Option.map_some, hfound] at htuple'
  refine ⟨_, _, _, _, _, htuple, htuple'.trans htuple.symm, ?_⟩
  have hfirstLen : (d.reassembled first checksum).headerLen = first.headerLen := rfl
  rw [FlowTuple.headersEnd, hlength, hfirst, hfirstLen]
  omega

end DpdkSpi
