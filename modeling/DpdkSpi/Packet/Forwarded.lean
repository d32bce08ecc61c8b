import DpdkSpi.Lib.Memory
import DpdkSpi.Packet.Layer4

/-!
# What forwarding changes

`UpdateL3ForwardHeaders` writes to fixed offsets from the data of the first mbuf, whatever the
parser found in the packet and however long that data is.  Behind the data it reads and writes the
rest of the buffer, which is not part of the frame.  So the functions are stated here over the
memory of the buffer (`updateL3ForwardHeadersRoom`); when the IPv4 header is in the first mbuf, they
are those on its data (`updateL3ForwardHeadersRoom_eq`).
-/

namespace DpdkSpi

open Lib

/-! ## The buffer of an mbuf -/

/-- The memory from the data of the first mbuf on: the data, and what is behind it. -/
def Mbuf.room (m : Mbuf) (beyond : Nat → BitVec 8) : Nat → BitVec 8 := fun i ↦
  m.head.data.getD i (beyond i)

/-- The packet when that memory is as given. -/
def Mbuf.withRoom (m : Mbuf) (room : Nat → BitVec 8) : Mbuf :=
  { m with head := { m.head with data := (List.range m.dataLen).map room } }

/-- Some bytes of a memory. -/
def roomBytes (room : Nat → BitVec 8) (offset size : Nat) : List (BitVec 8) :=
  (List.range size).map fun i ↦ room (offset + i)

/-- The IPv4 header behind the Ethernet header. -/
def roomIpv4Hdr (room : Nat → BitVec 8) : Ipv4Hdr :=
  .ofBytes (roomBytes room kEtherHdrSize kIpv4HdrSize)

/-- The IPv4 header with its options. -/
def roomIpv4HeaderBytes (room : Nat → BitVec 8) : List (BitVec 8) :=
  roomBytes room kEtherHdrSize (roomIpv4Hdr room).headerLen

theorem versionIhl_roomIpv4Hdr (room : Nat → BitVec 8) :
    (roomIpv4Hdr room).versionIhl = room kEtherHdrSize := rfl

theorem nextProtoId_roomIpv4Hdr (room : Nat → BitVec 8) :
    (roomIpv4Hdr room).nextProtoId = room (kEtherHdrSize + 9) := rfl

namespace Mbuf

variable {m : Mbuf} {room beyond : Nat → BitVec 8} {i : Nat}

theorem length_data_withRoom (m : Mbuf) (room : Nat → BitVec 8) :
    (m.withRoom room).head.data.length = m.dataLen := by
  show ((List.range m.dataLen).map room).length = _
  rw [List.length_map, List.length_range]

theorem dataLen_withRoom (m : Mbuf) (room : Nat → BitVec 8) :
    (m.withRoom room).dataLen = m.dataLen := length_data_withRoom m room

theorem bytes_eq (m : Mbuf) : m.bytes = m.head.data ++ m.next.flatMap Segment.data :=
  List.flatMap_cons

/-- The bytes of the data are in the memory. -/
theorem getElem?_bytes_of_lt (h : i < m.dataLen) : m.bytes[i]? = some (m.room beyond i) := by
  rw [bytes_eq, List.getElem?_append_left h, room, List.getD_eq_getElem?_getD,
    List.getElem?_eq_getElem h]
  rfl

theorem room_of_lt (h : i < m.dataLen) (default : BitVec 8) :
    m.room beyond i = m.bytes.getD i default := by
  rw [List.getD_eq_getElem?_getD, getElem?_bytes_of_lt h, Option.getD_some]

/-- A byte of the data is the one in the memory. -/
theorem getElem?_bytes_withRoom_of_lt (h : i < m.dataLen) :
    (m.withRoom room).bytes[i]? = some (room i) := by
  have hlen : i < (m.withRoom room).head.data.length := by
    rw [length_data_withRoom]
    exact h
  rw [bytes_eq, List.getElem?_append_left hlen]
  show ((List.range m.dataLen).map room)[i]? = _
  rw [List.getElem?_map, List.getElem?_range h]
  rfl

/-- A byte of another segment is as it was. -/
theorem getElem?_bytes_withRoom_of_le (h : m.dataLen ≤ i) :
    (m.withRoom room).bytes[i]? = m.bytes[i]? := by
  have hlen : (m.withRoom room).head.data.length = m.head.data.length := length_data_withRoom m room
  rw [bytes_eq, bytes_eq, List.getElem?_append_right (hlen ▸ h), List.getElem?_append_right h, hlen]
  rfl

theorem length_bytes_withRoom (m : Mbuf) (room : Nat → BitVec 8) :
    (m.withRoom room).bytes.length = m.bytes.length := by
  rw [bytes_eq, bytes_eq, List.length_append, List.length_append]
  exact congrArg (· + (m.next.flatMap Segment.data).length) (dataLen_withRoom m room)

end Mbuf

/-! ## Rewriting in the buffer -/

/-- Clear a checksum of layer 4, compute it and store it. -/
def storeL4CksumRoom (ck : Cksums) (packet : Mbuf) (room : Nat → BitVec 8) (l4Offset offset : Nat) :
    Nat → BitVec 8 :=
  let room := store room (l4Offset + offset) [0, 0]
  store room (l4Offset + offset) (storeWord
    (ck.rteIpv4UdptcpCksumMbuf (packet.withRoom room) (roomIpv4HeaderBytes room) l4Offset))

/-- `RecomputeL4Checksum`, on the memory of the first mbuf. -/
def recomputeL4ChecksumRoom (ck : Cksums) (packet : Mbuf) (room : Nat → BitVec 8) :
    Bool × (Nat → BitVec 8) :=
  let ipv4Hdr := roomIpv4Hdr room
  let l4Offset := kEtherHdrSize + ipv4Hdr.headerLen
  if ipv4Hdr.nextProtoId = kIpprotoTcp then
    if packet.dataLen < l4Offset + kTcpHdrSize then (false, room)
    else (true, storeL4CksumRoom ck packet room l4Offset 16)
  else if ipv4Hdr.nextProtoId = kIpprotoUdp then
    if packet.dataLen < l4Offset + kUdpHdrSize then (false, room)
    else (true, storeL4CksumRoom ck packet room l4Offset 6)
  else (true, room)

/-- `UpdateL3ForwardHeaders`, on the memory of the first mbuf up to the checksum of layer 4. -/
def rewriteIpv4Room (ck : Cksums) (srcAddr dstAddr : EtherAddr) (room : Nat → BitVec 8) :
    Bool × (Nat → BitVec 8) :=
  let room := store (store room 0 (etherBytes dstAddr)) 6 (etherBytes srcAddr)
  let timeToLive := room (kEtherHdrSize + 8)
  if timeToLive ≤ 1 then (false, room)
  else
    let room := store room (kEtherHdrSize + 8) [timeToLive - 1]
    let room := store room (kEtherHdrSize + 10) [0, 0]
    (true, store room (kEtherHdrSize + 10) (storeWord (ck.rteIpv4Cksum (roomIpv4HeaderBytes room))))

/-- `UpdateL3ForwardHeaders`, with the contents of the buffer behind the data of the first mbuf. -/
def updateL3ForwardHeadersRoom (ck : Cksums) (beyond : Nat → BitVec 8) (packet : Mbuf)
    (srcAddr dstAddr : EtherAddr) : Bool × Mbuf :=
  match rewriteIpv4Room ck srcAddr dstAddr (packet.room beyond) with
  | (false, room) => (false, packet.withRoom room)
  | (true, room) =>
      let recomputed := recomputeL4ChecksumRoom ck packet room
      (recomputed.1, packet.withRoom recomputed.2)

/-! ## Where the checksum of layer 4 is -/

/-- The offset of the checksum of layer 4 in a frame with an IPv4 header. -/
def Ipv4Hdr.l4CksumOffset (hdr : Ipv4Hdr) : Option Nat :=
  if hdr.nextProtoId = kIpprotoTcp then some (kEtherHdrSize + hdr.headerLen + 16)
  else if hdr.nextProtoId = kIpprotoUdp then some (kEtherHdrSize + hdr.headerLen + 6)
  else none

/-- The bytes of a frame that forwarding may change: the Ethernet addresses, the TTL, the checksum
of the IPv4 header and the checksum of TCP or UDP. -/
def Ipv4Hdr.mutableBytes (hdr : Ipv4Hdr) : Set Nat :=
  {i | i < 12 ∨ i = kEtherHdrSize + 8 ∨ i ∈ written (kEtherHdrSize + 10) 2 ∨
    ∃ offset, hdr.l4CksumOffset = some offset ∧ i ∈ written offset 2}

/-- The IPv4 header of a packet, behind its Ethernet header. -/
def Mbuf.ipv4Hdr (m : Mbuf) : Ipv4Hdr := .ofBytes (m.bytes.drop kEtherHdrSize)

/-- What a successful rewriting does to the memory of the first mbuf. -/
structure Rewritten (dataLen : Nat) (room room' : Nat → BitVec 8) : Prop where
  ttl_gt : 1 < room (kEtherHdrSize + 8)
  ttl : room' (kEtherHdrSize + 8) = room (kEtherHdrSize + 8) - 1
  rest : AgreeOutside (roomIpv4Hdr room).mutableBytes room room'
  l4_fits : ∀ offset, (roomIpv4Hdr room).l4CksumOffset = some offset → offset + 2 ≤ dataLen

theorem l4CksumOffset_congr {room room' : Nat → BitVec 8}
    (hihl : room' kEtherHdrSize = room kEtherHdrSize)
    (hproto : room' (kEtherHdrSize + 9) = room (kEtherHdrSize + 9)) :
    (roomIpv4Hdr room').l4CksumOffset = (roomIpv4Hdr room).l4CksumOffset := by
  unfold Ipv4Hdr.l4CksumOffset Ipv4Hdr.headerLen
  rw [nextProtoId_roomIpv4Hdr, nextProtoId_roomIpv4Hdr, versionIhl_roomIpv4Hdr,
    versionIhl_roomIpv4Hdr, hihl, hproto]

/-- The checksum of layer 4 is not where the TTL is, not even for a header that is too short. -/
theorem Ipv4Hdr.ttl_notMem_l4Cksum {hdr : Ipv4Hdr} {offset : Nat}
    (h : hdr.l4CksumOffset = some offset) : kEtherHdrSize + 8 ∉ written offset 2 := by
  unfold Ipv4Hdr.l4CksumOffset Ipv4Hdr.headerLen kEtherHdrSize at h
  rw [mem_written, kEtherHdrSize]
  split at h
  · obtain rfl := Option.some.inj h
    omega
  split at h
  · obtain rfl := Option.some.inj h
    omega
  · cases h

theorem agreeOutside_storeL4CksumRoom (ck : Cksums) (packet : Mbuf) (room : Nat → BitVec 8)
    (l4Offset offset : Nat) :
    AgreeOutside (written (l4Offset + offset) 2) room
      (storeL4CksumRoom ck packet room l4Offset offset) := by
  unfold storeL4CksumRoom
  refine ((AgreeOutside.refl room).store ?_).store ?_
  · exact subset_rfl
  · exact subset_rfl

/-- A checksum is stored when the header that holds it is in the data. -/
theorem storeL4CksumRoom_spec {ck : Cksums} {packet : Mbuf} {room room' : Nat → BitVec 8}
    {l4Offset offset size : Nat} (hsize : offset + 2 ≤ size)
    (h : (if packet.dataLen < l4Offset + size then (false, room)
      else (true, storeL4CksumRoom ck packet room l4Offset offset)) = (true, room')) :
    AgreeOutside (written (l4Offset + offset) 2) room room' ∧
      l4Offset + offset + 2 ≤ packet.dataLen := by
  split at h
  · cases h
  · rename_i hfits
    obtain ⟨-, rfl⟩ := Prod.mk.inj h
    exact ⟨agreeOutside_storeL4CksumRoom ck packet room l4Offset offset, by omega⟩

/-- `RecomputeL4Checksum` writes the checksum of layer 4, which is in the data. -/
theorem recomputeL4ChecksumRoom_spec {ck : Cksums} {packet : Mbuf} {room room' : Nat → BitVec 8}
    (h : recomputeL4ChecksumRoom ck packet room = (true, room')) :
    AgreeOutside {i | ∃ offset, (roomIpv4Hdr room).l4CksumOffset = some offset ∧
        i ∈ written offset 2} room room' ∧
      ∀ offset, (roomIpv4Hdr room).l4CksumOffset = some offset → offset + 2 ≤ packet.dataLen := by
  unfold recomputeL4ChecksumRoom at h
  unfold Ipv4Hdr.l4CksumOffset
  dsimp only at h
  by_cases htcp : (roomIpv4Hdr room).nextProtoId = kIpprotoTcp
  · rw [if_pos htcp] at h
    simp only [if_pos htcp]
    obtain ⟨hagree, hfits⟩ := storeL4CksumRoom_spec (by decide) h
    refine ⟨hagree.mono fun i hi ↦ ⟨_, rfl, hi⟩, ?_⟩
    rintro offset ⟨⟩
    exact hfits
  rw [if_neg htcp] at h
  simp only [if_neg htcp]
  by_cases hudp : (roomIpv4Hdr room).nextProtoId = kIpprotoUdp
  · rw [if_pos hudp] at h
    simp only [if_pos hudp]
    obtain ⟨hagree, hfits⟩ := storeL4CksumRoom_spec (by decide) h
    refine ⟨hagree.mono fun i hi ↦ ⟨_, rfl, hi⟩, ?_⟩
    rintro offset ⟨⟩
    exact hfits
  · rw [if_neg hudp] at h
    simp only [if_neg hudp]
    obtain ⟨-, rfl⟩ := Prod.mk.inj h
    refine ⟨.refl room, fun offset hnone ↦ ?_⟩
    cases hnone

/-- The part before layer 4 writes the addresses, the TTL and the checksum of the header. -/
theorem rewriteIpv4Room_spec {ck : Cksums} {srcAddr dstAddr : EtherAddr}
    {room room' : Nat → BitVec 8} (h : rewriteIpv4Room ck srcAddr dstAddr room = (true, room')) :
    1 < room (kEtherHdrSize + 8) ∧ room' (kEtherHdrSize + 8) = room (kEtherHdrSize + 8) - 1 ∧
      AgreeOutside {i | i < 12 ∨ i = kEtherHdrSize + 8 ∨ i ∈ written (kEtherHdrSize + 10) 2}
        room room' := by
  have hmacs : AgreeOutside {i | i < 12} room
      (store (store room 0 (etherBytes dstAddr)) 6 (etherBytes srcAddr)) := by
    refine ((AgreeOutside.refl room).store fun i hi ↦ ?_).store fun i hi ↦ ?_
    · exact hi.2.trans (show 0 + 6 < 12 by decide)
    · exact hi.2
  have httl := hmacs (kEtherHdrSize + 8) (show ¬ kEtherHdrSize + 8 < 12 by decide)
  unfold rewriteIpv4Room at h
  dsimp only at h
  rw [httl] at h
  generalize store (store room 0 (etherBytes dstAddr)) 6 (etherBytes srcAddr) = addressed at *
  split at h
  · cases h
  · rename_i hgt
    obtain ⟨-, rfl⟩ := Prod.mk.inj h
    refine ⟨BitVec.not_le.mp hgt, ?_, ?_⟩
    · have hcksum : kEtherHdrSize + 8 ∉ written (kEtherHdrSize + 10) 2 := by
        rw [mem_written]
        decide
      rw [store_of_notMem hcksum, store_of_notMem hcksum, store_head]
    · refine ((((hmacs.mono fun i hi ↦ .inl hi).store fun i hi ↦ ?_).store fun i hi ↦ ?_).store
        fun i hi ↦ ?_)
      · exact .inr (.inl (Nat.le_antisymm (Nat.le_of_lt_succ hi.2) hi.1))
      · exact .inr (.inr hi)
      · exact .inr (.inr hi)

theorem updateL3ForwardHeadersRoom_rewritten {ck : Cksums} {beyond : Nat → BitVec 8}
    {packet forwarded : Mbuf} {srcAddr dstAddr : EtherAddr}
    (h : updateL3ForwardHeadersRoom ck beyond packet srcAddr dstAddr = (true, forwarded)) :
    ∃ room, forwarded = packet.withRoom room ∧
      Rewritten packet.dataLen (packet.room beyond) room := by
  unfold updateL3ForwardHeadersRoom at h
  cases hrewrite : rewriteIpv4Room ck srcAddr dstAddr (packet.room beyond) with
  | mk ok room =>
      rw [hrewrite] at h
      cases ok with
      | false => cases (Prod.mk.inj h).1
      | true =>
          obtain ⟨hgt, httl, hoption⟩ := rewriteIpv4Room_spec hrewrite
          obtain ⟨hok, rfl⟩ := Prod.mk.inj h
          obtain ⟨hl4, hfits⟩ := recomputeL4ChecksumRoom_spec (Prod.ext hok rfl :
            recomputeL4ChecksumRoom ck packet room = (true, _))
          have hoffset : (roomIpv4Hdr room).l4CksumOffset =
              (roomIpv4Hdr (packet.room beyond)).l4CksumOffset := by
            refine l4CksumOffset_congr (hoption _ ?_) (hoption _ ?_)
            · simp [kEtherHdrSize]
            · simp [kEtherHdrSize]
          rw [hoffset] at hl4 hfits
          refine ⟨_, rfl, hgt, ?_, ?_, hfits⟩
          · rw [← httl]
            refine hl4 _ ?_
            rintro ⟨offset, hsome, hmem⟩
            exact Ipv4Hdr.ttl_notMem_l4Cksum hsome hmem
          · refine (hoption.mono fun i hi ↦ ?_).trans (hl4.mono fun i hi ↦ .inr (.inr (.inr hi)))
            exact hi.imp_right (Or.imp_right .inl)

/-! ## What forwarding should do -/

/-- Forwarding does to a frame what it should: its TTL was at least two and is one less, and apart
from the addresses and the checksums nothing else is changed. -/
structure HopTaken (packet forwarded : Mbuf) : Prop where
  ttl : ∃ ttl, packet.bytes[kEtherHdrSize + 8]? = some ttl ∧ 2 ≤ ttl ∧
    forwarded.bytes[kEtherHdrSize + 8]? = some (ttl - 1)
  length : forwarded.bytes.length = packet.bytes.length
  rest : ∀ i, i ∉ packet.ipv4Hdr.mutableBytes → forwarded.bytes[i]? = packet.bytes[i]?

namespace Mbuf

theorem versionIhl_ipv4Hdr (m : Mbuf) : m.ipv4Hdr.versionIhl = m.bytes.getD kEtherHdrSize 0 := by
  show (m.bytes.drop kEtherHdrSize).getD 0 0 = _
  rw [List.getD_eq_getElem?_getD, List.getElem?_drop, List.getD_eq_getElem?_getD, Nat.add_zero]

theorem nextProtoId_ipv4Hdr (m : Mbuf) :
    m.ipv4Hdr.nextProtoId = m.bytes.getD (kEtherHdrSize + 9) 0 := by
  show (m.bytes.drop kEtherHdrSize).getD 9 0 = _
  rw [List.getD_eq_getElem?_getD, List.getElem?_drop, List.getD_eq_getElem?_getD]

theorem headerLen_ipv4Hdr (m : Mbuf) : m.ipv4Hdr.headerLen = parsedHeaderLen m .kIpv4 := by
  rw [Ipv4Hdr.headerLen, versionIhl_ipv4Hdr, parsedHeaderLen]

end Mbuf

theorem Ipv4Hdr.le_of_l4CksumOffset {hdr : Ipv4Hdr} {offset : Nat}
    (h : hdr.l4CksumOffset = some offset) : kEtherHdrSize + hdr.headerLen + 6 ≤ offset := by
  unfold l4CksumOffset at h
  split at h
  · obtain rfl := Option.some.inj h
    omega
  split at h
  · obtain rfl := Option.some.inj h
    exact le_rfl
  · cases h

/-- The checksum of layer 4 that is rewritten is the one of the frame: when it is in the data of
the first mbuf, so is what tells where it is. -/
theorem l4CksumOffset_of_room {m : Mbuf} {beyond : Nat → BitVec 8}
    (hheader : kIpv4HdrSize ≤ parsedHeaderLen m .kIpv4) (hdata : kEtherHdrSize + 8 < m.dataLen)
    {offset : Nat} (h : (roomIpv4Hdr (m.room beyond)).l4CksumOffset = some offset)
    (hfits : offset + 2 ≤ m.dataLen) : m.ipv4Hdr.l4CksumOffset = some offset := by
  have hihl : m.ipv4Hdr.versionIhl = (roomIpv4Hdr (m.room beyond)).versionIhl := by
    rw [Mbuf.versionIhl_ipv4Hdr, versionIhl_roomIpv4Hdr]
    exact (Mbuf.room_of_lt ((Nat.le_add_right _ 8).trans_lt hdata) 0).symm
  have hlen : m.ipv4Hdr.headerLen = (roomIpv4Hdr (m.room beyond)).headerLen :=
    congrArg (fun ihl ↦ (ihl &&& 0x0F).toNat * 4) hihl
  have hoffset := Ipv4Hdr.le_of_l4CksumOffset h
  rw [← hlen, Mbuf.headerLen_ipv4Hdr] at hoffset
  have hproto : m.ipv4Hdr.nextProtoId = (roomIpv4Hdr (m.room beyond)).nextProtoId := by
    rw [Mbuf.nextProtoId_ipv4Hdr, nextProtoId_roomIpv4Hdr]
    refine (Mbuf.room_of_lt ?_ 0).symm
    simp only [kIpv4HdrSize, kEtherHdrSize] at *
    omega
  rw [← h]
  unfold Ipv4Hdr.l4CksumOffset
  rw [hproto, hlen]

/-- A rewriting is right exactly when the TTL is in the data of the first mbuf. -/
theorem Rewritten.hopTaken_iff {m : Mbuf} {beyond room : Nat → BitVec 8}
    (h : Rewritten m.dataLen (m.room beyond) room)
    (hheader : kIpv4HdrSize ≤ parsedHeaderLen m .kIpv4) :
    HopTaken m (m.withRoom room) ↔ kEtherHdrSize + 8 < m.dataLen := by
  constructor
  · intro hright
    obtain ⟨ttl, hold, hle, hnew⟩ := hright.ttl
    by_contra hdata
    rw [Mbuf.getElem?_bytes_withRoom_of_le (Nat.le_of_not_lt hdata), hold] at hnew
    have hsame := Option.some.inj hnew
    bv_omega
  · intro hdata
    have hold : m.bytes[kEtherHdrSize + 8]? = some (m.room beyond (kEtherHdrSize + 8)) :=
      Mbuf.getElem?_bytes_of_lt hdata
    refine ⟨⟨_, hold, ?_, ?_⟩, Mbuf.length_bytes_withRoom m room, ?_⟩
    · have hgt := h.ttl_gt
      bv_omega
    · rw [Mbuf.getElem?_bytes_withRoom_of_lt hdata, h.ttl]
    · intro i hi
      by_cases hlt : i < m.dataLen
      · have hsame : m.bytes[i]? = some (m.room beyond i) := Mbuf.getElem?_bytes_of_lt hlt
        rw [Mbuf.getElem?_bytes_withRoom_of_lt hlt, hsame]
        refine congrArg some (h.rest i fun hroom ↦ hi ?_)
        rcases hroom with hmac | httl | hcksum | ⟨offset, hsome, hmem⟩
        · exact .inl hmac
        · exact .inr (.inl httl)
        · exact .inr (.inr (.inl hcksum))
        · exact .inr (.inr (.inr ⟨offset,
            l4CksumOffset_of_room hheader hdata hsome (h.l4_fits offset hsome), hmem⟩))
      · exact Mbuf.getElem?_bytes_withRoom_of_le (Nat.le_of_not_lt hlt)

/-! ## A header in the first mbuf -/

namespace Mbuf

variable {m : Mbuf} {room : Nat → BitVec 8}

theorem withRoom_room (m : Mbuf) (beyond : Nat → BitVec 8) : m.withRoom (m.room beyond) = m := by
  have hdata : (List.range m.dataLen).map (m.room beyond) = m.head.data := by
    refine List.ext_getElem ?_ fun i h h' ↦ ?_
    · rw [List.length_map, List.length_range]
      rfl
    · rw [List.getElem_map, List.getElem_range, room, List.getD_eq_getElem?_getD,
        List.getElem?_eq_getElem h', Option.getD_some]
  rw [withRoom, hdata]

/-- A store into the data is a store into the memory. -/
theorem store_withRoom (m : Mbuf) (room : Nat → BitVec 8) (offset : Nat)
    (bytes : List (BitVec 8)) :
    (m.withRoom room).store offset bytes = m.withRoom (Lib.store room offset bytes) := by
  have hdata : ((List.range m.dataLen).map room).mapIdx (fun i b ↦
      if offset ≤ i then bytes.getD (i - offset) b else b) =
        (List.range m.dataLen).map (Lib.store room offset bytes) := by
    refine List.ext_getElem ?_ fun i h h' ↦ ?_
    · rw [List.length_mapIdx, List.length_map, List.length_map]
    · rw [List.getElem_mapIdx, List.getElem_map, List.getElem_map, List.getElem_range, Lib.store]
  rw [withRoom, withRoom, Mbuf.store, hdata]

/-- What is read within the data is read in the memory. -/
theorem window_withRoom {offset size : Nat} (h : offset + size ≤ m.dataLen) :
    ((m.withRoom room).head.data.drop offset).take size = roomBytes room offset size := by
  show (((List.range m.dataLen).map room).drop offset).take size = _
  refine List.ext_getElem ?_ fun i hi hi' ↦ ?_
  · rw [List.length_take, List.length_drop, List.length_map, List.length_range, roomBytes,
      List.length_map, List.length_range]
    omega
  · simp only [roomBytes, List.getElem_take, List.getElem_drop, List.getElem_map,
      List.getElem_range]

theorem getD_data_withRoom {i : Nat} (h : i < m.dataLen) (default : BitVec 8) :
    (m.withRoom room).head.data.getD i default = room i := by
  show ((List.range m.dataLen).map room).getD i default = _
  rw [List.getD_eq_getElem?_getD, List.getElem?_map, List.getElem?_range h]
  rfl

/-- The data of the first mbuf is all that a byte in it depends on. -/
theorem getD_bytes_of_head {m' : Mbuf} (hhead : m'.head = (m.withRoom room).head) {i : Nat}
    (h : i < m.dataLen) (default : BitVec 8) : m'.bytes.getD i default = room i := by
  have hlt : i < (m.withRoom room).head.data.length := by
    rw [length_data_withRoom]
    exact h
  rw [bytes_eq, hhead, List.getD_eq_getElem?_getD, List.getElem?_append_left hlt,
    ← List.getD_eq_getElem?_getD, getD_data_withRoom h]

theorem ofBytes_withRoom (h : kEtherHdrSize + kIpv4HdrSize ≤ m.dataLen) :
    Ipv4Hdr.ofBytes ((m.withRoom room).head.data.drop kEtherHdrSize) = roomIpv4Hdr room := by
  rw [roomIpv4Hdr, ← window_withRoom (m := m) h, Ipv4Packet.ipv4Hdr_take]

theorem ipv4HeaderBytes_withRoom (hfixed : kEtherHdrSize + kIpv4HdrSize ≤ m.dataLen)
    (hheader : kEtherHdrSize + (roomIpv4Hdr room).headerLen ≤ m.dataLen) :
    ipv4HeaderBytes (m.withRoom room) = roomIpv4HeaderBytes room := by
  unfold ipv4HeaderBytes
  dsimp only
  rw [ofBytes_withRoom hfixed, window_withRoom hheader]
  rfl

end Mbuf

theorem headerLen_store {room : Nat → BitVec 8} {offset : Nat} {values : List (BitVec 8)}
    (h : kEtherHdrSize ∉ written offset values.length) :
    (roomIpv4Hdr (store room offset values)).headerLen = (roomIpv4Hdr room).headerLen := by
  rw [Ipv4Hdr.headerLen, Ipv4Hdr.headerLen, versionIhl_roomIpv4Hdr, versionIhl_roomIpv4Hdr,
    store_of_notMem h]

section Link

variable {m : Mbuf} {room : Nat → BitVec 8}
  (hfixed : kEtherHdrSize + kIpv4HdrSize ≤ m.dataLen)
  (hheader : kEtherHdrSize + (roomIpv4Hdr room).headerLen ≤ m.dataLen)

include hfixed hheader

theorem storeL4Cksum_withRoom (ck : Cksums) {l4Offset offset : Nat}
    (hl4 : kEtherHdrSize ≤ l4Offset) (hoffset : 0 < offset) :
    storeL4Cksum ck (m.withRoom room) l4Offset offset =
      m.withRoom (storeL4CksumRoom ck m room l4Offset offset) := by
  have hihl : (roomIpv4Hdr (store room (l4Offset + offset) [0, 0])).headerLen =
      (roomIpv4Hdr room).headerLen :=
    headerLen_store fun h ↦
      absurd (mem_written.mp h).1 (Nat.not_le.mpr (Nat.add_lt_add_of_le_of_lt hl4 hoffset))
  unfold storeL4Cksum storeL4CksumRoom
  dsimp only
  rw [Mbuf.store_withRoom, Mbuf.store_withRoom,
    Mbuf.ipv4HeaderBytes_withRoom hfixed (hihl ▸ hheader)]

theorem recomputeL4Checksum_withRoom (ck : Cksums) :
    recomputeL4Checksum ck (m.withRoom room) =
      ((recomputeL4ChecksumRoom ck m room).1,
        m.withRoom (recomputeL4ChecksumRoom ck m room).2) := by
  unfold recomputeL4Checksum recomputeL4ChecksumRoom
  dsimp only
  rw [Mbuf.ofBytes_withRoom hfixed, Mbuf.dataLen_withRoom]
  split
  · split
    · rfl
    · rw [storeL4Cksum_withRoom hfixed hheader ck (Nat.le_add_right _ _) (by decide)]
  split
  · split
    · rfl
    · rw [storeL4Cksum_withRoom hfixed hheader ck (Nat.le_add_right _ _) (by decide)]
  · rfl

theorem updateL3ForwardHeaders_withRoom (ck : Cksums) (srcAddr dstAddr : EtherAddr) :
    updateL3ForwardHeaders ck (m.withRoom room) srcAddr dstAddr =
      match rewriteIpv4Room ck srcAddr dstAddr room with
      | (false, room) => (false, m.withRoom room)
      | (true, room) =>
          ((recomputeL4ChecksumRoom ck m room).1, m.withRoom (recomputeL4ChecksumRoom ck m room).2)
    := by
  have hmacs : (roomIpv4Hdr (store (store room 0 (etherBytes dstAddr)) 6
      (etherBytes srcAddr))).headerLen = (roomIpv4Hdr room).headerLen := by
    rw [headerLen_store fun h ↦ absurd h.2 (show ¬ kEtherHdrSize < 6 + 6 by decide),
      headerLen_store fun h ↦ absurd h.2 (show ¬ kEtherHdrSize < 0 + 6 by decide)]
  have httl : kEtherHdrSize + 8 < m.dataLen := Nat.lt_of_lt_of_le (by decide) hfixed
  unfold updateL3ForwardHeaders rewriteIpv4Room
  dsimp only
  rw [Mbuf.store_withRoom, Mbuf.store_withRoom, Mbuf.getD_data_withRoom httl]
  rw [← hmacs] at hheader
  generalize store (store room 0 (etherBytes dstAddr)) 6 (etherBytes srcAddr) = addressed at *
  split
  · rfl
  · have hbehind {i : Nat} (hi : kEtherHdrSize < i) {size : Nat} :
        kEtherHdrSize ∉ written i size := fun h ↦ absurd h.1 (Nat.not_le.mpr hi)
    have hcleared : (roomIpv4Hdr (store (store addressed (kEtherHdrSize + 8)
        [addressed (kEtherHdrSize + 8) - 1]) (kEtherHdrSize + 10) [0, 0])).headerLen =
          (roomIpv4Hdr addressed).headerLen := by
      rw [headerLen_store (hbehind (by decide)), headerLen_store (hbehind (by decide))]
    rw [Mbuf.store_withRoom, Mbuf.store_withRoom, Mbuf.store_withRoom,
      Mbuf.ipv4HeaderBytes_withRoom hfixed (hcleared ▸ hheader)]
    refine recomputeL4Checksum_withRoom hfixed ?_ ck
    rw [headerLen_store (hbehind (by decide)), hcleared]
    exact hheader

end Link

/-- When the IPv4 header is in the first mbuf, what is behind the data makes no difference. -/
theorem updateL3ForwardHeadersRoom_eq (ck : Cksums) {beyond : Nat → BitVec 8} {packet : Mbuf}
    (hfixed : kEtherHdrSize + kIpv4HdrSize ≤ packet.dataLen)
    (hheader : kEtherHdrSize + (roomIpv4Hdr (packet.room beyond)).headerLen ≤ packet.dataLen)
    (srcAddr dstAddr : EtherAddr) :
    updateL3ForwardHeadersRoom ck beyond packet srcAddr dstAddr =
      updateL3ForwardHeaders ck packet srcAddr dstAddr := by
  have hdata := updateL3ForwardHeaders_withRoom hfixed hheader ck srcAddr dstAddr
  rw [Mbuf.withRoom_room] at hdata
  exact hdata.symm

/-! ## The header that the parser accepted -/

section Parse

variable {φ : Type}

/-- The library completes datagrams of fragments whose header was checked when they were given to
it; the first of them is the head of the chain.  Such are the tables that `checked` is about. -/
def FragLibrary.CompletesChecked (lib : FragLibrary φ) (checked : φ → Prop) : Prop :=
  ∀ packet l3Len tsc fragments chain, checked fragments → CheckedHeader packet →
    (lib.rteIpv4FragReassemblePacket packet kEtherHdrSize l3Len tsc fragments).1 = some chain →
      kIpv4HdrSize ≤ parsedHeaderLen chain .kIpv4

/-- An IPv4 packet that is parsed has a whole IPv4 header, also when it was reassembled. -/
theorem headerLen_of_parsed {fragTbl : Option (FragLibrary φ)} {checked : φ → Prop}
    (hlib : ∀ lib ∈ fragTbl, lib.CompletesChecked checked) {packet chain : Mbuf}
    {tsc : BitVec 64} {fragments : φ} (hchecked : checked fragments) {metadata : PacketMetadata}
    {wasReassembled : Bool}
    (h : (parsePacketOwned fragTbl packet tsc fragments).1 =
      .parsed metadata chain wasReassembled) (hipv4 : metadata.ipVersion = .kIpv4) :
    kIpv4HdrSize ≤ parsedHeaderLen chain .kIpv4 := by
  rcases parsePacketOwned_parsed h with h | h
  · obtain ⟨hheader, hwhole, hcompleted, -⟩ := parseIpv4_parsed h
    cases wasReassembled with
    | false =>
        rw [hwhole rfl]
        exact hheader
    | true =>
        obtain ⟨hpacket, lib, hsome, hchain⟩ := hcompleted rfl
        exact hlib lib hsome packet _ tsc fragments chain hchecked hpacket hchain
  · obtain ⟨-, front, -, hparsed⟩ := parseIpv6_parsed h
    rw [ipVersion_of_parseIpv6Payload hparsed] at hipv4
    cases hipv4

end Parse

/-- The tables of `pairLibrary` with checked fragments. -/
def CheckedPairs (table : List (Mbuf × Nat)) : Prop := ∀ f ∈ table, CheckedHeader f.1

/-- Correcting the header leaves its length. -/
theorem parsedHeaderLen_joinFragments {first : Mbuf} (h : CheckedHeader first) (second : Mbuf)
    (l3Len : Nat) :
    parsedHeaderLen (joinFragments kEtherHdrSize first second l3Len) .kIpv4 =
      parsedHeaderLen first .kIpv4 := by
  have hlt : kEtherHdrSize < first.dataLen :=
    Nat.lt_of_lt_of_le (Nat.lt_add_of_pos_right (Nat.lt_of_lt_of_le (by decide) h.length)) h.data
  let length := BitVec.ofNat 16 (first.bytes.length - kEtherHdrSize +
    (second.bytes.length - kEtherHdrSize - l3Len))
  let room := store (store (store (first.room fun _ ↦ 0) (kEtherHdrSize + 2) (be16 length))
    (kEtherHdrSize + 6) [0, 0]) (kEtherHdrSize + 10) [0, 0]
  have hhead : (joinFragments kEtherHdrSize first second l3Len).head =
      (first.withRoom room).head := by
    rw [← Mbuf.store_withRoom, ← Mbuf.store_withRoom, ← Mbuf.store_withRoom, Mbuf.withRoom_room]
    rfl
  have hbehind {i size : Nat} (hi : kEtherHdrSize < i) : kEtherHdrSize ∉ written i size :=
    fun h ↦ absurd h.1 (Nat.not_le.mpr hi)
  have hroom : room kEtherHdrSize = first.room (fun _ ↦ 0) kEtherHdrSize := by
    simp only [room]
    rw [store_of_notMem (hbehind (by decide)), store_of_notMem (hbehind (by decide)),
      store_of_notMem (hbehind (by decide))]
  rw [parsedHeaderLen, Mbuf.getD_bytes_of_head hhead hlt, hroom, Mbuf.room_of_lt hlt 0,
    parsedHeaderLen]

theorem pairLibrary_completesChecked : pairLibrary.CompletesChecked CheckedPairs := by
  intro packet l3Len tsc table chain htable hpacket hchain
  cases table with
  | nil => cases hchain
  | cons other table =>
      obtain ⟨other, otherLen⟩ := other
      have hother : CheckedHeader other := htable (other, otherLen) List.mem_cons_self
      unfold pairLibrary at hchain
      dsimp only at hchain
      split at hchain
      · obtain rfl := Option.some.inj hchain
        rw [parsedHeaderLen_joinFragments hpacket]
        exact hpacket.length
      · obtain rfl := Option.some.inj hchain
        rw [parsedHeaderLen_joinFragments hother]
        exact hother.length

end DpdkSpi
