import DpdkSpi.Packet.Fragments

/-!
# IPv6 fragments

IPv6 packets on the wire, and what `ParsePacketOwned` makes of their fragments.  It tells the
library that layer 3 of a fragment is the IPv6 header alone, while the library takes layer 3 to
reach to the end of the fragment header.  So the library trims eight bytes too many from every
fragment, and leaves the fragment header in front of all but the first: what is handed on has not
the payload of the datagram (`fragments6_never_transparent`).
-/

namespace DpdkSpi

variable {φ : Type}

/-! ## Frames -/

/-- The IPv6 fragment header, apart from the type of what follows.  `fragData` has the offset, a
multiple of eight, and the flag for more fragments. -/
structure Ipv6FragmentExt where
  reserved : BitVec 8 := 0
  fragData : BitVec 16
  id : BitVec 32
deriving DecidableEq, Repr

/-- An IPv6 packet in an Ethernet frame: a whole datagram, or a fragment with the fragment header
directly behind the IPv6 header.  `protocol` is the type of the payload. -/
structure Ipv6Packet where
  macs : List (BitVec 8)
  vtcFlow : BitVec 32 := 0x60000000
  protocol : BitVec 8
  hopLimits : BitVec 8 := 64
  source : Ip6Address
  destination : Ip6Address
  fragment : Option Ipv6FragmentExt := none
  payload : List (BitVec 8)
deriving DecidableEq, Repr

namespace Ipv6Packet

/-- The bytes of the fragment header. -/
def extension (p : Ipv6Packet) : List (BitVec 8) :=
  match p.fragment with
  | none => []
  | some ext => [p.protocol, ext.reserved] ++ be16 ext.fragData ++ be32 ext.id

/-- The type of what follows the IPv6 header. -/
def nextHeader (p : Ipv6Packet) : BitVec 8 :=
  if p.fragment.isSome then kIpprotoFragment else p.protocol

/-- The length of what follows the IPv6 header. -/
def payloadLength (p : Ipv6Packet) : Nat := p.extension.length + p.payload.length

/-- The IPv6 header. -/
def fixedHeader (p : Ipv6Packet) : List (BitVec 8) :=
  be32 p.vtcFlow ++ be16 (BitVec.ofNat 16 p.payloadLength) ++ [p.nextHeader, p.hopLimits] ++
    (p.source.toList ++ p.destination.toList)

/-- The Ethernet header. -/
def etherHeader (p : Ipv6Packet) : List (BitVec 8) := p.macs ++ be16 kEtherTypeIpv6

/-- The frame. -/
def bytes (p : Ipv6Packet) : List (BitVec 8) :=
  p.etherHeader ++ (p.fixedHeader ++ (p.extension ++ p.payload))

/-- Lengths as they can be in a frame. -/
structure Valid (p : Ipv6Packet) : Prop where
  macs : p.macs.length = 12
  total : p.payloadLength < 2 ^ 16

/-- A whole TCP or UDP datagram. -/
structure WellFormed (d : Ipv6Packet) : Prop where
  valid : d.Valid
  whole : d.fragment = none
  l4 : (d.protocol = kIpprotoTcp ∧ kTcpHdrSize ≤ Ipv4Packet.tcpHeaderLength d.payload ∧
      Ipv4Packet.tcpHeaderLength d.payload ≤ d.payload.length) ∨
    (d.protocol = kIpprotoUdp ∧ kUdpHdrSize ≤ d.payload.length)

/-- Fragments one behind the other, from an offset on. -/
def Consecutive : Nat → List Ipv6Packet → Prop
  | _, [] => True
  | offset, [f] => ∃ ext, f.fragment = some ext ∧ ext.fragData = BitVec.ofNat 16 offset
  | offset, f :: g :: rest =>
      (∃ ext, f.fragment = some ext ∧ ext.fragData = BitVec.ofNat 16 (offset + 1)) ∧
        8 ∣ f.payload.length ∧ f.payload ≠ [] ∧
        Consecutive (offset + f.payload.length) (g :: rest)

/-- A fragmentation of a datagram. -/
structure Fragmentation (d : Ipv6Packet) (fs : List Ipv6Packet) : Prop where
  valid : ∀ f ∈ fs, f.Valid
  consecutive : Consecutive 0 fs
  payload : fs.flatMap Ipv6Packet.payload = d.payload
  same : ∀ f ∈ fs, f.protocol = d.protocol ∧ f.source = d.source ∧ f.destination = d.destination
  sameId : ∃ id, ∀ f ∈ fs, ∀ ext ∈ f.fragment, ext.id = id

variable {p : Ipv6Packet}

theorem length_etherHeader (h : p.Valid) : p.etherHeader.length = kEtherHdrSize :=
  length_ether h.macs kEtherTypeIpv6

theorem length_fixedHeader (p : Ipv6Packet) : p.fixedHeader.length = kIpv6HdrSize := by
  have haddresses : (p.source.toList ++ p.destination.toList).length = 16 + 16 := by
    rw [List.length_append, Vector.length_toList, Vector.length_toList]
  rw [fixedHeader, List.length_append, haddresses]
  rfl

theorem length_extension (h : p.fragment.isSome) : p.extension.length = kIpv6FragmentExtSize := by
  obtain ⟨ext, hext⟩ := Option.isSome_iff_exists.mp h
  rw [extension, hext]
  rfl

theorem proto_fixedHeader (p : Ipv6Packet) : (Ipv6Hdr.ofBytes p.fixedHeader).proto = p.nextHeader :=
  rfl

/-- An mbuf that begins with a frame. -/
def In (p : Ipv6Packet) (m : Mbuf) : Prop := ∃ padding, m.bytes = p.bytes ++ padding

/-- Every fragment of a fragmentation has a fragment header. -/
theorem isSome_of_consecutive {fs : List Ipv6Packet} {offset : Nat}
    (hconsecutive : Consecutive offset fs) : ∀ f ∈ fs, f.fragment.isSome := by
  induction fs generalizing offset with
  | nil => exact fun f hf ↦ absurd hf List.not_mem_nil
  | cons f rest ih =>
      cases rest with
      | nil =>
          obtain ⟨ext, hext, -⟩ := hconsecutive
          intro f' hf'
          obtain rfl := List.mem_singleton.mp hf'
          rw [hext]
          rfl
      | cons g rest =>
          obtain ⟨⟨ext, hext, -⟩, -, -, hrest⟩ := hconsecutive
          intro f' hf'
          rcases List.mem_cons.mp hf' with rfl | hf'
          · rw [hext]
            rfl
          · exact ih hrest f' hf'

/-- The first fragment has eight bytes of the payload. -/
theorem first_payload {d first : Ipv6Packet} {rest : List Ipv6Packet} (hd : d.WellFormed)
    (hfrag : Fragmentation d (first :: rest)) : 8 ≤ first.payload.length := by
  cases rest with
  | nil =>
      have hpayload : first.payload = d.payload := by
        rw [← hfrag.payload, List.flatMap_cons, List.flatMap_nil, List.append_nil]
      rw [hpayload]
      rcases hd.l4 with ⟨-, hmin, hmax⟩ | ⟨-, hsize⟩
      · exact (show 8 ≤ kTcpHdrSize by decide).trans (hmin.trans hmax)
      · exact hsize
  | cons g rest =>
      obtain ⟨-, hdvd, hne, -⟩ := hfrag.consecutive
      exact Nat.le_of_dvd (List.length_pos_iff.mpr hne) hdvd

section In

variable {m : Mbuf}

theorem In.bytes_eq (hm : p.In m) :
    ∃ back, m.bytes = p.etherHeader ++ (p.fixedHeader ++ (p.extension ++ back)) := by
  obtain ⟨padding, hbytes⟩ := hm
  refine ⟨p.payload ++ padding, ?_⟩
  rw [hbytes, bytes]
  simp only [List.append_assoc]

theorem In.readEther (h : p.Valid) (hm : p.In m) :
    readHeaderFast m 0 kEtherHdrSize = some p.etherHeader := by
  obtain ⟨back, hback⟩ := hm.bytes_eq
  exact readHeaderFast_of_bytes (hback.trans (List.nil_append _).symm) rfl (length_etherHeader h)

theorem In.readIpv6 (h : p.Valid) (hm : p.In m) :
    readHeaderFast m kEtherHdrSize kIpv6HdrSize = some p.fixedHeader := by
  obtain ⟨back, hback⟩ := hm.bytes_eq
  exact readHeaderFast_of_bytes hback (length_etherHeader h) (length_fixedHeader p)

theorem In.readExtension (h : p.Valid) (hm : p.In m) (hfragment : p.fragment.isSome) :
    readHeaderFast m (kEtherHdrSize + kIpv6HdrSize) kIpv6FragmentExtSize = some p.extension := by
  obtain ⟨back, hback⟩ := hm.bytes_eq
  rw [← List.append_assoc] at hback
  refine readHeaderFast_of_bytes hback ?_ (length_extension hfragment)
  rw [List.length_append, length_etherHeader h, length_fixedHeader p]

theorem etherType_etherHeader (h : p.Valid) :
    rteBeToCpu16 (EtherHdr.ofBytes p.etherHeader).etherType = kEtherTypeIpv6 :=
  etherType_ether h.macs kEtherTypeIpv6

/-- The frame of an IPv6 packet goes to the IPv6 branch. -/
theorem In.parsePacketOwned_eq (h : p.Valid) (hm : p.In m) (fragTbl : Option (FragLibrary φ))
    (tsc : BitVec 64) (fragments : φ) :
    parsePacketOwned fragTbl m tsc fragments = parseIpv6 fragTbl m tsc fragments := by
  unfold parsePacketOwned
  rw [hm.readEther h]
  dsimp only
  rw [etherType_etherHeader h, if_neg (by decide), if_pos rfl]

/-- A fragment goes to the library, with the lengths of the Ethernet and the IPv6 header. -/
theorem In.parse_fragment (h : p.Valid) (hm : p.In m) (hfragment : p.fragment.isSome)
    (hheaders : kEtherHdrSize + kIpv6HdrSize + kIpv6FragmentExtSize ≤ m.dataLen)
    (lib : FragLibrary φ) (tsc : BitVec 64) (fragments : φ) :
    parsePacketOwned (some lib) m tsc fragments =
      match lib.rteIpv6FragReassemblePacket m kEtherHdrSize kIpv6HdrSize tsc fragments with
      | (none, fragments) => (.waitingForFragments, fragments)
      | (some chain, fragments) =>
          match readHeaderFast chain kEtherHdrSize kIpv6HdrSize with
          | none => (.malformed chain, fragments)
          | some bytes =>
              (.ofOption chain true (parseIpv6Payload chain (.ofBytes bytes)), fragments) := by
  have hnext : p.nextHeader = kIpprotoFragment := by rw [nextHeader, if_pos hfragment]
  rw [hm.parsePacketOwned_eq h, parseIpv6, hm.readIpv6 h]
  dsimp only
  rw [proto_fixedHeader, hnext, if_pos rfl, hm.readExtension h hfragment]
  exact if_neg (Nat.not_lt.mpr hheaders)

end In

end Ipv6Packet

/-! ## Arrivals -/

/-- An IPv6 fragment that arrives: the mbuf it is in, and when. -/
structure Fragment6Arrival where
  fragment : Ipv6Packet
  mbuf : Mbuf
  tsc : BitVec 64

namespace Fragment6Arrival

/-- The mbuf holds the fragment, with its headers in the first segment. -/
structure Intact (a : Fragment6Arrival) : Prop where
  carried : a.fragment.In a.mbuf
  headers : kEtherHdrSize + kIpv6HdrSize + kIpv6FragmentExtSize ≤ a.mbuf.dataLen

/-- What the library leaves of a frame before it chains it: layer 2 and layer 3 as they were given,
and as many bytes as follow the fragment header. -/
def trimmed (a : Fragment6Arrival) (l2Len l3Len : Nat) : List (BitVec 8) :=
  a.mbuf.bytes.take (a.fragment.payloadLength - kIpv6FragmentExtSize + l2Len + l3Len)

end Fragment6Arrival

namespace FragLibrary

/-- The library keeps every arrival but the last, for which it hands back a chain.  Each comes with
the lengths of its layers that `ParsePacketOwned` gives. -/
def Collects6 (lib : FragLibrary φ) (chain : Mbuf) (last : Fragment6Arrival) :
    List Fragment6Arrival → φ → Prop
  | [], fragments => (lib.rteIpv6FragReassemblePacket last.mbuf kEtherHdrSize kIpv6HdrSize last.tsc
      fragments).1 = some chain
  | a :: rest, fragments =>
      let r := lib.rteIpv6FragReassemblePacket a.mbuf kEtherHdrSize kIpv6HdrSize a.tsc fragments
      r.1 = none ∧ lib.Collects6 chain last rest r.2

/-- The chain of some fragments, by their offsets: the first one without its fragment header, and
the others without layer 2 and layer 3, all of them trimmed. -/
def Chains6 (l2Len l3Len : Nat) (chain : Mbuf) (first : Fragment6Arrival)
    (rest : List Fragment6Arrival) : Prop :=
  ∃ header, header.length = kEtherHdrSize + kIpv6HdrSize ∧
    chain.bytes = header ++
      ((first.trimmed l2Len l3Len).drop (header.length + kIpv6FragmentExtSize) ++
        rest.flatMap fun a ↦ (a.trimmed l2Len l3Len).drop (l2Len + l3Len))

end FragLibrary

/-- Fragments wait for the last one, which gets the chain of the library if it gets any. -/
theorem parseInTurn_fragments {lib : FragLibrary φ} {chain : Mbuf} {last : Fragment6Arrival}
    {arrivals : List Fragment6Arrival} {fragments : φ}
    (hlib : lib.Collects6 chain last arrivals fragments)
    (hvalid : ∀ a ∈ arrivals ++ [last], a.fragment.Valid)
    (hfragment : ∀ a ∈ arrivals ++ [last], a.fragment.fragment.isSome)
    (hintact : ∀ a ∈ arrivals ++ [last], a.Intact) :
    ∃ metadata, parseInTurn lib ((arrivals ++ [last]).map fun a ↦ (a.mbuf, a.tsc)) fragments =
      List.replicate arrivals.length .waitingForFragments ++ [.ofOption chain true metadata] := by
  induction arrivals generalizing fragments with
  | nil =>
      have hmem : last ∈ ([] : List Fragment6Arrival) ++ [last] := List.mem_singleton_self last
      have hparse := (hintact last hmem).carried.parse_fragment (hvalid last hmem)
        (hfragment last hmem) (hintact last hmem).headers lib last.tsc fragments
      rcases hcall : lib.rteIpv6FragReassemblePacket last.mbuf kEtherHdrSize kIpv6HdrSize last.tsc
        fragments with ⟨result, fragments'⟩
      rw [FragLibrary.Collects6, hcall] at hlib
      dsimp only at hlib
      rw [hcall, hlib] at hparse
      dsimp only at hparse
      rw [List.nil_append, List.map_singleton, parseInTurn, hparse]
      cases readHeaderFast chain kEtherHdrSize kIpv6HdrSize with
      | none => exact ⟨none, rfl⟩
      | some bytes => exact ⟨_, rfl⟩
  | cons a arrivals ih =>
      have hmem : a ∈ a :: arrivals ++ [last] := List.mem_cons_self
      have hparse := (hintact a hmem).carried.parse_fragment (hvalid a hmem) (hfragment a hmem)
        (hintact a hmem).headers lib a.tsc fragments
      obtain ⟨hnone, hrest⟩ := hlib
      rcases hcall : lib.rteIpv6FragReassemblePacket a.mbuf kEtherHdrSize kIpv6HdrSize a.tsc
        fragments with ⟨result, fragments'⟩
      rw [hcall] at hnone hrest
      dsimp only at hnone hrest
      rw [hcall, hnone] at hparse
      obtain ⟨metadata, hmetadata⟩ := ih hrest (fun b hb ↦ hvalid b (List.mem_cons_of_mem a hb))
        (fun b hb ↦ hfragment b (List.mem_cons_of_mem a hb))
        fun b hb ↦ hintact b (List.mem_cons_of_mem a hb)
      refine ⟨metadata, ?_⟩
      rw [List.cons_append, List.map_cons, parseInTurn, hparse]
      dsimp only
      rw [hmetadata]
      rfl

/-! ## What is left of the payload -/

namespace Fragment6Arrival

variable {a : Fragment6Arrival}

/-- With layer 3 as `ParsePacketOwned` gives it, a trimmed frame lacks its last eight bytes. -/
theorem drop_trimmed (ha : a.Intact) (hvalid : a.fragment.Valid)
    (hfragment : a.fragment.fragment.isSome) :
    (a.trimmed kEtherHdrSize kIpv6HdrSize).drop (kEtherHdrSize + kIpv6HdrSize) =
      (a.fragment.extension ++ a.fragment.payload).take a.fragment.payload.length := by
  obtain ⟨padding, hbytes⟩ := ha.carried
  have hether := Ipv6Packet.length_etherHeader hvalid
  have hfixed := a.fragment.length_fixedHeader
  have hextension := Ipv6Packet.length_extension hfragment
  have hfront : (a.fragment.etherHeader ++ a.fragment.fixedHeader).length =
      kEtherHdrSize + kIpv6HdrSize := by
    rw [List.length_append, hether, hfixed]
  have hkept : a.fragment.payloadLength - kIpv6FragmentExtSize + kEtherHdrSize + kIpv6HdrSize =
      (a.fragment.etherHeader ++ a.fragment.fixedHeader).length + a.fragment.payload.length := by
    rw [hfront, Ipv6Packet.payloadLength, hextension]
    omega
  have hwhole : a.mbuf.bytes = (a.fragment.etherHeader ++ a.fragment.fixedHeader) ++
      ((a.fragment.extension ++ a.fragment.payload) ++ padding) := by
    rw [hbytes, Ipv6Packet.bytes]
    simp only [List.append_assoc]
  rw [trimmed, hkept, hwhole, List.take_length_add_append, ← hfront, List.drop_left,
    List.take_append_of_le_length]
  rw [List.length_append]
  exact Nat.le_add_left _ _

theorem length_drop_trimmed (ha : a.Intact) (hvalid : a.fragment.Valid)
    (hfragment : a.fragment.fragment.isSome) :
    ((a.trimmed kEtherHdrSize kIpv6HdrSize).drop (kEtherHdrSize + kIpv6HdrSize)).length =
      a.fragment.payload.length := by
  rw [drop_trimmed ha hvalid hfragment, List.length_take, List.length_append]
  exact Nat.min_eq_left (Nat.le_add_left _ _)

end Fragment6Arrival

/-- The chain is eight bytes short. -/
theorem length_drop_chain {chain : Mbuf} {first : Fragment6Arrival} {rest : List Fragment6Arrival}
    (hchain : FragLibrary.Chains6 kEtherHdrSize kIpv6HdrSize chain first rest)
    (hvalid : ∀ a ∈ first :: rest, a.fragment.Valid)
    (hfragment : ∀ a ∈ first :: rest, a.fragment.fragment.isSome)
    (hintact : ∀ a ∈ first :: rest, a.Intact) :
    (chain.bytes.drop (kEtherHdrSize + kIpv6HdrSize)).length =
      (((first :: rest).map Fragment6Arrival.fragment).flatMap Ipv6Packet.payload).length -
        min 8 first.fragment.payload.length := by
  obtain ⟨header, hheader, hbytes⟩ := hchain
  have hrest : (rest.flatMap fun a ↦ (a.trimmed kEtherHdrSize kIpv6HdrSize).drop
      (kEtherHdrSize + kIpv6HdrSize)).length =
        ((rest.map Fragment6Arrival.fragment).flatMap Ipv6Packet.payload).length := by
    rw [List.length_flatMap, List.length_flatMap, List.map_map]
    refine congrArg List.sum (List.map_congr_left fun a ha ↦ ?_)
    have hmem := List.mem_cons_of_mem first ha
    exact Fragment6Arrival.length_drop_trimmed (hintact a hmem) (hvalid a hmem) (hfragment a hmem)
  have hmem : first ∈ first :: rest := List.mem_cons_self
  have hfirst := Fragment6Arrival.length_drop_trimmed (hintact first hmem) (hvalid first hmem)
    (hfragment first hmem)
  rw [hbytes, ← hheader, List.drop_left, List.length_append, ← List.drop_drop, List.length_drop,
    hheader, hfirst, hrest, List.map_cons, List.flatMap_cons, List.length_append,
    kIpv6FragmentExtSize]
  omega

/-- The fragments of a datagram are parsed as the datagram is, and what is handed on has its
payload. -/
def Transparent6 (lib : FragLibrary φ) (d : Ipv6Packet) (whole : Mbuf) (tsc : BitVec 64)
    (arrivals : List Fragment6Arrival) (last : Fragment6Arrival) (fragments : φ) : Prop :=
  ∃ metadata chain,
    (parsePacketOwned (some lib) whole tsc fragments).1 = .parsed metadata whole false ∧
      parseInTurn lib ((arrivals ++ [last]).map fun a ↦ (a.mbuf, a.tsc)) fragments =
        List.replicate arrivals.length .waitingForFragments ++ [.parsed metadata chain true] ∧
      chain.bytes.drop (kEtherHdrSize + kIpv6HdrSize) = d.payload

/-- **IPv6 fragments are never reassembled to their datagram**, whatever the datagram, its fragments
and the order in which they arrive. -/
theorem fragments6_never_transparent (lib : FragLibrary φ) (d : Ipv6Packet)
    (first : Fragment6Arrival) (rest arrivals : List Fragment6Arrival) (last : Fragment6Arrival)
    (whole chain : Mbuf) (tsc : BitVec 64) (fragments : φ) (hd : d.WellFormed)
    (hfrag : Ipv6Packet.Fragmentation d ((first :: rest).map Fragment6Arrival.fragment))
    (hperm : (arrivals ++ [last]).Perm (first :: rest)) (hintact : ∀ a ∈ first :: rest, a.Intact)
    (hlib : lib.Collects6 chain last arrivals fragments)
    (hchain : FragLibrary.Chains6 kEtherHdrSize kIpv6HdrSize chain first rest) :
    ¬ Transparent6 lib d whole tsc arrivals last fragments := by
  rintro ⟨metadata, chain', -, hparsed, hpayload⟩
  have hvalid : ∀ a ∈ first :: rest, a.fragment.Valid := fun a ha ↦
    hfrag.valid _ (List.mem_map_of_mem ha)
  have hfragment : ∀ a ∈ first :: rest, a.fragment.fragment.isSome := fun a ha ↦
    Ipv6Packet.isSome_of_consecutive hfrag.consecutive _ (List.mem_map_of_mem ha)
  obtain ⟨found, hfound⟩ := parseInTurn_fragments hlib
    (fun a ha ↦ hvalid a (hperm.mem_iff.mp ha)) (fun a ha ↦ hfragment a (hperm.mem_iff.mp ha))
    fun a ha ↦ hintact a (hperm.mem_iff.mp ha)
  rw [hfound, List.append_cancel_left_eq, List.singleton_inj] at hparsed
  have hsame : chain' = chain := by
    cases found with
    | none => cases hparsed
    | some found =>
        cases hparsed
        rfl
  have hfirst := Ipv6Packet.first_payload hd hfrag
  have hlength := length_drop_chain hchain hvalid hfragment hintact
  have hshort : first.fragment.payload.length ≤ d.payload.length := by
    rw [← hfrag.payload, List.map_cons, List.flatMap_cons, List.length_append]
    exact Nat.le_add_right _ _
  rw [← hsame, hpayload, hfrag.payload] at hlength
  omega

/-! ## Two fragments -/

/-- The number of payload bytes that a fragment says it has. -/
def fragmentSize6 (packet : Mbuf) (l2Len : Nat) : Nat :=
  (rteBeToCpu16 (load16 packet.bytes (l2Len + 4))).toNat - kIpv6FragmentExtSize

/-- A second fragment behind a first, both trimmed, under the corrected headers of the first. -/
def joinFragments6 (l2Len l3Len : Nat) (first second : Mbuf) : Mbuf :=
  let total := fragmentSize6 first l2Len + fragmentSize6 second l2Len
  let trim := fun packet : Mbuf ↦ packet.bytes.take (fragmentSize6 packet l2Len + l2Len + l3Len)
  let headers := l2Len + kIpv6HdrSize
  let header := first.bytes.take (l2Len + 4) ++ be16 (BitVec.ofNat 16 total) ++
    [first.bytes.getD headers 0] ++ (first.bytes.take headers).drop (l2Len + 7)
  ⟨⟨first.address, header ++ (trim first).drop (headers + kIpv6FragmentExtSize)⟩,
    [⟨second.address, (trim second).drop (l2Len + l3Len)⟩]⟩

/-- A fragment table for datagrams of two fragments that come one after the other. -/
def pairLibrary6 : FragLibrary (List Mbuf) where
  rteIpv4FragReassemblePacket := fun packet _ _ _ table ↦ (none, packet :: table)
  rteIpv6FragReassemblePacket := fun packet l2Len l3Len _ table ↦
    match table with
    | [] => (none, [packet])
    | other :: table =>
        if rteBeToCpu16 (load16 packet.bytes (l2Len + kIpv6HdrSize + 2)) &&& 0xFFF8 = 0 then
          (some (joinFragments6 l2Len l3Len packet other), table)
        else (some (joinFragments6 l2Len l3Len other packet), table)

/-- A UDP datagram with sixteen bytes of data. -/
def queryDatagram6 : Ipv6Packet where
  macs := List.replicate 12 0
  protocol := kIpprotoUdp
  source := Vector.replicate 16 1
  destination := Vector.replicate 16 2
  payload := [0x27, 0x10, 0x00, 0x35, 0x00, 0x18, 0, 0, 1, 2, 3, 4, 5, 6, 7, 8, 9, 10, 11, 12, 13,
    14, 15, 16]

/-- Its first fragment. -/
def queryFirst6 : Ipv6Packet :=
  { queryDatagram6 with
    fragment := some { fragData := 1, id := 7 }, payload := queryDatagram6.payload.take 16 }

/-- Its second fragment. -/
def querySecond6 : Ipv6Packet :=
  { queryDatagram6 with
    fragment := some { fragData := 16, id := 7 }, payload := queryDatagram6.payload.drop 16 }

/-- An IPv6 packet in a single mbuf. -/
def Ipv6Packet.inMbuf (p : Ipv6Packet) (address : Nat) : Mbuf := ⟨⟨address, p.bytes⟩, []⟩

/-- The arrival of the first fragment. -/
def firstArrival6 : Fragment6Arrival := ⟨queryFirst6, queryFirst6.inMbuf 1, 0⟩

/-- The arrival of the second fragment. -/
def secondArrival6 : Fragment6Arrival := ⟨querySecond6, querySecond6.inMbuf 2, 0⟩

/-- What the library hands back. -/
def queryChain6 : Mbuf :=
  joinFragments6 kEtherHdrSize kIpv6HdrSize firstArrival6.mbuf secondArrival6.mbuf

theorem query6_wellFormed : queryDatagram6.WellFormed :=
  ⟨⟨rfl, by decide⟩, rfl, .inr ⟨rfl, by decide⟩⟩

theorem query6_fragmentation : Ipv6Packet.Fragmentation queryDatagram6
    ([firstArrival6, secondArrival6].map Fragment6Arrival.fragment) where
  valid := by
    simp only [List.map_cons, List.map_nil, List.forall_mem_cons]
    exact ⟨⟨rfl, by decide⟩, ⟨rfl, by decide⟩, by simp⟩
  consecutive := ⟨⟨_, rfl, rfl⟩, by decide, by decide, ⟨_, rfl, rfl⟩⟩
  payload := rfl
  same := by
    simp only [List.map_cons, List.map_nil, List.forall_mem_cons]
    exact ⟨⟨rfl, rfl, rfl⟩, ⟨rfl, rfl, rfl⟩, by simp⟩
  sameId := by
    refine ⟨7, ?_⟩
    simp only [List.map_cons, List.map_nil, List.forall_mem_cons]
    refine ⟨fun ext hext ↦ ?_, fun ext hext ↦ ?_, by simp⟩
    · cases hext
      rfl
    · cases hext
      rfl

theorem query6_intact : ∀ a ∈ [firstArrival6, secondArrival6], a.Intact := by
  simp only [List.forall_mem_cons]
  exact ⟨⟨⟨[], by decide +kernel⟩, by decide⟩, ⟨⟨[], by decide +kernel⟩, by decide⟩, by simp⟩

/-- Two fragments that arrive the other way round. -/
theorem fragments6_never_transparent_reversed :
    ¬ Transparent6 pairLibrary6 queryDatagram6 (queryDatagram6.inMbuf 3) 0 [secondArrival6]
      firstArrival6 [] := by
  refine fragments6_never_transparent pairLibrary6 queryDatagram6 firstArrival6 [secondArrival6]
    [secondArrival6] firstArrival6 (queryDatagram6.inMbuf 3) queryChain6 0 [] query6_wellFormed
    query6_fragmentation (.swap _ _ _) query6_intact ⟨rfl, rfl⟩ ?_
  exact ⟨queryChain6.bytes.take (kEtherHdrSize + kIpv6HdrSize), by decide +kernel,
    by decide +kernel⟩

/-- The fragments come in order, and are parsed as the datagram is, but what is handed on has the
fragment header of the second one for its data. -/
theorem fragments6_in_order_corrupted :
    queryDatagram6.WellFormed ∧
      Ipv6Packet.Fragmentation queryDatagram6
        ([firstArrival6, secondArrival6].map Fragment6Arrival.fragment) ∧
      ∃ metadata,
        (parsePacketOwned (some pairLibrary6) (queryDatagram6.inMbuf 3) 0 []).1 =
            .parsed metadata (queryDatagram6.inMbuf 3) false ∧
          parseInTurn pairLibrary6
              [(firstArrival6.mbuf, firstArrival6.tsc), (secondArrival6.mbuf, secondArrival6.tsc)]
              [] = [.waitingForFragments, .parsed metadata queryChain6 true] ∧
          queryChain6.bytes.drop (kEtherHdrSize + kIpv6HdrSize) =
            [0x27, 0x10, 0x00, 0x35, 0x00, 0x18, 0, 0, kIpprotoUdp, 0, 0, 16, 0, 0, 0, 7] ∧
          queryChain6.bytes.drop (kEtherHdrSize + kIpv6HdrSize) ≠ queryDatagram6.payload := by
  refine ⟨query6_wellFormed, query6_fragmentation, _, rfl, rfl, ?_, ?_⟩
  · decide +kernel
  · decide +kernel

end DpdkSpi
