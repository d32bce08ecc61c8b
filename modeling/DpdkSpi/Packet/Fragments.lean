import DpdkSpi.Packet.Wire
import DpdkSpi.Packet.Rewrite

/-!
# IPv4 fragments and whole datagrams

A datagram that arrives in fragments should be parsed as the whole datagram is, in whichever order
its fragments come.  `ParsePacketOwned` reads the header of the reassembled packet again, but keeps
the header length of the fragment that completes it.  Fragments behind the first need not repeat
the options of a datagram, so that their headers can be shorter.
-/

namespace DpdkSpi

variable {φ : Type}

namespace Ipv4Packet

/-! ## Fragmentations -/

/-- A whole TCP or UDP datagram. -/
structure WellFormed (d : Ipv4Packet) : Prop where
  valid : d.Valid
  whole : isIpv4Fragmented d.hdr = false
  l4 : (d.protocol = kIpprotoTcp ∧ kTcpHdrSize ≤ tcpHeaderLength d.payload ∧
      tcpHeaderLength d.payload ≤ d.payload.length) ∨
    (d.protocol = kIpprotoUdp ∧ kUdpHdrSize ≤ d.payload.length)

/-- Fragments one behind the other, from an offset on. -/
def Consecutive : Nat → List Ipv4Packet → Prop
  | _, [] => True
  | offset, [f] => f.fragment = BitVec.ofNat 16 (offset / 8)
  | offset, f :: g :: rest =>
      f.fragment = kIpv4HdrMfFlag ||| BitVec.ofNat 16 (offset / 8) ∧
        8 ∣ f.payload.length ∧ f.payload ≠ [] ∧
        Consecutive (offset + f.payload.length) (g :: rest)

/-- A valid fragmentation of a datagram.  Options are all in the first fragment, and in the
others only those marked copied. -/
structure Fragmentation (d first : Ipv4Packet) (rest : List Ipv4Packet) : Prop where
  valid : ∀ f ∈ first :: rest, f.Valid
  several : rest ≠ []
  consecutive : Consecutive 0 (first :: rest)
  payload : (first :: rest).flatMap Ipv4Packet.payload = d.payload
  first_payload : 8 ≤ first.payload.length
  options : first.options = d.options
  copied : ∀ f ∈ rest, f.options.length ≤ d.options.length
  same : ∀ f ∈ first :: rest, f.protocol = d.protocol ∧ f.source = d.source ∧
    f.destination = d.destination ∧ f.packetId = d.packetId

/-- A fragment as the parser wants it. -/
def IsFragment (f : Ipv4Packet) : Prop :=
  isIpv4Fragmented f.hdr = true ∧ isValidFragment f.hdr = true

theorem isFragment_of_more {f : Ipv4Packet} (h : f.Valid) {offset : BitVec 16}
    (hfragment : f.fragment = kIpv4HdrMfFlag ||| offset) (hpayload : 8 ≤ f.payload.length) :
    f.IsFragment := by
  have hmore : f.fragment &&& kIpv4HdrMfFlag ≠ 0 := by
    have hbit : (f.fragment &&& kIpv4HdrMfFlag).getLsbD 13 = true := by
      rw [hfragment]
      simp [kIpv4HdrMfFlag]
    intro hzero
    rw [hzero] at hbit
    cases hbit
  have hroom : ¬ f.totalLength < f.headerLen + 8 := by
    rw [totalLength]
    omega
  constructor
  · simp only [isIpv4Fragmented, fragment_hdr]
    rw [decide_eq_true hmore, Bool.true_or]
  · simp only [isValidFragment, totalLength_hdr h, headerLen_hdr h]
    rw [decide_eq_false hroom, Bool.and_false, Bool.not_false]

theorem isFragment_of_last {f : Ipv4Packet} {offset : Nat}
    (hfragment : f.fragment = BitVec.ofNat 16 (offset / 8)) (hoffset : 8 ≤ offset)
    (hlt : offset < 2 ^ 16) : f.IsFragment := by
  have hnat : f.fragment.toNat = offset / 8 := by
    rw [hfragment, BitVec.toNat_ofNat]
    omega
  have hmask : f.fragment &&& kIpv4HdrOffsetMask ≠ 0 := by
    intro hzero
    have h := congrArg BitVec.toNat hzero
    rw [BitVec.toNat_and, hnat, kIpv4HdrOffsetMask, show (0x1FFF : BitVec 16).toNat = 2 ^ 13 - 1
      from rfl, Nat.and_two_pow_sub_one_eq_mod] at h
    simp at h
    omega
  have hmore : f.fragment &&& kIpv4HdrMfFlag = 0 := by
    apply BitVec.eq_of_toNat_eq
    rw [BitVec.toNat_and, hnat]
    refine Nat.eq_of_testBit_eq fun i ↦ ?_
    rw [Nat.testBit_and, show kIpv4HdrMfFlag.toNat = 2 ^ 13 from rfl, Nat.testBit_two_pow]
    by_cases hi : 13 = i
    · subst hi
      rw [Nat.testBit_lt_two_pow (by omega)]
      rfl
    · rw [decide_eq_false hi, Bool.and_false]
      exact (Nat.zero_testBit i).symm
  constructor
  · simp only [isIpv4Fragmented, fragment_hdr]
    rw [decide_eq_true hmask, Bool.or_true]
  · simp only [isValidFragment, fragment_hdr]
    rw [hmore]
    simp

/-- Every fragment of a fragmentation is one. -/
theorem isFragment_of_consecutive {fs : List Ipv4Packet} {offset : Nat}
    (hconsecutive : Consecutive offset fs) (hvalid : ∀ f ∈ fs, f.Valid)
    (hoffset : 8 ≤ offset ∨ 2 ≤ fs.length)
    (hlt : offset + (fs.flatMap Ipv4Packet.payload).length < 2 ^ 16) :
    ∀ f ∈ fs, f.IsFragment := by
  induction fs generalizing offset with
  | nil => exact fun f hf ↦ absurd hf List.not_mem_nil
  | cons f rest ih =>
      cases rest with
      | nil =>
          intro f' hf'
          obtain rfl := List.mem_singleton.mp hf'
          refine isFragment_of_last hconsecutive ?_ (by omega)
          rcases hoffset with h | h
          · exact h
          · exact absurd h (Nat.not_succ_le_self 1)
      | cons g rest =>
          obtain ⟨hfragment, hdvd, hne, hrest⟩ := hconsecutive
          have hpayload : 8 ≤ f.payload.length :=
            Nat.le_of_dvd (List.length_pos_iff.mpr hne) hdvd
          rw [List.flatMap_cons, List.length_append] at hlt
          intro f' hf'
          rcases List.mem_cons.mp hf' with rfl | hf'
          · exact isFragment_of_more (hvalid f' List.mem_cons_self) hfragment hpayload
          · exact ih hrest (fun f hf ↦ hvalid f (List.mem_cons_of_mem _ hf)) (.inl (by omega))
              (by omega) f' hf'

/-- The bytes behind a shorter header spell the layer-4 fields of the datagram. -/
def SpellsSame (d : Ipv4Packet) (optionBytes : Nat) : Prop :=
  load16 (d.l4At optionBytes) 0 = load16 d.payload 0 ∧
    load16 (d.l4At optionBytes) 2 = load16 d.payload 2 ∧
    (d.protocol = kIpprotoTcp →
      rteBeToCpu32 (load32 (d.l4At optionBytes) 4) = rteBeToCpu32 (load32 d.payload 4) ∧
        (d.l4At optionBytes).getD 13 0 = d.payload.getD 13 0 ∧
        optionBytes + tcpHeaderLength (d.l4At optionBytes) =
          d.options.length + tcpHeaderLength d.payload)

end Ipv4Packet

/-! ## Arrivals -/

/-- A fragment that arrives: the mbuf it is in, and when. -/
structure FragmentArrival where
  fragment : Ipv4Packet
  mbuf : Mbuf
  tsc : BitVec 64

/-- The mbuf holds the fragment, with its headers in the first segment. -/
structure FragmentArrival.Intact (a : FragmentArrival) : Prop where
  carried : a.fragment.In a.mbuf
  headers : kEtherHdrSize + a.fragment.headerLen ≤ a.mbuf.dataLen

/-- What the parser returns for mbufs, one after the other. -/
def parseInTurn (lib : FragLibrary φ) : List (Mbuf × BitVec 64) → φ → List (ParseResult Mbuf)
  | [], _ => []
  | (packet, tsc) :: rest, fragments =>
      let r := parsePacketOwned (some lib) packet tsc fragments
      r.1 :: parseInTurn lib rest r.2

/-- The same for arrivals. -/
def parseArrivals (lib : FragLibrary φ) (arrivals : List FragmentArrival) (fragments : φ) :
    List (ParseResult Mbuf) :=
  parseInTurn lib (arrivals.map fun a ↦ (a.mbuf, a.tsc)) fragments

/-- The library keeps every arrival but the last, for which it hands back a chain. -/
def FragLibrary.Collects (lib : FragLibrary φ) (chain : Mbuf) (last : FragmentArrival) :
    List FragmentArrival → φ → Prop
  | [], fragments => (lib.rteIpv4FragReassemblePacket last.mbuf kEtherHdrSize
      last.fragment.headerLen last.tsc fragments).1 = some chain
  | a :: rest, fragments =>
      let r := lib.rteIpv4FragReassemblePacket a.mbuf kEtherHdrSize a.fragment.headerLen a.tsc
        fragments
      r.1 = none ∧ lib.Collects chain last rest r.2

/-- Fragments wait for the last one, which is parsed from the chain with its own header length. -/
theorem parseArrivals_eq {lib : FragLibrary φ} {chain : Mbuf} {last : FragmentArrival}
    {arrivals : List FragmentArrival} {fragments : φ}
    (hlib : lib.Collects chain last arrivals fragments)
    (hvalid : ∀ a ∈ arrivals ++ [last], a.fragment.Valid)
    (hfragment : ∀ a ∈ arrivals ++ [last], a.fragment.IsFragment)
    (hintact : ∀ a ∈ arrivals ++ [last], a.Intact) {q : Ipv4Packet} (hq : q.Valid)
    (hchain : chain.bytes = q.bytes) :
    parseArrivals lib (arrivals ++ [last]) fragments =
      List.replicate arrivals.length .waitingForFragments ++
        [.ofOption chain true (parseIpv4Payload chain last.fragment.headerLen q.hdr)] := by
  unfold parseArrivals
  induction arrivals generalizing fragments with
  | nil =>
      have hmem : last ∈ ([] : List FragmentArrival) ++ [last] := List.mem_singleton_self last
      obtain ⟨hfragmented, hgood⟩ := hfragment last hmem
      have hparse := (hintact last hmem).carried.parse_fragment (hvalid last hmem)
        (hintact last hmem).headers hfragmented hgood lib last.tsc fragments
      have hread : readHeaderFast chain kEtherHdrSize kIpv4HdrSize = some q.fixedHeader :=
        Ipv4Packet.In.readIpv4 hq ⟨[], by rw [hchain, List.append_nil]⟩
      rcases hcall : lib.rteIpv4FragReassemblePacket last.mbuf kEtherHdrSize
        last.fragment.headerLen last.tsc fragments with ⟨result, fragments'⟩
      rw [FragLibrary.Collects, hcall] at hlib
      dsimp only at hlib
      rw [hcall, hlib] at hparse
      dsimp only at hparse
      rw [hread] at hparse
      rw [List.nil_append, List.map_singleton, parseInTurn, hparse]
      rfl
  | cons a arrivals ih =>
      have hmem : a ∈ a :: arrivals ++ [last] := List.mem_cons_self
      obtain ⟨hfragmented, hgood⟩ := hfragment a hmem
      have hparse := (hintact a hmem).carried.parse_fragment (hvalid a hmem)
        (hintact a hmem).headers hfragmented hgood lib a.tsc fragments
      obtain ⟨hnone, hrest⟩ := hlib
      rcases hcall : lib.rteIpv4FragReassemblePacket a.mbuf kEtherHdrSize
        a.fragment.headerLen a.tsc fragments with ⟨result, fragments'⟩
      rw [hcall] at hnone hrest
      dsimp only at hnone hrest
      rw [hcall, hnone] at hparse
      rw [List.cons_append, List.map_cons, parseInTurn, hparse]
      dsimp only
      rw [ih hrest (fun b hb ↦ hvalid b (List.mem_cons_of_mem a hb))
        (fun b hb ↦ hfragment b (List.mem_cons_of_mem a hb))
        fun b hb ↦ hintact b (List.mem_cons_of_mem a hb)]
      rfl


/-! ## Metadata -/

namespace Ipv4Packet

theorem tcpHeaderLength_le (l4 : List (BitVec 8)) : tcpHeaderLength l4 ≤ 60 := by
  have hlt : (l4.getD 12 0).toNat < 2 ^ 8 := BitVec.isLt _
  rw [tcpHeaderLength, BitVec.toNat_ushiftRight, Nat.shiftRight_eq_div_pow]
  omega

/-- Behind a header of the right length, everything is as it should be. -/
theorem spellsSame_self (d : Ipv4Packet) : d.SpellsSame d.options.length := by
  rw [SpellsSame, l4At_options]
  exact ⟨rfl, rfl, fun _ ↦ ⟨rfl, rfl, rfl⟩⟩

/-- The reassembled datagram: its payload behind the headers of the first fragment, with total
length and fragment field corrected. -/
def reassembled (d first : Ipv4Packet) (checksum : BitVec 16) : Ipv4Packet :=
  { first with payload := d.payload, fragment := 0, checksum }

section Reassembled

variable {d first : Ipv4Packet} {rest : List Ipv4Packet} (hfrag : Fragmentation d first rest)
  (checksum : BitVec 16)

include hfrag

theorem l4At_reassembled (k : Nat) : (d.reassembled first checksum).l4At k = d.l4At k := by
  show (first.options ++ d.payload).drop k = _
  rw [hfrag.options, l4At]

theorem totalLength_reassembled : (d.reassembled first checksum).totalLength = d.totalLength := by
  show kIpv4HdrSize + first.options.length + d.payload.length = _
  rw [hfrag.options, totalLength, headerLen]

theorem valid_reassembled (hd : d.Valid) : (d.reassembled first checksum).Valid := by
  have hfirst := hfrag.valid first List.mem_cons_self
  refine ⟨hfirst.macs, hfirst.options_mod, hfirst.options_le, ?_⟩
  rw [totalLength_reassembled hfrag]
  exact hd.total

theorem addresses_reassembled :
    (d.reassembled first checksum).hdr.srcAddr = d.hdr.srcAddr ∧
      (d.reassembled first checksum).hdr.dstAddr = d.hdr.dstAddr := by
  obtain ⟨-, hsource, hdestination, -⟩ := hfrag.same first List.mem_cons_self
  rw [srcAddr_hdr, srcAddr_hdr, dstAddr_hdr, dstAddr_hdr, ← hsource, ← hdestination]
  exact ⟨rfl, rfl⟩

variable {whole chain : Mbuf} (hwhole : whole.bytes = d.bytes)
  (hchain : chain.bytes = (d.reassembled first checksum).bytes) {k : Nat}
  (hk : k ≤ d.options.length)

include hwhole hchain hk

/-- A UDP datagram, whole and reassembled. -/
theorem udp_same_iff (hd : d.Valid) (hproto : d.protocol = kIpprotoUdp)
    (hsize : kUdpHdrSize ≤ d.payload.length) :
    (∃ metadata, parseIpv4Payload whole d.headerLen d.hdr = some metadata ∧
        parseIpv4Payload chain (kIpv4HdrSize + k) (d.reassembled first checksum).hdr =
          some metadata) ↔ d.SpellsSame k := by
  have hl4 := l4At_reassembled hfrag checksum k
  have hfirst : (d.reassembled first checksum).protocol = kIpprotoUdp :=
    (hfrag.same first List.mem_cons_self).1.trans hproto
  have hk' : k ≤ (d.reassembled first checksum).options.length := hfrag.options ▸ hk
  have hlong : kUdpHdrSize ≤ ((d.reassembled first checksum).l4At k).length := by
    rw [hl4, l4At, List.length_drop, List.length_append]
    omega
  have hsize' : kUdpHdrSize ≤ (d.l4At d.options.length).length := by rwa [l4At_options]
  rw [headerLen, parseIpv4Payload_udp hd hwhole hproto le_rfl hsize',
    parseIpv4Payload_udp (valid_reassembled hfrag checksum hd) hchain hfirst hk' hlong]
  obtain ⟨hsource, hdestination⟩ := addresses_reassembled hfrag checksum
  have htcp : d.protocol ≠ kIpprotoTcp := by
    rw [hproto]
    decide
  simp only [udpMetadata, hl4, hsource, hdestination, l4At_options, Option.some_inj,
    exists_eq_left', PacketMetadata.mk.injEq, SpellsSame, htcp, true_and, and_true,
    IsEmpty.forall_iff]

/-- A TCP datagram, whole and reassembled. -/
theorem tcp_same_iff (hd : d.Valid) (hproto : d.protocol = kIpprotoTcp)
    (hmin : kTcpHdrSize ≤ tcpHeaderLength d.payload)
    (hmax : tcpHeaderLength d.payload ≤ d.payload.length) :
    (∃ metadata, parseIpv4Payload whole d.headerLen d.hdr = some metadata ∧
        parseIpv4Payload chain (kIpv4HdrSize + k) (d.reassembled first checksum).hdr =
          some metadata) ↔ d.SpellsSame k := by
  have hl4 := l4At_reassembled hfrag checksum k
  have htotal := totalLength_reassembled hfrag checksum
  have hfirst : (d.reassembled first checksum).protocol = kIpprotoTcp :=
    (hfrag.same first List.mem_cons_self).1.trans hproto
  have hk' : k ≤ (d.reassembled first checksum).options.length := hfrag.options ▸ hk
  have hlong : kTcpHdrSize ≤ ((d.reassembled first checksum).l4At k).length := by
    rw [hl4, l4At, List.length_drop, List.length_append]
    omega
  have hsize' : kTcpHdrSize ≤ (d.l4At d.options.length).length := by
    rw [l4At_options]
    exact hmin.trans hmax
  have hlength : d.totalLength = kIpv4HdrSize + d.options.length + d.payload.length := rfl
  have hshort : tcpHeaderLength (d.l4At k) ≤ 60 := tcpHeaderLength_le _
  have hshort' : tcpHeaderLength d.payload ≤ 60 := tcpHeaderLength_le _
  have hoptions := hd.options_le
  rw [headerLen, parseIpv4Payload_tcp hd hwhole hproto le_rfl hsize',
    parseIpv4Payload_tcp (valid_reassembled hfrag checksum hd) hchain hfirst hk' hlong,
    l4At_options, hl4, htotal, if_neg (by rw [hlength, not_or]; omega)]
  obtain ⟨hsource, hdestination⟩ := addresses_reassembled hfrag checksum
  have hmeta : (d.reassembled first checksum).tcpMetadata k = d.tcpMetadata d.options.length ↔
      d.SpellsSame k := by
    simp only [tcpMetadata, hl4, htotal, hsource, hdestination, l4At_options,
      PacketMetadata.mk.injEq, SpellsSame, hproto, true_and, and_true, forall_const]
    have hoffsets : BitVec.ofNat 32 (kEtherHdrSize + (kIpv4HdrSize + k) +
          tcpHeaderLength (d.l4At k)) =
        BitVec.ofNat 32 (kEtherHdrSize + (kIpv4HdrSize + d.options.length) +
          tcpHeaderLength d.payload) ↔
        k + tcpHeaderLength (d.l4At k) = d.options.length + tcpHeaderLength d.payload := by
      rw [← BitVec.toNat_inj, BitVec.toNat_ofNat, BitVec.toNat_ofNat, kEtherHdrSize, kIpv4HdrSize]
      omega
    rw [hoffsets]
    constructor
    · rintro ⟨hsrc, hdst, hseq, hoffset, -, hflags⟩
      exact ⟨hsrc, hdst, hseq, hflags, hoffset⟩
    · rintro ⟨hsrc, hdst, hseq, hflags, hoffset⟩
      refine ⟨hsrc, hdst, hseq, hoffset, congrArg (BitVec.ofNat 32) ?_, hflags⟩
      omega
  constructor
  · rintro ⟨metadata, hsome, hchain'⟩
    split at hchain'
    · cases hchain'
    · exact hmeta.mp (Option.some_inj.mp (hchain'.trans hsome.symm))
  · intro hspells
    have hoffset := (hspells.2.2 hproto).2.2
    rw [if_neg (by rw [hlength, not_or]; omega)]
    exact ⟨_, rfl, congrArg some (hmeta.mpr hspells)⟩

end Reassembled

end Ipv4Packet

/-- **When fragments are parsed as the whole datagram.**  For every valid fragmentation of a TCP or
UDP datagram and every order of arrival, the fragment that comes last gets the metadata of the whole
datagram exactly when its IPv4 header is as long as that of the datagram, or the bytes behind a
header of its length happen to spell the same layer-4 fields. -/
theorem fragments_transparent_iff (lib : FragLibrary φ) (d first : Ipv4Packet)
    (rest : List Ipv4Packet) (arrivals : List FragmentArrival) (last : FragmentArrival)
    (whole chain : Mbuf) (tsc : BitVec 64) (fragments : φ) (hd : d.WellFormed)
    (hfrag : Ipv4Packet.Fragmentation d first rest)
    (hperm : ((arrivals ++ [last]).map FragmentArrival.fragment).Perm (first :: rest))
    (hintact : ∀ a ∈ arrivals ++ [last], a.Intact) (hwhole : whole.bytes = d.bytes)
    (hlib : lib.Collects chain last arrivals fragments)
    (hchain : ∃ checksum, chain.bytes = (d.reassembled first checksum).bytes) :
    (∃ metadata,
        (parsePacketOwned (some lib) whole tsc fragments).1 = .parsed metadata whole false ∧
          parseArrivals lib (arrivals ++ [last]) fragments =
            List.replicate arrivals.length .waitingForFragments ++
              [.parsed metadata chain true]) ↔
      last.fragment.headerLen = d.headerLen ∨ d.SpellsSame last.fragment.options.length := by
  obtain ⟨checksum, hchain⟩ := hchain
  have hmem : ∀ a ∈ arrivals ++ [last], a.fragment ∈ first :: rest := fun a ha ↦
    hperm.subset (List.mem_map_of_mem ha)
  have hlast := hmem last (List.mem_append_right _ (List.mem_singleton_self last))
  have hk : last.fragment.options.length ≤ d.options.length := by
    rcases List.mem_cons.mp hlast with h | h
    · rw [h, hfrag.options]
    · exact hfrag.copied _ h
  have hshort : 0 + ((first :: rest).flatMap Ipv4Packet.payload).length < 2 ^ 16 := by
    have htotal := hd.valid.total
    rw [Ipv4Packet.totalLength] at htotal
    rw [hfrag.payload]
    omega
  have hseveral : 2 ≤ (first :: rest).length :=
    Nat.succ_le_succ (List.length_pos_iff.mpr hfrag.several)
  have hfragment := Ipv4Packet.isFragment_of_consecutive hfrag.consecutive hfrag.valid
    (.inr hseveral) hshort
  rw [(Ipv4Packet.In.parse_whole hd.valid ⟨[], by rw [hwhole, List.append_nil]⟩ hd.whole) (some lib)
    tsc fragments, parseArrivals_eq hlib (fun a ha ↦ hfrag.valid _ (hmem a ha))
    (fun a ha ↦ hfragment _ (hmem a ha)) hintact
    (Ipv4Packet.valid_reassembled hfrag checksum hd.valid) hchain]
  have hsame : (∃ metadata, parseIpv4Payload whole d.headerLen d.hdr = some metadata ∧
      parseIpv4Payload chain last.fragment.headerLen (d.reassembled first checksum).hdr =
        some metadata) ↔ d.SpellsSame last.fragment.options.length := by
    rcases hd.l4 with ⟨hproto, hmin, hmax⟩ | ⟨hproto, hsize⟩
    · exact Ipv4Packet.tcp_same_iff hfrag checksum hwhole hchain hk hd.valid hproto hmin hmax
    · exact Ipv4Packet.udp_same_iff hfrag checksum hwhole hchain hk hd.valid hproto hsize
  have hequal : last.fragment.headerLen = d.headerLen →
      d.SpellsSame last.fragment.options.length := by
    intro h
    rw [Nat.add_left_cancel h]
    exact d.spellsSame_self
  rw [or_iff_right_of_imp hequal, ← hsame]
  refine exists_congr fun metadata ↦ and_congr ?_ ?_
  · cases parseIpv4Payload whole d.headerLen d.hdr with
    | none => simp [ParseResult.ofOption]
    | some found => simp [ParseResult.ofOption]
  · rw [List.append_cancel_left_eq, List.singleton_inj]
    cases parseIpv4Payload chain last.fragment.headerLen (d.reassembled first checksum).hdr with
    | none => simp [ParseResult.ofOption]
    | some found => simp [ParseResult.ofOption]

/-! ## Two fragments -/

/-- A second fragment behind a first: the headers of the first, corrected, and the data of both. -/
def joinFragments (l2Len : Nat) (first second : Mbuf) (l3Len : Nat) : Mbuf :=
  let totalLength := first.bytes.length - l2Len + (second.bytes.length - l2Len - l3Len)
  let corrected := ((first.store (l2Len + 2) (be16 (BitVec.ofNat 16 totalLength))).store
    (l2Len + 6) [0, 0]).store (l2Len + 10) [0, 0]
  { corrected with
    next := corrected.next ++
      { second.head with data := second.head.data.drop (l2Len + l3Len) } :: second.next }

/-- A fragment table for datagrams of two fragments that come one after the other. -/
def pairLibrary : FragLibrary (List (Mbuf × Nat)) where
  rteIpv4FragReassemblePacket := fun packet l2Len l3Len _ table ↦
    match table with
    | [] => (none, [(packet, l3Len)])
    | (other, otherLen) :: table =>
        if rteBeToCpu16 (load16 packet.bytes (l2Len + 6)) &&& kIpv4HdrOffsetMask = 0 then
          (some (joinFragments l2Len packet other otherLen), table)
        else (some (joinFragments l2Len other packet l3Len), table)
  rteIpv6FragReassemblePacket := fun packet _ l3Len _ table ↦ (none, (packet, l3Len) :: table)

/-- A UDP datagram that records its route, an option that is not copied to fragments. -/
def recordedDatagram : Ipv4Packet where
  macs := List.replicate 12 0
  protocol := kIpprotoUdp
  source := 0x0A000001
  destination := 0x0A000002
  options := [7, 7, 4, 0, 0, 0, 0, 0]
  payload := [0x27, 0x10, 0x00, 0x35, 0x00, 0x10, 0, 0, 1, 2, 3, 4, 5, 6, 7, 8]

/-- Its first fragment. -/
def recordedFirst : Ipv4Packet :=
  { recordedDatagram with fragment := 0x2000, payload := recordedDatagram.payload.take 8 }

/-- Its second fragment. -/
def recordedSecond : Ipv4Packet :=
  { recordedDatagram with
    fragment := 1, options := [], payload := recordedDatagram.payload.drop 8 }

/-- A packet in a single mbuf. -/
def Ipv4Packet.inMbuf (p : Ipv4Packet) (address : Nat) : Mbuf := ⟨⟨address, p.bytes⟩, []⟩

/-- The arrival of the first fragment. -/
def firstArrival : FragmentArrival := ⟨recordedFirst, recordedFirst.inMbuf 1, 0⟩

/-- The arrival of the second fragment. -/
def secondArrival : FragmentArrival := ⟨recordedSecond, recordedSecond.inMbuf 2, 0⟩

theorem recorded_wellFormed : recordedDatagram.WellFormed :=
  ⟨⟨rfl, rfl, by decide, by decide⟩, by decide +kernel, .inr ⟨rfl, by decide⟩⟩

theorem recorded_fragmentation :
    Ipv4Packet.Fragmentation recordedDatagram recordedFirst [recordedSecond] where
  valid := by
    simp only [List.forall_mem_cons]
    exact ⟨⟨rfl, rfl, by decide, by decide⟩, ⟨rfl, rfl, by decide, by decide⟩, by simp⟩
  several := List.cons_ne_nil _ _
  consecutive := ⟨rfl, by decide, by decide, rfl⟩
  payload := rfl
  first_payload := by decide
  options := rfl
  copied := by
    simp only [List.forall_mem_cons]
    exact ⟨by decide, by simp⟩
  same := by
    simp only [List.forall_mem_cons]
    exact ⟨⟨rfl, rfl, rfl, rfl⟩, ⟨rfl, rfl, rfl, rfl⟩, by simp⟩

/-- The second fragment comes first, and the first one completes the datagram. -/
theorem fragments_transparent_reversed :
    ∃ metadata,
      (parsePacketOwned (some pairLibrary) (recordedDatagram.inMbuf 3) 0 []).1 =
          .parsed metadata (recordedDatagram.inMbuf 3) false ∧
        parseArrivals pairLibrary [secondArrival, firstArrival] [] =
          [.waitingForFragments, .parsed metadata
            (joinFragments kEtherHdrSize firstArrival.mbuf secondArrival.mbuf 20) true] := by
  refine (fragments_transparent_iff pairLibrary recordedDatagram recordedFirst [recordedSecond]
    [secondArrival] firstArrival (recordedDatagram.inMbuf 3)
    (joinFragments kEtherHdrSize firstArrival.mbuf secondArrival.mbuf 20) 0 [] recorded_wellFormed
    recorded_fragmentation (.swap _ _ _) ?_ (List.append_nil _) ⟨rfl, rfl⟩
    ⟨0, by decide +kernel⟩).mpr (.inl rfl)
  simp only [List.cons_append, List.nil_append, List.forall_mem_cons]
  exact ⟨⟨⟨[], by decide +kernel⟩, by decide⟩, ⟨⟨[], by decide +kernel⟩, by decide⟩, by simp⟩

/-- The fragments come in order, and the ports are taken from the recorded route. -/
theorem fragments_in_order_misread :
    recordedDatagram.WellFormed ∧
      Ipv4Packet.Fragmentation recordedDatagram recordedFirst [recordedSecond] ∧
      ∃ metadata metadata',
        (parsePacketOwned (some pairLibrary) (recordedDatagram.inMbuf 3) 0 []).1 =
            .parsed metadata (recordedDatagram.inMbuf 3) false ∧
          parseArrivals pairLibrary [firstArrival, secondArrival] [] =
            [.waitingForFragments, .parsed metadata'
              (joinFragments kEtherHdrSize firstArrival.mbuf secondArrival.mbuf 20) true] ∧
          metadata.sourcePortBe = 0x1027 ∧ metadata'.sourcePortBe = 0x0707 ∧
          metadata' ≠ metadata := by
  refine ⟨recorded_wellFormed, recorded_fragmentation, _, _, rfl, rfl, ?_, ?_, ?_⟩
  · decide +kernel
  · decide +kernel
  · decide +kernel

end DpdkSpi
