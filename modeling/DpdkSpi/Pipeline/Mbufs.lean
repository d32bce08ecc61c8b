import DpdkSpi.Lib.Families
import DpdkSpi.Packet.Fragments
import DpdkSpi.Pipeline.Drop
import DpdkSpi.Pipeline.Effects
import Mathlib.Data.List.TakeWhile

/-!
# Who owns an mbuf

Every mbuf of a burst ends up staged, freed or with the fragment table.  The pointers that a burst
stages and frees are those `ParseReceivedPackets` keeps, and freeing or sending a packet reaches
the mbufs of its chain from that pointer on.  For a packet that completes a datagram and then does
not parse, `ParseReceivedPackets` keeps the pointer it received, which may be in the middle of the
chain.
-/

namespace DpdkSpi

variable {cap : Nat} {μ σ φ ρ : Type}

/-! ## Pointers of a burst -/

/-- Header rewriting works in place. -/
structure Services.InPlace {α : Type} (pointer : μ → α) (svc : Services μ σ) : Prop where
  l3 : ∀ packet srcAddr dstAddr,
    pointer (svc.updateL3ForwardHeaders packet srcAddr dstAddr).2 = pointer packet
  l2 : ∀ packet srcAddr port, pointer (svc.updateL2ForwardMacs packet srcAddr port) = pointer packet

/-- Every port id. -/
def allPorts : List (BitVec 16) := (List.finRange (2 ^ 16)).map BitVec.ofFin

theorem mem_allPorts (p : BitVec 16) : p ∈ allPorts :=
  List.mem_map.mpr ⟨p.toFin, List.mem_finRange _, rfl⟩

theorem nodup_allPorts : allPorts.Nodup :=
  (List.nodup_finRange _).map fun _ _ h ↦ congrArg BitVec.toFin h

attribute [irreducible] allPorts

/-- The packets that are staged or freed. -/
def BurstState.handedOn (st : BurstState cap μ σ) : List μ :=
  allPorts.flatMap st.transmitBuffers ++ st.freed

/-- The pointer in the slot of a packet. -/
def PacketSlot.packet? : PacketSlot μ → Option μ
  | .waiting => none
  | .unmapped packet => some packet
  | .mapped packet _ => some packet

section Pointers

variable {α : Type} {pointer : μ → α} {ctx : WorkerContext} {svc : Services μ σ}

theorem pointer_prepareAndRewriteHeaders (hplace : svc.InPlace pointer) (transmitPort : BitVec 16)
    (packet : μ) :
    pointer (prepareAndRewriteHeaders ctx svc transmitPort packet).2 = pointer packet := by
  unfold prepareAndRewriteHeaders
  cases ctx.portMacAddress transmitPort with
  | none => rfl
  | some transmitMac =>
      dsimp only
      split
      · cases getEthernetDestination (ctx.ethernetDestinations.getD []) transmitPort with
        | none => rfl
        | some destinationMac => exact hplace.l3 packet transmitMac destinationMac
      · split
        · exact hplace.l2 packet transmitMac transmitPort
        · rfl

theorem handedOn_count (st : BurstState cap μ σ) (f : BurstCounters → BurstCounters) :
    (st.count f).handedOn = st.handedOn := rfl

theorem map_handedOn_dropPacket (pointer : μ → α) (packet : μ) (st : BurstState cap μ σ) :
    ((st.dropPacket packet).handedOn.map pointer).Perm
      (pointer packet :: st.handedOn.map pointer) := by
  have hfreed : (st.dropPacket packet).handedOn = st.handedOn ++ [packet] := by
    rw [BurstState.handedOn, BurstState.handedOn, List.append_assoc]
    rfl
  rw [hfreed, List.map_append, List.map_singleton]
  exact List.perm_append_singleton _ _

theorem map_handedOn_enqueuePacket (pointer : μ → α) (packet : μ) (transmitPort : BitVec 16)
    (st : BurstState cap μ σ) :
    ((st.enqueuePacket packet transmitPort).handedOn.map pointer).Perm
      (pointer packet :: st.handedOn.map pointer) := by
  have hone := Lib.flatMap_perm_of_append nodup_allPorts (mem_allPorts transmitPort)
    (st.enqueuePacket_self packet transmitPort)
    fun p hp ↦ BurstState.enqueuePacket_of_ne packet hp st
  have hfreed : (st.enqueuePacket packet transmitPort).freed = st.freed := rfl
  have hall := (hone.append_right st.freed).map pointer
  rw [List.cons_append, List.map_cons] at hall
  rw [BurstState.handedOn, BurstState.handedOn, hfreed]
  exact hall

theorem Disposes.handedOn (hplace : svc.InPlace pointer) {packet : μ} {port : BitVec 16}
    {classification : PacketClassification} {st st' : BurstState cap μ σ}
    (h : Disposes ctx svc packet port classification st st') :
    (st'.handedOn.map pointer).Perm (pointer packet :: st.handedOn.map pointer) := by
  cases h with
  | byRule hmatched hst =>
      rw [hst, ← handedOn_count st fun c ↦ { c with droppedByRule := c.droppedByRule + 1 }]
      exact map_handedOn_dropPacket pointer packet _
  | dropped hst =>
      rw [hst]
      exact map_handedOn_dropPacket pointer packet st
  | stuck transmitPort hst =>
      rw [hst, ← pointer_prepareAndRewriteHeaders hplace transmitPort packet]
      exact map_handedOn_dropPacket pointer _ st
  | enqueued transmitPort hport hlt hrewrite hst =>
      rw [hst, ← pointer_prepareAndRewriteHeaders hplace transmitPort packet]
      exact map_handedOn_enqueuePacket pointer _ transmitPort st

theorem Finalizes.handedOn (hplace : svc.InPlace pointer) {port : BitVec 16}
    {st st' : BurstState cap μ σ} {slot : PacketSlot μ}
    (h : Finalizes ctx svc port st st' slot) :
    (st'.handedOn.map pointer).Perm
      ((slot.packet?.toList).map pointer ++ st.handedOn.map pointer) := by
  cases h with
  | waiting hst =>
      rw [hst, PacketSlot.packet?, Option.toList_none, List.map_nil, List.nil_append]
  | unmapped hst =>
      rw [hst, PacketSlot.packet?, Option.toList_some, List.map_singleton, List.singleton_append]
      exact map_handedOn_dropPacket pointer _ st
  | mapped mid classification hdecides hdisposes =>
      have hsame : mid.handedOn = st.handedOn := by
        rw [BurstState.handedOn, BurstState.handedOn, hdecides.buffers, hdecides.freed]
      have hone := hdisposes.handedOn hplace
      rw [PacketSlot.packet?, Option.toList_some, List.map_singleton, List.singleton_append,
        ← hsame]
      exact hone

/-- **Phase 3 stages or frees the pointer of every slot**, once. -/
theorem foldl_finalizePacket_handedOn (hplace : svc.InPlace pointer) (port : BitVec 16)
    (b : ParsedBurst) (spiMatches : List ClassificationResult) (slots : List (PacketSlot μ))
    (st : BurstState cap μ σ) :
    ((slots.foldl (finalizePacket ctx svc port b spiMatches) st).handedOn.map pointer).Perm
      ((slots.filterMap PacketSlot.packet?).map pointer ++ st.handedOn.map pointer) := by
  induction slots generalizing st with
  | nil => rw [List.foldl_nil, List.filterMap_nil, List.map_nil, List.nil_append]
  | cons slot slots ih =>
      have hone := (finalizePacket_finalizes ctx svc port b spiMatches st slot).handedOn hplace
      have hslots : (slot :: slots).filterMap PacketSlot.packet? =
          slot.packet?.toList ++ slots.filterMap PacketSlot.packet? := by
        rw [List.filterMap_cons]
        cases slot.packet? <;> rfl
      rw [List.foldl_cons, hslots, List.map_append, List.append_assoc]
      refine (ih _).trans ((hone.append_left _).trans ?_)
      exact List.perm_append_comm_assoc _ _ _

end Pointers

/-! ## Chains and pointers into them -/

/-- The mbufs that `rte_pktmbuf_free` and `rte_eth_tx_burst` reach from a pointer into a chain. -/
def Mbuf.chainFrom (m : Mbuf) (pointer : Nat) : List Nat :=
  m.addresses.dropWhile fun address ↦ address ≠ pointer

/-- The mbufs reached from a pointer into one of some chains. -/
def reach (chains : List Mbuf) (pointer : Nat) : List Nat :=
  chains.flatMap fun m ↦ m.chainFrom pointer

theorem Mbuf.chainFrom_address (m : Mbuf) : m.chainFrom m.address = m.addresses := by
  show List.dropWhile _ (m.address :: m.next.map Segment.address) = _
  rw [List.dropWhile_cons_of_neg (by simp)]
  rfl

theorem Mbuf.chainFrom_of_notMem {m : Mbuf} {pointer : Nat} (h : pointer ∉ m.addresses) :
    m.chainFrom pointer = [] := by
  refine List.dropWhile_eq_nil_iff.mpr fun address haddress ↦ ?_
  exact decide_eq_true fun heq ↦ h (heq ▸ haddress)

theorem Mbuf.length_chainFrom_le (m : Mbuf) (pointer : Nat) :
    (m.chainFrom pointer).length ≤ m.addresses.length :=
  (List.dropWhile_sublist _).length_le

/-- Only from its head the whole chain is reached. -/
theorem Mbuf.eq_address_of_length {m : Mbuf} {pointer : Nat}
    (h : (m.chainFrom pointer).length = m.addresses.length) : pointer = m.address := by
  by_contra hne
  have hdrop : m.chainFrom pointer =
      (m.next.map Segment.address).dropWhile fun address ↦ address ≠ pointer :=
    List.dropWhile_cons_of_pos (decide_eq_true fun heq ↦ hne heq.symm)
  have hle : (m.chainFrom pointer).length ≤ (m.next.map Segment.address).length := by
    rw [hdrop]
    exact (List.dropWhile_sublist _).length_le
  rw [h] at hle
  exact Nat.not_succ_le_self _ hle

theorem mem_flatMap_of_forall₂ {pointers : List Nat} {chains : List Mbuf}
    (hmem : List.Forall₂ (fun p m ↦ p ∈ Mbuf.addresses m) pointers chains) {p : Nat}
    (hp : p ∈ pointers) : p ∈ chains.flatMap Mbuf.addresses := by
  induction hmem with
  | nil => exact absurd hp List.not_mem_nil
  | cons hhead hrest ih =>
      rw [List.flatMap_cons, List.mem_append]
      rcases List.mem_cons.mp hp with rfl | hp
      · exact .inl hhead
      · exact .inr (ih hp)

/-- Pointers into disjoint chains, one for each: what they reach. -/
theorem flatMap_reach {pointers : List Nat} {chains : List Mbuf}
    (hmem : List.Forall₂ (fun p m ↦ p ∈ Mbuf.addresses m) pointers chains)
    (hnodup : (chains.flatMap Mbuf.addresses).Nodup) :
    pointers.flatMap (reach chains) =
      (List.zipWith (fun p m ↦ Mbuf.chainFrom m p) pointers chains).flatten := by
  induction hmem with
  | nil => rfl
  | @cons p m pointers chains hp hrest ih =>
      rw [List.flatMap_cons, List.nodup_append] at hnodup
      obtain ⟨-, hnodup, hdisjoint⟩ := hnodup
      have hnone : reach chains p = [] := by
        refine List.flatMap_eq_nil_iff.mpr fun m' hm' ↦ Mbuf.chainFrom_of_notMem fun hp' ↦ ?_
        exact hdisjoint p hp p (List.mem_flatMap.mpr ⟨m', hm', hp'⟩) rfl
      have hothers : pointers.flatMap (reach (m :: chains)) = pointers.flatMap (reach chains) := by
        refine List.flatMap_congr fun p' hp' ↦ ?_
        have hin : p' ∈ chains.flatMap Mbuf.addresses := mem_flatMap_of_forall₂ hrest hp'
        rw [reach, List.flatMap_cons, Mbuf.chainFrom_of_notMem fun h ↦ hdisjoint p' h p' hin rfl]
        rfl
      rw [List.flatMap_cons, hothers, ih hnodup, List.zipWith_cons_cons, List.flatten_cons, reach,
        List.flatMap_cons]
      rw [reach] at hnone
      rw [hnone, List.append_nil]

/-- They reach every mbuf exactly when each is the head of its chain. -/
theorem reach_perm_iff {pointers : List Nat} {chains : List Mbuf}
    (hmem : List.Forall₂ (fun p m ↦ p ∈ Mbuf.addresses m) pointers chains)
    (hnodup : (chains.flatMap Mbuf.addresses).Nodup) :
    (pointers.flatMap (reach chains)).Perm (chains.flatMap Mbuf.addresses) ↔
      List.Forall₂ (fun p m ↦ p = Mbuf.address m) pointers chains := by
  rw [flatMap_reach hmem hnodup]
  have hle : ∀ {pointers : List Nat} {chains : List Mbuf},
      List.Forall₂ (fun p m ↦ p ∈ Mbuf.addresses m) pointers chains →
        (List.zipWith (fun p m ↦ Mbuf.chainFrom m p) pointers chains).flatten.length ≤
          (chains.flatMap Mbuf.addresses).length := by
    intro pointers chains h
    induction h with
    | nil => exact le_rfl
    | @cons p m pointers chains hp hrest ih =>
        rw [List.zipWith_cons_cons, List.flatten_cons, List.flatMap_cons, List.length_append,
          List.length_append]
        exact Nat.add_le_add (m.length_chainFrom_le p) ih
  constructor
  · intro hperm
    have hlength := hperm.length_eq
    clear hperm hnodup
    induction hmem with
    | nil => exact .nil
    | @cons p m pointers chains hp hrest ih =>
        have hrest' := hle hrest
        have hhead := m.length_chainFrom_le p
        rw [List.zipWith_cons_cons, List.flatten_cons, List.flatMap_cons, List.length_append,
          List.length_append] at hlength
        exact .cons (Mbuf.eq_address_of_length (by omega)) (ih (by omega))
  · intro hheads
    have heq : (List.zipWith (fun p m ↦ Mbuf.chainFrom m p) pointers chains).flatten =
        chains.flatMap Mbuf.addresses := by
      clear hmem hnodup
      induction hheads with
      | nil => rfl
      | @cons p m pointers chains hp hrest ih =>
          rw [List.zipWith_cons_cons, List.flatten_cons, List.flatMap_cons, ih, hp,
            m.chainFrom_address]
    rw [heq]

/-! ## What the fragment library owns -/

/-- What a call of the fragment library does to the mbufs it owns: it keeps the given packet, or
hands back a chain with it. -/
def Hands (held : φ → List Nat) (packet : Mbuf) (fragments : φ) : Option Mbuf × φ → Prop
  | (none, fragments') => (held fragments').Perm (packet.addresses ++ held fragments)
  | (some chain, fragments') => packet.address ∈ chain.addresses ∧
      (chain.addresses ++ held fragments').Perm (packet.addresses ++ held fragments)

/-- The mbufs that were given to the library and not handed back are `held`. -/
structure FragLibrary.Owns (lib : FragLibrary φ) (held : φ → List Nat) : Prop where
  ipv4 : ∀ packet l2Len l3Len tsc fragments, Hands held packet fragments
    (lib.rteIpv4FragReassemblePacket packet l2Len l3Len tsc fragments)
  ipv6 : ∀ packet l2Len l3Len tsc fragments, Hands held packet fragments
    (lib.rteIpv6FragReassemblePacket packet l2Len l3Len tsc fragments)

/-- The chain that parsing leaves with the caller. -/
def ParseResult.chain? : ParseResult μ → Option μ
  | .parsed _ packet _ => some packet
  | .waitingForFragments => none
  | .malformed packet => some packet

theorem ParseResult.chain?_ofOption (packet : μ) (wasReassembled : Bool)
    (metadata : Option PacketMetadata) :
    (ParseResult.ofOption packet wasReassembled metadata).chain? = some packet := by
  cases metadata <;> rfl

/-- Parsing is such a call: a packet that is no fragment is handed back at once. -/
theorem hands_parsePacketOwned {fragTbl : Option (FragLibrary φ)} {held : φ → List Nat}
    (howns : ∀ lib ∈ fragTbl, lib.Owns held) (packet : Mbuf) (tsc : BitVec 64) (fragments : φ) :
    Hands held packet fragments
      ((parsePacketOwned fragTbl packet tsc fragments).1.chain?,
        (parsePacketOwned fragTbl packet tsc fragments).2) := by
  have hcall : ∀ {r : Option Mbuf × φ}, Hands held packet fragments r →
      ParseResult.OfReassembly (parsePacketOwned fragTbl packet tsc fragments) r →
        Hands held packet fragments
          ((parsePacketOwned fragTbl packet tsc fragments).1.chain?,
            (parsePacketOwned fragTbl packet tsc fragments).2) := by
    rintro ⟨_ | chain, fragments'⟩ hr hresult
    · rw [ParseResult.OfReassembly] at hresult
      rw [hresult]
      exact hr
    · obtain ⟨metadata, hresult⟩ := hresult
      rw [hresult, ParseResult.chain?_ofOption]
      exact hr
  cases parsePacketOwned_parses fragTbl packet tsc fragments with
  | kept metadata h =>
      rw [h, ParseResult.chain?_ofOption]
      exact ⟨List.mem_cons_self, .refl _⟩
  | ipv4 lib hlib l3Len h => exact hcall ((howns lib hlib).ipv4 ..) h
  | ipv6 lib hlib h => exact hcall ((howns lib hlib).ipv6 ..) h

/-! ## A burst -/

/-- The chains that parsing leaves with the worker. -/
def liveChains (parse : Mbuf → φ → ParseResult Mbuf × φ) : List Mbuf → φ → List Mbuf
  | [], _ => []
  | packet :: rest, fragments =>
      (parse packet fragments).1.chain?.toList ++ liveChains parse rest (parse packet fragments).2

/-- **Mbufs are conserved** by a burst: the mbufs reached from the pointers that it stages and
frees, together with those the fragment library owns behind it, are those of the received packets
and those the library owned before, each as often. -/
def MbufsConserved (ctx : WorkerContext) (ck : Cksums) (fragTbl : Option (FragLibrary φ))
    (svc : Services Mbuf ρ) (held : φ → List Nat) (port : BitVec 16) (received : List Mbuf)
    (st : BurstState cap Mbuf (φ × ρ)) : Prop :=
  let st' := processPortBurst ctx (mbufServices ck fragTbl svc) port received st
  let live := liveChains (fun packet ↦ parsePacketOwned fragTbl packet ctx.currentBurstTsc) received
    st.world.1
  ∃ pointers, (st'.handedOn.map Mbuf.address).Perm (pointers ++ st.handedOn.map Mbuf.address) ∧
    (pointers.flatMap (reach live) ++ held st'.world.1).Perm
      (received.flatMap Mbuf.addresses ++ held st.world.1)

/-- A datagram that is complete and does not parse was completed by the packet that now is the
head of its chain. -/
def CompletedByHead (parse : Mbuf → φ → ParseResult Mbuf × φ) : List Mbuf → φ → Prop
  | [], _ => True
  | packet :: rest, fragments =>
      (∀ chain, (parse packet fragments).1 = .malformed chain → chain.address = packet.address) ∧
        CompletedByHead parse rest (parse packet fragments).2

section Burst

variable (ctx : WorkerContext) (ck : Cksums) {fragTbl : Option (FragLibrary φ)}
  (svc : Services Mbuf ρ) {held : φ → List Nat}

theorem inPlace_mbufServices :
    (mbufServices ck fragTbl svc).InPlace Mbuf.address where
  l3 packet srcAddr dstAddr :=
    (List.cons.inj (addresses_updateL3ForwardHeaders ck packet srcAddr dstAddr)).1
  l2 _ _ _ := rfl

/-- A decision leaves the fragment table alone. -/
theorem foldl_finalizePacket_fragments (port : BitVec 16) (b : ParsedBurst)
    (spiMatches : List ClassificationResult) (slots : List (PacketSlot Mbuf))
    (st : BurstState cap Mbuf (φ × ρ)) :
    (slots.foldl (finalizePacket ctx (mbufServices ck fragTbl svc) port b spiMatches)
      st).world.1 = st.world.1 := by
  induction slots generalizing st with
  | nil => rfl
  | cons slot slots ih =>
      rw [List.foldl_cons, ih]
      cases slot with
      | waiting => rfl
      | unmapped packet => rfl
      | mapped packet i =>
          have hself : Coupled Eq (Beside Eq st.world.1) st st := ⟨rfl, rfl, rfl, rfl, rfl⟩
          have hsvc : (mbufServices ck fragTbl svc).Couples (b.keyAt i)
              (Eq : FlowTable cap → FlowTable cap → Prop) (Beside Eq st.world.1) :=
            ((Services.respects_eq _).couples insertsRespect_eq (b.keyAt i)).beside
              (parsePacketOwned fragTbl) st.world.1
          exact (hself.finalizePacket hsvc ctx port packet rfl rfl rfl rfl fun _ ↦ rfl).world.1

open scoped List in
/-- The accounts of one call and of the calls behind it. -/
theorem perm_through (chain : List Nat) {packet live rest before between after : List Nat}
    (hone : (chain ++ between).Perm (packet ++ before))
    (hrest : (live ++ after).Perm (rest ++ between)) :
    ((chain ++ live) ++ after).Perm ((packet ++ rest) ++ before) := by
  calc (chain ++ live) ++ after ~ chain ++ (live ++ after) := by rw [List.append_assoc]
    _ ~ chain ++ (rest ++ between) := hrest.append_left chain
    _ ~ rest ++ (chain ++ between) := List.perm_append_comm_assoc _ _ _
    _ ~ rest ++ (packet ++ before) := hone.append_left rest
    _ ~ packet ++ (rest ++ before) := List.perm_append_comm_assoc _ _ _
    _ ~ (packet ++ rest) ++ before := by rw [List.append_assoc]

/-- What parsing a burst comes to: the pointers it keeps point into the chains it leaves, they are
their heads exactly when every datagram that does not parse was completed by its head, and no
mbuf is lost between the library and the worker. -/
theorem parseReceivedPackets_chains (howns : ∀ lib ∈ fragTbl, lib.Owns held)
    (packets : List Mbuf) (nParsed : Nat) (st : BurstState cap Mbuf (φ × ρ)) :
    let parse := fun packet ↦ parsePacketOwned fragTbl packet ctx.currentBurstTsc
    let r := parseReceivedPackets ctx (mbufServices ck fragTbl svc) packets nParsed st
    let pointers := (r.1.1.filterMap PacketSlot.packet?).map Mbuf.address
    let live := liveChains parse packets st.world.1
    List.Forall₂ (fun p m ↦ p ∈ Mbuf.addresses m) pointers live ∧
      (List.Forall₂ (fun p m ↦ p = Mbuf.address m) pointers live ↔
        CompletedByHead parse packets st.world.1) ∧
      (live.flatMap Mbuf.addresses ++ held r.2.world.1).Perm
        (packets.flatMap Mbuf.addresses ++ held st.world.1) := by
  intro parse
  induction packets generalizing nParsed st with
  | nil => exact ⟨.nil, iff_of_true .nil trivial, .refl _⟩
  | cons packet rest ih =>
      have hands := hands_parsePacketOwned howns packet ctx.currentBurstTsc st.world.1
      have hparse' : parsePacketOwned fragTbl packet ctx.currentBurstTsc st.world.1 =
        parse packet st.world.1 := rfl
      rw [hparse'] at hands
      have hworld : (mbufServices ck fragTbl svc).parsePacketOwned packet ctx.currentBurstTsc
          st.world = ((parse packet st.world.1).1, (parse packet st.world.1).2, st.world.2) := rfl
      dsimp only
      rw [parseReceivedPackets, hworld, CompletedByHead, liveChains]
      rcases hparse : parse packet st.world.1 with
        ⟨⟨metadata, packet', wasReassembled⟩ | _ | packet', fragments⟩
      · rw [hparse] at hands
        obtain ⟨hmem, hhead, hperm⟩ := ih (nParsed + 1)
          ({ st with world := (fragments, st.world.2) }.count fun c ↦
            { c with parsed := c.parsed + 1 })
        refine ⟨.cons List.mem_cons_self hmem, ?_, perm_through packet'.addresses hands.2 hperm⟩
        have hnever : ∀ chain, ParseResult.parsed metadata packet' wasReassembled =
            .malformed chain → chain.address = packet.address := fun _ h ↦ nomatch h
        exact List.forall₂_cons.trans (and_congr (iff_of_true rfl hnever) hhead)
      · rw [hparse] at hands
        obtain ⟨hmem, hhead, hperm⟩ := ih nParsed { st with world := (fragments, st.world.2) }
        have hnever : ∀ chain, (ParseResult.waitingForFragments : ParseResult Mbuf) =
            .malformed chain → chain.address = packet.address := fun _ h ↦ nomatch h
        exact ⟨hmem, hhead.trans (and_iff_right hnever).symm, perm_through [] hands hperm⟩
      · rw [hparse] at hands
        obtain ⟨hmem, hhead, hperm⟩ := ih nParsed
          ({ st with world := (fragments, st.world.2) }.count fun c ↦
            { c with malformed := c.malformed + 1 })
        refine ⟨.cons hands.1 hmem, ?_, perm_through packet'.addresses hands.2 hperm⟩
        have hone : packet.address = packet'.address ↔ ∀ chain, ParseResult.malformed packet' =
            .malformed chain → chain.address = packet.address :=
          ⟨fun h chain hchain ↦ ParseResult.malformed.inj hchain ▸ h.symm,
            fun h ↦ (h packet' rfl).symm⟩
        exact List.forall₂_cons.trans (and_congr hone hhead)

/-- The pointers of a burst and the fragment table behind it. -/
theorem processPortBurst_pointers (fragTbl : Option (FragLibrary φ)) (svc : Services Mbuf ρ)
    (port : BitVec 16) (received : List Mbuf) (st : BurstState cap Mbuf (φ × ρ)) :
    let parsed := parseReceivedPackets ctx (mbufServices ck fragTbl svc) received 0
      (st.count fun c ↦ { c with received := c.received + received.length })
    let st' := processPortBurst ctx (mbufServices ck fragTbl svc) port received st
    (st'.handedOn.map Mbuf.address).Perm
        ((parsed.1.1.filterMap PacketSlot.packet?).map Mbuf.address ++
          st.handedOn.map Mbuf.address) ∧
      st'.world.1 = parsed.2.world.1 := by
  obtain ⟨-, hbuffers, hfreed⟩ := openBurst_frame ctx (mbufServices ck fragTbl svc) received st
  have hopened : (openBurst ctx (mbufServices ck fragTbl svc) received st).2.handedOn =
      st.handedOn := by
    rw [BurstState.handedOn, BurstState.handedOn, hbuffers, hfreed]
  rw [processPortBurst_eq]
  refine ⟨?_, foldl_finalizePacket_fragments ctx ck svc port _ _ _ _⟩
  rw [← hopened]
  exact foldl_finalizePacket_handedOn (inPlace_mbufServices ck svc) port _ _ _ _

end Burst

/-- **When mbufs are conserved in queue mode.**  For every burst of distinct mbufs, this is exactly
when no datagram that is complete and does not parse was completed by another packet than the one
that now heads its chain. -/
theorem mbufs_conserved_iff (ctx : WorkerContext) (ck : Cksums)
    (fragTbl : Option (FragLibrary φ)) (svc : Services Mbuf ρ) (held : φ → List Nat)
    (port : BitVec 16) (received : List Mbuf) (st : BurstState cap Mbuf (φ × ρ))
    (howns : ∀ lib ∈ fragTbl, lib.Owns held)
    (hdistinct : (received.flatMap Mbuf.addresses ++ held st.world.1).Nodup) :
    MbufsConserved ctx ck fragTbl svc held port received st ↔
      CompletedByHead (fun packet ↦ parsePacketOwned fragTbl packet ctx.currentBurstTsc) received
        st.world.1 := by
  obtain ⟨hmem, hhead, hperm⟩ := parseReceivedPackets_chains ctx ck svc howns received 0
    (st.count fun c ↦ { c with received := c.received + received.length })
  obtain ⟨hhanded, hworld⟩ := processPortBurst_pointers ctx ck fragTbl svc port received st
  have hnodup := (hperm.nodup_iff.mpr hdistinct).of_append_left
  refine Iff.trans ?_ ((reach_perm_iff hmem hnodup).trans hhead)
  rw [MbufsConserved, hworld]
  constructor
  · rintro ⟨pointers, hpointers, hreach⟩
    have hsame := (List.perm_append_right_iff _).mp (hhanded.symm.trans hpointers)
    have hall := (List.perm_append_right_iff _).mp (hreach.trans hperm.symm)
    exact (hsame.flatMap_right _).trans hall
  · intro hreach
    exact ⟨_, hhanded, (hreach.append_right _).trans hperm⟩

/-! ## An ICMP datagram in two fragments -/

/-- Services with nothing behind them. -/
def bareServices : Services Mbuf Unit where
  dpdk := RuleTable.tcpDpdk
  parsePacketOwned := fun packet _ world ↦ (.malformed packet, world)
  hashPacketFlow := fun _ _ ↦ 0
  insertChoice := fun _ world ↦ ((5, some 0), world)
  pktmbufRead := fun _ _ _ ↦ none
  tcpReassembler := none
  extractTlsSni := fun _ ↦ none
  extractHttpHost := fun _ ↦ none
  extractHostname := fun _ _ ↦ none
  dpiLookup := fun _ world ↦ (⟨false, none⟩, world)
  updateL3ForwardHeaders := fun packet _ _ ↦ (false, packet)
  updateL2ForwardMacs := fun packet _ _ ↦ packet
  ringEnqueue := fun _ _ world ↦ (true, world)

/-- No checksums. -/
def zeroCksums : Cksums := ⟨fun _ ↦ 0, fun _ _ _ ↦ 0⟩

/-- A burst with empty tables. -/
def freshBurst : BurstState 8 Mbuf (List (Mbuf × Nat) × Unit) where
  flowTable := .new 8 true
  world := ([], ())

/-- The fragments in a table of `pairLibrary`. -/
def heldPairs (table : List (Mbuf × Nat)) : List Nat := table.flatMap fun f ↦ f.1.addresses

theorem addresses_joinFragments (l2Len : Nat) (first second : Mbuf) (l3Len : Nat) :
    (joinFragments l2Len first second l3Len).addresses = first.addresses ++ second.addresses := by
  show first.address :: (first.next ++ _ :: second.next).map Segment.address = _
  rw [List.map_append]
  rfl

theorem pairLibrary_owns : pairLibrary.Owns heldPairs := by
  constructor
  · intro packet l2Len l3Len tsc table
    cases table with
    | nil => exact .refl _
    | cons other table =>
        obtain ⟨other, otherLen⟩ := other
        unfold pairLibrary
        dsimp only
        split
        · refine ⟨?_, ?_⟩
          · rw [addresses_joinFragments]
            exact List.mem_append_left _ List.mem_cons_self
          · rw [addresses_joinFragments, List.append_assoc]
            exact .refl _
        · refine ⟨?_, ?_⟩
          · rw [addresses_joinFragments]
            exact List.mem_append_right _ List.mem_cons_self
          · rw [addresses_joinFragments, List.append_assoc]
            exact List.perm_append_comm_assoc _ _ _
  · intro packet l2Len l3Len tsc table
    exact .refl _

/-- The first fragment of an ICMP datagram. -/
def icmpFirst : Mbuf := { recordedFirst with protocol := 1 }.inMbuf 1

/-- The second fragment. -/
def icmpSecond : Mbuf := { recordedSecond with protocol := 1 }.inMbuf 2

/-- The first fragment comes last: freeing it frees both. -/
theorem mbufs_conserved_reversed :
    MbufsConserved dropTcp zeroCksums (some pairLibrary) bareServices heldPairs 0
      [icmpSecond, icmpFirst] freshBurst := by
  refine (mbufs_conserved_iff dropTcp zeroCksums (some pairLibrary) bareServices heldPairs 0
    [icmpSecond, icmpFirst] freshBurst ?_ (by decide)).mpr ⟨?_, ?_, trivial⟩
  · intro lib hlib
    obtain rfl := Option.mem_some_iff.mp hlib
    exact pairLibrary_owns
  · intro chain hchain
    cases hchain
  · intro chain hchain
    obtain rfl := ParseResult.malformed.inj hchain
    rfl

/-- The second fragment comes last: the datagram is complete, ICMP does not parse, and freeing the
second fragment leaves the first to nobody. -/
theorem mbuf_lost_in_order :
    ¬ MbufsConserved dropTcp zeroCksums (some pairLibrary) bareServices heldPairs 0
      [icmpFirst, icmpSecond] freshBurst := by
  rintro ⟨pointers, hpointers, hreach⟩
  obtain ⟨hhanded, hworld⟩ := processPortBurst_pointers dropTcp zeroCksums (some pairLibrary)
    bareServices 0 [icmpFirst, icmpSecond] freshBurst
  have hslots : ((parseReceivedPackets dropTcp
      (mbufServices zeroCksums (some pairLibrary) bareServices) [icmpFirst, icmpSecond] 0
      (freshBurst.count fun c ↦ { c with received := c.received + 2 })).1.1.filterMap
        PacketSlot.packet?).map Mbuf.address = [2] := by decide +kernel
  have hsame := (List.perm_append_right_iff _).mp (hhanded.symm.trans hpointers)
  obtain rfl : pointers = [2] := List.perm_singleton.mp (hsame.symm.trans (.of_eq hslots))
  rw [hworld] at hreach
  exact absurd hreach.length_eq (by decide +kernel)

end DpdkSpi
