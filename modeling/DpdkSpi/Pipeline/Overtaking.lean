import DpdkSpi.Pipeline.Cells
import DpdkSpi.Pipeline.Single
import DpdkSpi.Pipeline.Staging

/-!
# Packets that are overtaken in their burst

A burst looks all its keys up before it decides the first packet.  A packet that is looked up as a
miss is overtaken when an earlier packet of the burst has had a verdict cached for its flow by its
turn: alone it would get that verdict, in the burst the rules decide it once more.  Here the burst
and its packets one at a time are followed side by side, from packet to packet.
-/

namespace DpdkSpi

variable {cap : Nat} {μ φ ρ : Type}

/-! ## One at a time -/

section Statement

variable {σ : Type} (ctx : WorkerContext) (svc : Services μ σ) (port : BitVec 16)
  (packets : List μ) (st : BurstState cap μ σ)

/-- The packets of a port as bursts of one, at one time. -/
def oneAtATime : BurstState cap μ σ :=
  packets.foldl (fun st packet ↦ processPortBurst ctx svc port [packet] st) st

/-- The result that the bulk stages of the burst have for a parsed packet. -/
def bulkResult (i : Nat) : ClassificationResult :=
  let opened := openBurst ctx svc packets st
  (spiResults svc ctx.rules opened.1.2 opened.1.1).getD i {}

/-- The first verdict that the flow table has had for a flow, by the time `k` packets of the burst
have been decided. -/
def firstVerdict (k : Nat) (key : FlowKey) : Option Action :=
  (List.range (k + 1)).findSome? fun j ↦
    (burstAfter ctx svc port packets j st).flowTable.answer key

/-- The `k`-th packet of the burst, which is the `i`-th that parses, is looked up as a miss. -/
structure Missed (k i : Nat) (packet : μ) : Prop where
  slot : (openBurst ctx svc packets st).1.1[k]? = some (.mapped packet i)
  missed : ((openBurst ctx svc packets st).1.2.bulkAt i).valid = false

/-- By its turn, an earlier packet of the burst has had this verdict cached for its flow. -/
structure Overtaken (k i : Nat) (packet : μ) (action : Action) : Prop
    extends Missed ctx svc packets st k i packet where
  verdict : firstVerdict ctx svc port packets st k
    ((openBurst ctx svc packets st).1.2.keyAt i) = some action

/-- A packet that is not overtaken gets from the bulk stages what the rules have for it alone. -/
def LeadersFit : Prop :=
  ∀ {k i packet}, Missed ctx svc packets st k i packet →
    firstVerdict ctx svc port packets st k ((openBurst ctx svc packets st).1.2.keyAt i) = none →
      bulkResult ctx svc packets st i = burstSpi svc ctx.rules
        ((openBurst ctx svc packets st).1.2.metadataAt i)
        ((openBurst ctx svc packets st).1.2.keyAt i)

/-- No packet that is overtaken is searched for a hostname. -/
def OvertakenUnsearched : Prop :=
  ∀ {k i packet action}, Overtaken ctx svc port packets st k i packet action →
    dpiRoute ctx ((openBurst ctx svc packets st).1.2.metadataAt i)
      (bulkResult ctx svc packets st i) ≠ .inspected

/-- The rules send the packet where the verdict would have sent it. -/
def RulesAgree (i : Nat) (packet : μ) (action : Action) : Prop :=
  let metadata := (openBurst ctx svc packets st).1.2.metadataAt i
  SameDecision cap ctx svc packet port
    (ruleClassification metadata (bulkResult ctx svc packets st i))
    (cachedClassification metadata action)

variable {ctx svc port packets st}

theorem firstVerdict_zero (key : FlowKey) :
    firstVerdict ctx svc port packets st 0 key =
      (burstAfter ctx svc port packets 0 st).flowTable.answer key := by
  rw [firstVerdict, List.range_one, List.findSome?_singleton]

theorem firstVerdict_succ (k : Nat) (key : FlowKey) :
    firstVerdict ctx svc port packets st (k + 1) key =
      (firstVerdict ctx svc port packets st k key).or
        ((burstAfter ctx svc port packets (k + 1) st).flowTable.answer key) := by
  rw [firstVerdict, List.range_succ, List.findSome?_append, List.findSome?_singleton]
  rfl

theorem answer_of_firstVerdict_eq_none {k : Nat} {key : FlowKey}
    (h : firstVerdict ctx svc port packets st k key = none) :
    (burstAfter ctx svc port packets k st).flowTable.answer key = none :=
  List.findSome?_eq_none_iff.mp h k (List.mem_range.mpr k.lt_succ_self)

theorem oneAtATime_succ {k : Nat} {packet : μ} (hk : packets[k]? = some packet) :
    oneAtATime ctx svc port (packets.take (k + 1)) st =
      processPortBurst ctx svc port [packet] (oneAtATime ctx svc port (packets.take k) st) := by
  rw [oneAtATime, List.take_add_one, hk, Option.toList_some, List.foldl_append]
  rfl

variable (port)

theorem burstAfter_succ {k : Nat} {slot : PacketSlot μ}
    (hslot : (openBurst ctx svc packets st).1.1[k]? = some slot) :
    burstAfter ctx svc port packets (k + 1) st =
      finalizePacket ctx svc port (openBurst ctx svc packets st).1.2
        (spiResults svc ctx.rules (openBurst ctx svc packets st).1.2
          (openBurst ctx svc packets st).1.1)
        (burstAfter ctx svc port packets k st) slot :=
  beforePacket_succ ctx svc port _ _ hslot

/-- A packet whose flow had a verdict before the burst. -/
theorem burstAfter_hit {k i : Nat} {packet : μ}
    (hslot : (openBurst ctx svc packets st).1.1[k]? = some (.mapped packet i)) {action : Action}
    (hbulk : (openBurst ctx svc packets st).1.2.bulkAt i = BulkResult.ofAnswer (some action)) :
    ∃ f, burstAfter ctx svc port packets (k + 1) st = applyForwardDecision ctx svc packet port
      (cachedClassification ((openBurst ctx svc packets st).1.2.metadataAt i) action)
      ((burstAfter ctx svc port packets k st).count f) := by
  rw [burstAfter_succ port hslot, finalizePacket, hbulk]
  exact ⟨_, rfl⟩

/-- A packet that is looked up as a miss. -/
theorem Missed.burstAfter_succ {k i : Nat} {packet : μ}
    (h : Missed ctx svc packets st k i packet) :
    burstAfter ctx svc port packets (k + 1) st =
      let r := resolveMiss ctx svc packet ((openBurst ctx svc packets st).1.2.metadataAt i)
        (bulkResult ctx svc packets st i) ((openBurst ctx svc packets st).1.2.keyAt i)
        (burstAfter ctx svc port packets k st)
      applyForwardDecision ctx svc packet port r.1 r.2 := by
  rw [DpdkSpi.burstAfter_succ port h.slot, finalizePacket, h.missed, if_neg Bool.false_ne_true]
  rfl

end Statement

/-! ## The slots of a burst -/

/-- The fragment table behind some packets. -/
def fragmentsAfter (parse : μ → BitVec 64 → φ → ParseResult μ × φ) (now : BitVec 64)
    (packets : List μ) (fragments : φ) : φ :=
  packets.foldl (fun fragments packet ↦ (parse packet now fragments).2) fragments

/-- The `k`-th slot is that of a packet with this parse result. -/
def SlotHolds (parsed : List (PacketSlot μ) × List PacketMetadata) (nParsed k : Nat) (packet : μ) :
    ParseResult μ → Prop
  | .parsed metadata packet' _ => ∃ i, parsed.1[k]? = some (.mapped packet' (nParsed + i)) ∧
      parsed.2[i]? = some metadata
  | .waitingForFragments => parsed.1[k]? = some .waiting
  | .malformed _ => parsed.1[k]? = some (.unmapped packet)

/-- A slot in front, with or without metadata. -/
theorem SlotHolds.cons {slots : List (PacketSlot μ)} {metadata : List PacketMetadata}
    {nParsed k : Nat} {packet : μ} {result : ParseResult μ}
    (first : Option PacketMetadata) (slot : PacketSlot μ)
    (h : SlotHolds (slots, metadata) (nParsed + first.toList.length) k packet result) :
    SlotHolds (slot :: slots, first.toList ++ metadata) nParsed (k + 1) packet result := by
  cases result with
  | parsed m packet' wasReassembled =>
      obtain ⟨i, hslot, hmeta⟩ := h
      refine ⟨first.toList.length + i, ?_, ?_⟩
      · rw [← Nat.add_assoc]
        exact hslot
      · rw [List.getElem?_append_right (Nat.le_add_right _ _), Nat.add_sub_cancel_left]
        exact hmeta
  | waitingForFragments => exact h
  | malformed packet' => exact h

section Simulation

variable {ctx : WorkerContext} {parse : μ → BitVec 64 → φ → ParseResult μ × φ}
  {svc : Services μ ρ} {port : BitVec 16} {packets : List μ}

/-- The slot of a packet is what parsing it behind the packets before it gives. -/
theorem parseReceivedPackets_slot (ctx : WorkerContext)
    (parse : μ → BitVec 64 → φ → ParseResult μ × φ) (svc : Services μ ρ) {packet : μ} {k : Nat}
    (hk : packets[k]? = some packet)
    (nParsed : Nat) (st : BurstState cap μ (φ × ρ)) :
    SlotHolds (parseReceivedPackets ctx (svc.withFragments parse) packets nParsed st).1 nParsed k
      packet (parse packet ctx.currentBurstTsc (fragmentsAfter parse ctx.currentBurstTsc
        (packets.take k) st.world.1)).1 := by
  induction packets generalizing k nParsed st with
  | nil => cases hk
  | cons first rest ih =>
      rcases hfirst : parse first ctx.currentBurstTsc st.world.1 with
        ⟨⟨metadata, first', wasReassembled⟩ | _ | first', fragments⟩
      all_goals
        rw [parseReceivedPackets]
        simp only [Services.withFragments, hfirst]
        cases k with
        | zero =>
            obtain rfl : first = packet := Option.some.inj hk
            rw [List.take_zero, fragmentsAfter, List.foldl_nil, hfirst]
            first | exact ⟨0, rfl, rfl⟩ | exact rfl
        | succ k =>
            rw [List.take_succ_cons, fragmentsAfter, List.foldl_cons, hfirst]
            first
              | exact .cons (some metadata) _ (ih hk (nParsed + 1) _)
              | exact .cons none _ (ih hk nParsed _)

/-- What the slot of a parsed packet holds. -/
theorem openBurst_entry {st : BurstState cap μ (φ × ρ)} {i : Nat} {metadata : PacketMetadata}
    (hentry : (openBurst ctx (svc.withFragments parse) packets st).1.2.metadata[i]? =
      some metadata) :
    let b := (openBurst ctx (svc.withFragments parse) packets st).1.2
    b.metadataAt i = metadata ∧ b.keyAt i = makeCanonicalFromMetadata metadata ∧
      b.bulkAt i =
        BulkResult.ofAnswer (st.flowTable.answer (makeCanonicalFromMetadata metadata)) := by
  obtain ⟨hkeys, hbulk, -⟩ := openBurst_lookup ctx (svc.withFragments parse) packets st
  refine ⟨?_, ?_, ?_⟩
  · rw [ParsedBurst.metadataAt, List.getD_eq_getElem?_getD, hentry, Option.getD_some]
  · rw [ParsedBurst.keyAt, hkeys, List.getD_eq_getElem?_getD, List.getElem?_map, hentry]
    rfl
  · rw [ParsedBurst.bulkAt, hbulk, hkeys, List.getD_eq_getElem?_getD, List.getElem?_map,
      List.getElem?_map, hentry]
    rfl

/-- A packet that parses, when it comes alone: it gets the verdict of its flow, or is decided by
what the rules have for it. -/
theorem exists_processPortBurst_parsed (svc : Services μ ρ) (port : BitVec 16)
    {packet packet' : μ} {metadata : PacketMetadata} {wasReassembled : Bool} {fragments : φ}
    {W : ρ → ρ → Prop} {B S : BurstState cap μ (φ × ρ)}
    (hcoupled : Coupled SameCells (Beside W S.world.1) B S)
    (hparse : parse packet ctx.currentBurstTsc S.world.1 =
      (.parsed metadata packet' wasReassembled, fragments)) :
    ∃ O, Coupled SameCells (Beside W fragments) B O ∧
      (∀ k, O.flowTable.answer k = S.flowTable.answer k) ∧
      processPortBurst ctx (svc.withFragments parse) port [packet] S =
        match S.flowTable.answer (makeCanonicalFromMetadata metadata) with
        | some action => applyForwardDecision ctx (svc.withFragments parse) packet' port
            (cachedClassification metadata action) O
        | none =>
            let r := resolveMiss ctx (svc.withFragments parse) packet' metadata
              (burstSpi (svc.withFragments parse) ctx.rules metadata
                (makeCanonicalFromMetadata metadata)) (makeCanonicalFromMetadata metadata) O
            applyForwardDecision ctx (svc.withFragments parse) packet' port r.1 r.2 := by
  have hworld : (svc.withFragments parse).parsePacketOwned packet ctx.currentBurstTsc S.world =
      (.parsed metadata packet' wasReassembled, fragments, S.world.2) := by
    simp only [Services.withFragments, hparse]
  obtain ⟨hopened, hone⟩ := openBurst_parsed hworld
  have hstart : Coupled SameCells (Beside W fragments) B
      (openBurst ctx (svc.withFragments parse) [packet] S).2 := by
    refine ⟨?_, hcoupled.buffers.trans hone.buffers, hcoupled.freed.trans hone.freed, ?_⟩
    · rw [← hone.flowTable]
      exact hcoupled.flowTable.trans (.lookup hcoupled.flowTable.symm.apart _ _)
    · rw [← hone.world]
      exact ⟨rfl, hcoupled.world.2⟩
  have hanswers : ∀ k, (openBurst ctx (svc.withFragments parse) [packet] S).2.flowTable.answer k =
      S.flowTable.answer k := by
    intro k
    rw [← hone.flowTable]
    exact FlowTable.answer_lookup S.flowTable _ k _
  rw [processPortBurst_one hopened]
  cases hanswer : S.flowTable.answer (makeCanonicalFromMetadata metadata) with
  | some action =>
      refine ⟨_, ?_, ?_, rfl⟩
      · exact hstart.count id _
      · exact hanswers
  | none =>
      refine ⟨_, hstart, hanswers, ?_⟩
      rw [← spiResults_one (svc.withFragments parse) ctx.rules packet' metadata]
      rfl

variable {st : BurstState cap μ (φ × ρ)} {W : ρ → ρ → Prop}

/-- Behind `k` packets, the burst and the single packets are in states with the same packets and
the same cells, and the cells of the single packets hold the first verdicts. -/
structure SideBySide (ctx : WorkerContext) (parse : μ → BitVec 64 → φ → ParseResult μ × φ)
    (svc : Services μ ρ) (port : BitVec 16) (packets : List μ) (st : BurstState cap μ (φ × ρ))
    (W : ρ → ρ → Prop) (k : Nat) : Prop where
  coupled : Coupled SameCells
    (Beside W (fragmentsAfter parse ctx.currentBurstTsc (packets.take k) st.world.1))
    (burstAfter ctx (svc.withFragments parse) port packets k st)
    (oneAtATime ctx (svc.withFragments parse) port (packets.take k) st)
  fragments : (oneAtATime ctx (svc.withFragments parse) port (packets.take k) st).world.1 =
    fragmentsAfter parse ctx.currentBurstTsc (packets.take k) st.world.1
  verdicts : ∀ key,
    (oneAtATime ctx (svc.withFragments parse) port (packets.take k) st).flowTable.answer key =
      firstVerdict ctx (svc.withFragments parse) port packets st k key

theorem answer_openBurst (key : FlowKey) :
    (burstAfter ctx (svc.withFragments parse) port packets 0 st).flowTable.answer key =
      st.flowTable.answer key := by
  obtain ⟨-, -, htable⟩ := openBurst_lookup ctx (svc.withFragments parse) packets st
  show (openBurst ctx (svc.withFragments parse) packets st).2.flowTable.answer key = _
  rw [htable, FlowTable.answer_lookupAll]

/-- A verdict from before the burst is the first one. -/
theorem firstVerdict_of_answer {key : FlowKey} {action : Action}
    (h : st.flowTable.answer key = some action) (k : Nat) :
    firstVerdict ctx (svc.withFragments parse) port packets st k key = some action := by
  induction k with
  | zero => rw [firstVerdict_zero, answer_openBurst, h]
  | succ k ih => rw [firstVerdict_succ, ih, Option.some_or]

namespace SideBySide

variable {k : Nat} (h : SideBySide ctx parse svc port packets st W k)

include h

/-- A flow with a first verdict has a cell. -/
theorem live {key : FlowKey} {action : Action}
    (hverdict : firstVerdict ctx (svc.withFragments parse) port packets st k key = some action) :
    (burstAfter ctx (svc.withFragments parse) port packets k st).flowTable.cellOf key ≠ none := by
  intro hnone
  rw [FlowTable.cellOf, h.coupled.flowTable.hash, ← FlowTable.cellOf] at hnone
  rw [← h.verdicts key, FlowTable.answer, hnone] at hverdict
  cases hverdict

/-- Both sides after one more packet: what is left to show about their verdicts. -/
theorem succ {packet : μ} (hk : packets[k]? = some packet) {B S : BurstState cap μ (φ × ρ)}
    (hB : burstAfter ctx (svc.withFragments parse) port packets (k + 1) st = B)
    (hS : processPortBurst ctx (svc.withFragments parse) port [packet]
      (oneAtATime ctx (svc.withFragments parse) port (packets.take k) st) = S)
    (hcoupled : Coupled SameCells (Beside W (parse packet ctx.currentBurstTsc
      (oneAtATime ctx (svc.withFragments parse) port (packets.take k) st).world.1).2) B S)
    (hverdicts : ∀ key, S.flowTable.answer key =
      ((oneAtATime ctx (svc.withFragments parse) port (packets.take k) st).flowTable.answer key).or
        (B.flowTable.answer key)) :
    SideBySide ctx parse svc port packets st W (k + 1) := by
  have hfragments : fragmentsAfter parse ctx.currentBurstTsc (packets.take (k + 1)) st.world.1 =
      (parse packet ctx.currentBurstTsc
        (oneAtATime ctx (svc.withFragments parse) port (packets.take k) st).world.1).2 := by
    rw [h.fragments, fragmentsAfter, List.take_add_one, hk, Option.toList_some, List.foldl_append]
    rfl
  subst hB hS
  refine ⟨?_, ?_, fun key ↦ ?_⟩
  · rw [oneAtATime_succ hk, hfragments]
    exact hcoupled
  · rw [oneAtATime_succ hk, hfragments]
    exact hcoupled.world.1
  · rw [oneAtATime_succ hk, hverdicts, h.verdicts, firstVerdict_succ]

/-- A packet that leaves the tables alone changes no verdict. -/
theorem unchanged {B S : BurstState cap μ (φ × ρ)}
    (hB : ∀ key, B.flowTable.answer key = (burstAfter ctx (svc.withFragments parse) port packets k
      st).flowTable.answer key)
    (hS : ∀ key, S.flowTable.answer key = (oneAtATime ctx (svc.withFragments parse) port
      (packets.take k) st).flowTable.answer key) (key : FlowKey) :
    S.flowTable.answer key =
      ((oneAtATime ctx (svc.withFragments parse) port (packets.take k) st).flowTable.answer key).or
        (B.flowTable.answer key) := by
  rw [hS, hB, h.verdicts]
  cases hverdict : firstVerdict ctx (svc.withFragments parse) port packets st k key with
  | some action => rw [Option.some_or]
  | none => rw [Option.none_or, answer_of_firstVerdict_eq_none hverdict]

/-- A fragment that is held. -/
theorem waiting {packet : μ} (hk : packets[k]? = some packet) {fragments : φ}
    (hparse : parse packet ctx.currentBurstTsc
      (oneAtATime ctx (svc.withFragments parse) port (packets.take k) st).world.1 =
        (.waitingForFragments, fragments))
    (hslot : (openBurst ctx (svc.withFragments parse) packets st).1.1[k]? = some .waiting) :
    SideBySide ctx parse svc port packets st W (k + 1) := by
  generalize hS : oneAtATime ctx (svc.withFragments parse) port (packets.take k) st = S at *
  have hworld : (svc.withFragments parse).parsePacketOwned packet ctx.currentBurstTsc S.world =
      (.waitingForFragments, fragments, S.world.2) := by
    simp only [Services.withFragments, hparse]
  obtain ⟨hopened, hone⟩ := openBurst_waiting hworld
  have hcoupled := hS ▸ h.coupled
  refine h.succ hk (burstAfter_succ port hslot) (hS.symm ▸ processPortBurst_one hopened) ?_ ?_
  · rw [hS, hparse]
    refine ⟨?_, hcoupled.buffers.trans hone.buffers, hcoupled.freed.trans hone.freed, ?_⟩
    · exact hone.flowTable ▸ hcoupled.flowTable
    · show Beside W fragments _ (openBurst ctx (svc.withFragments parse) [packet] S).2.world
      rw [← hone.world]
      exact ⟨rfl, hcoupled.world.2⟩
  · refine h.unchanged (fun _ ↦ rfl) fun key ↦ ?_
    rw [hS]
    exact congrArg (FlowTable.answer · key) hone.flowTable.symm

/-- A packet that does not parse. -/
theorem malformed {packet packet' : μ} (hk : packets[k]? = some packet) {fragments : φ}
    (hparse : parse packet ctx.currentBurstTsc
      (oneAtATime ctx (svc.withFragments parse) port (packets.take k) st).world.1 =
        (.malformed packet', fragments))
    (hslot : (openBurst ctx (svc.withFragments parse) packets st).1.1[k]? =
      some (.unmapped packet)) :
    SideBySide ctx parse svc port packets st W (k + 1) := by
  generalize hS : oneAtATime ctx (svc.withFragments parse) port (packets.take k) st = S at *
  have hworld : (svc.withFragments parse).parsePacketOwned packet ctx.currentBurstTsc S.world =
      (.malformed packet', fragments, S.world.2) := by
    simp only [Services.withFragments, hparse]
  obtain ⟨hopened, hone⟩ := openBurst_malformed hworld
  have hcoupled := hS ▸ h.coupled
  refine h.succ hk (burstAfter_succ port hslot) (hS.symm ▸ processPortBurst_one hopened) ?_ ?_
  · rw [hS, hparse]
    refine Coupled.dropPacket ⟨?_, hcoupled.buffers.trans hone.buffers,
      hcoupled.freed.trans hone.freed, ?_⟩ packet
    · exact hone.flowTable ▸ hcoupled.flowTable
    · rw [← hone.world]
      exact ⟨rfl, hcoupled.world.2⟩
  · refine h.unchanged (fun _ ↦ rfl) fun key ↦ ?_
    rw [hS]
    exact congrArg (FlowTable.answer · key) hone.flowTable.symm

/-- A packet whose flow has a verdict from before the burst. -/
theorem hit {packet packet' : μ} (hk : packets[k]? = some packet) {metadata : PacketMetadata}
    {wasReassembled : Bool} {fragments : φ} {i : Nat} {action : Action}
    (hparse : parse packet ctx.currentBurstTsc
      (oneAtATime ctx (svc.withFragments parse) port (packets.take k) st).world.1 =
        (.parsed metadata packet' wasReassembled, fragments))
    (hslot : (openBurst ctx (svc.withFragments parse) packets st).1.1[k]? =
      some (.mapped packet' i))
    (hentry : (openBurst ctx (svc.withFragments parse) packets st).1.2.metadata[i]? =
      some metadata)
    (hanswer : st.flowTable.answer (makeCanonicalFromMetadata metadata) = some action) :
    SideBySide ctx parse svc port packets st W (k + 1) := by
  obtain ⟨hmeta, -, hbulk⟩ := openBurst_entry hentry
  obtain ⟨O, hO, hanswers, hS⟩ :=
    exists_processPortBurst_parsed svc port (h.fragments ▸ h.coupled) hparse
  rw [h.verdicts, firstVerdict_of_answer hanswer] at hS
  obtain ⟨f, hB⟩ := burstAfter_hit port hslot (hbulk.trans (congrArg _ hanswer))
  rw [hmeta] at hB
  refine h.succ hk hB hS ?_ (h.unchanged ?_ ?_)
  · rw [hparse]
    exact (hO.count f id).applyForwardDecision ctx _ packet' port _
  · intro key
    rw [(applyForwardDecision_frame ..).1]
    rfl
  · intro key
    rw [(applyForwardDecision_frame ..).1, hanswers]

/-- A packet that is looked up as a miss and is not overtaken. -/
theorem leader (hW : svc.Steady W) {packet packet' : μ} (hk : packets[k]? = some packet)
    {metadata : PacketMetadata} {wasReassembled : Bool} {fragments : φ} {i : Nat}
    (hparse : parse packet ctx.currentBurstTsc
      (oneAtATime ctx (svc.withFragments parse) port (packets.take k) st).world.1 =
        (.parsed metadata packet' wasReassembled, fragments))
    (hmissed : Missed ctx (svc.withFragments parse) packets st k i packet')
    (hentry : (openBurst ctx (svc.withFragments parse) packets st).1.2.metadata[i]? =
      some metadata)
    (hverdict : firstVerdict ctx (svc.withFragments parse) port packets st k
      (makeCanonicalFromMetadata metadata) = none)
    (hresult : bulkResult ctx (svc.withFragments parse) packets st i =
      burstSpi (svc.withFragments parse) ctx.rules metadata (makeCanonicalFromMetadata metadata)) :
    SideBySide ctx parse svc port packets st W (k + 1) := by
  obtain ⟨hmeta, hkey, -⟩ := openBurst_entry hentry
  obtain ⟨O, hO, hanswers, hS⟩ :=
    exists_processPortBurst_parsed svc port (h.fragments ▸ h.coupled) hparse
  have hnone := answer_of_firstVerdict_eq_none hverdict
  rw [h.verdicts, hverdict] at hS
  have hB := hmissed.burstAfter_succ port
  rw [hmeta, hkey, hresult] at hB
  generalize makeCanonicalFromMetadata metadata = key at *
  have hstart : Coupled (DecidedAlong key
      (burstAfter ctx (svc.withFragments parse) port packets k st).flowTable.answer
      O.flowTable.answer) (Beside W fragments)
      (burstAfter ctx (svc.withFragments parse) port packets k st) O := by
    refine ⟨⟨hO.flowTable, ?_, fun _ _ ↦ rfl, fun _ _ ↦ rfl⟩, hO.buffers, hO.freed, hO.world⟩
    rw [hnone, hanswers, h.verdicts, hverdict]
  obtain ⟨c, B, S, hB', hS', hBS⟩ := hstart.resolveMiss ((hW.couples key _ _).beside parse _) ctx
    packet' metadata (burstSpi (svc.withFragments parse) ctx.rules metadata key)
  rw [hB'] at hB
  rw [hS'] at hS
  have hcoupled : Coupled SameCells (Beside W fragments) B S :=
    ⟨hBS.flowTable.cells, hBS.buffers, hBS.freed, hBS.world⟩
  refine h.succ hk hB hS ?_ fun k' ↦ ?_
  · rw [hparse]
    exact hcoupled.applyForwardDecision ctx _ packet' port c
  · rw [(applyForwardDecision_frame ..).1, (applyForwardDecision_frame ..).1]
    by_cases hk' : k' = key
    · rw [hk', h.verdicts, hverdict, Option.none_or, hBS.flowTable.here]
    · rw [hBS.flowTable.left k' hk', hBS.flowTable.right k' hk', hanswers]
      have hsame := h.unchanged (fun _ ↦ rfl) (fun _ ↦ rfl) k'
      exact hsame

/-- What an overtaken packet does in the burst: the rules decide it, and what they say goes over
the verdict in the cell of its flow. -/
theorem overtaken_left {i : Nat} {packet : μ} {action : Action}
    (hover : Overtaken ctx (svc.withFragments parse) port packets st k i packet action)
    (hroute : dpiRoute ctx ((openBurst ctx (svc.withFragments parse) packets st).1.2.metadataAt i)
      (bulkResult ctx (svc.withFragments parse) packets st i) ≠ .inspected) :
    let b := (openBurst ctx (svc.withFragments parse) packets st).1.2
    let result := bulkResult ctx (svc.withFragments parse) packets st i
    let B := burstAfter ctx (svc.withFragments parse) port packets k st
    ∃ s, burstAfter ctx (svc.withFragments parse) port packets (k + 1) st =
        applyForwardDecision ctx (svc.withFragments parse) packet port
          (ruleClassification (b.metadataAt i) result) s ∧
      Coupled Eq Eq (if result.matched then
        (B.insertFlow (svc.withFragments parse) (b.keyAt i) result.action).2 else B) s := by
  obtain ⟨s, hmiss, hs⟩ := resolveMiss_of_live packet (h.live hover.verdict) hroute
  refine ⟨s, ?_, hs⟩
  rw [hover.burstAfter_succ port, hmiss]

/-- The verdicts of the burst behind an overtaken packet. -/
theorem answer_overtaken {i : Nat} {packet : μ} {action : Action}
    (hover : Overtaken ctx (svc.withFragments parse) port packets st k i packet action)
    (hroute : dpiRoute ctx ((openBurst ctx (svc.withFragments parse) packets st).1.2.metadataAt i)
      (bulkResult ctx (svc.withFragments parse) packets st i) ≠ .inspected) (key : FlowKey) :
    (burstAfter ctx (svc.withFragments parse) port packets (k + 1) st).flowTable.answer key =
      if (bulkResult ctx (svc.withFragments parse) packets st i).matched = true ∧
          key = (openBurst ctx (svc.withFragments parse) packets st).1.2.keyAt i then
        some (bulkResult ctx (svc.withFragments parse) packets st i).action
      else (burstAfter ctx (svc.withFragments parse) port packets k st).flowTable.answer key := by
  obtain ⟨s, hB, hs⟩ := h.overtaken_left hover hroute
  rw [hB, (applyForwardDecision_frame ..).1, ← hs.flowTable]
  cases (bulkResult ctx (svc.withFragments parse) packets st i).matched with
  | false => rw [if_neg Bool.false_ne_true, if_neg fun hand ↦ Bool.false_ne_true hand.1]
  | true =>
      rw [if_pos rfl]
      simp only [true_and]
      have hok := insertFlow_of_live (svc.withFragments parse) (h.live hover.verdict)
        (bulkResult ctx (svc.withFragments parse) packets st i).action
      exact FlowTable.answer_insert_of_ok h.coupled.flowTable.apart hok key

/-- A packet that is overtaken, when the rules send it where the verdict does. -/
theorem overtaken (hW : svc.Steady W) {packet packet' : μ} (hk : packets[k]? = some packet)
    {metadata : PacketMetadata} {wasReassembled : Bool} {fragments : φ} {i : Nat} {action : Action}
    (hparse : parse packet ctx.currentBurstTsc
      (oneAtATime ctx (svc.withFragments parse) port (packets.take k) st).world.1 =
        (.parsed metadata packet' wasReassembled, fragments))
    (hover : Overtaken ctx (svc.withFragments parse) port packets st k i packet' action)
    (hentry : (openBurst ctx (svc.withFragments parse) packets st).1.2.metadata[i]? =
      some metadata)
    (hroute : dpiRoute ctx ((openBurst ctx (svc.withFragments parse) packets st).1.2.metadataAt i)
      (bulkResult ctx (svc.withFragments parse) packets st i) ≠ .inspected)
    (hagree : RulesAgree ctx (svc.withFragments parse) port packets st i packet' action) :
    SideBySide ctx parse svc port packets st W (k + 1) := by
  obtain ⟨hmeta, hkey, -⟩ := openBurst_entry hentry
  obtain ⟨O, hO, hanswers, hS⟩ :=
    exists_processPortBurst_parsed svc port (h.fragments ▸ h.coupled) hparse
  have hlive := h.live hover.verdict
  have hanswer := h.answer_overtaken hover hroute
  obtain ⟨s, hB, hs⟩ := h.overtaken_left hover hroute
  rw [h.verdicts, ← hkey, hover.verdict, ← hmeta] at hS
  have hcoupled : Coupled SameCells (Beside W fragments) s O := by
    refine ⟨?_, hs.buffers ▸ ?_, hs.freed ▸ ?_, hs.world ▸ ?_⟩
    · rw [← hs.flowTable]
      split
      · exact (SameCells.overwrite h.coupled.flowTable.apart hlive _ _ _).2.trans hO.flowTable
      · exact hO.flowTable
    · split
      · exact hO.buffers
      · exact hO.buffers
    · split
      · exact hO.freed
      · exact hO.freed
    · split
      · exact ⟨hO.world.1, (hW.insertChoice _ hO.world.2).2.2⟩
      · exact hO.world
  refine h.succ hk hB hS ?_ fun key ↦ ?_
  · rw [hparse]
    exact hcoupled.sameDecision hagree
  · rw [← hB, hanswer key, (applyForwardDecision_frame ..).1, hanswers, h.verdicts]
    cases hverdict : firstVerdict ctx (svc.withFragments parse) port packets st k key with
    | some verdict => rw [Option.some_or]
    | none =>
        have hother : key ≠ (openBurst ctx (svc.withFragments parse) packets st).1.2.keyAt i := by
          rintro rfl
          rw [hover.verdict] at hverdict
          cases hverdict
        rw [if_neg fun hand ↦ hother hand.2, Option.none_or,
          answer_of_firstVerdict_eq_none hverdict]

/-- Behind the last packet nothing changes. -/
theorem done (hk : packets[k]? = none) : SideBySide ctx parse svc port packets st W (k + 1) := by
  have hlength : packets.length ≤ k := List.getElem?_eq_none_iff.mp hk
  have htake : packets.take (k + 1) = packets.take k := by
    rw [List.take_of_length_le hlength, List.take_of_length_le (Nat.le_succ_of_le hlength)]
  have hslots := (openBurst_frame ctx (svc.withFragments parse) packets st).1.trans_le hlength
  have hafter : burstAfter ctx (svc.withFragments parse) port packets (k + 1) st =
      burstAfter ctx (svc.withFragments parse) port packets k st := by
    simp only [burstAfter, beforePacket]
    rw [List.take_of_length_le hslots, List.take_of_length_le (Nat.le_succ_of_le hslots)]
  refine ⟨?_, ?_, fun key ↦ ?_⟩
  · rw [hafter, htake]
    exact h.coupled
  · rw [htake]
    exact h.fragments
  · rw [htake, firstVerdict_succ, hafter, ← h.verdicts]
    exact h.unchanged (fun _ ↦ rfl) (fun _ ↦ rfl) key

/-- **One packet more on both sides.** -/
theorem step (hW : svc.Steady W) (hlead : LeadersFit ctx (svc.withFragments parse) port packets st)
    (hunsearched : OvertakenUnsearched ctx (svc.withFragments parse) port packets st)
    (hagree : ∀ {i packet action},
      Overtaken ctx (svc.withFragments parse) port packets st k i packet action →
        RulesAgree ctx (svc.withFragments parse) port packets st i packet action) :
    SideBySide ctx parse svc port packets st W (k + 1) := by
  cases hk : packets[k]? with
  | none => exact h.done hk
  | some packet =>
      have hslot := parseReceivedPackets_slot ctx parse svc hk 0
        (st.count fun c ↦ { c with received := c.received + packets.length })
      have hfragments := h.fragments
      rcases hparse : parse packet ctx.currentBurstTsc
        (oneAtATime ctx (svc.withFragments parse) port (packets.take k) st).world.1 with
        ⟨⟨metadata, packet', wasReassembled⟩ | _ | packet', fragments⟩
      all_goals
        rw [hfragments] at hparse
        replace hslot := congrArg Prod.fst hparse ▸ hslot
        rw [← hfragments] at hparse
      · obtain ⟨i, hslot, hentry⟩ := hslot
        rw [Nat.zero_add] at hslot
        obtain ⟨hmeta, hkey, hbulk⟩ := openBurst_entry hentry
        cases hanswer : st.flowTable.answer (makeCanonicalFromMetadata metadata) with
        | some action => exact h.hit hk hparse hslot hentry hanswer
        | none =>
            have hmissed : Missed ctx (svc.withFragments parse) packets st k i packet' :=
              ⟨hslot, by rw [hbulk, hanswer]; rfl⟩
            cases hverdict : firstVerdict ctx (svc.withFragments parse) port packets st k
              (makeCanonicalFromMetadata metadata) with
            | none =>
                have hresult := hlead hmissed (hkey ▸ hverdict)
                rw [hmeta, hkey] at hresult
                exact h.leader hW hk hparse hmissed hentry hverdict hresult
            | some action =>
                have hover : Overtaken ctx (svc.withFragments parse) port packets st k i packet'
                    action := ⟨hmissed, hkey ▸ hverdict⟩
                exact h.overtaken hW hk hparse hover hentry (hunsearched hover) (hagree hover)
      · exact h.waiting hk hparse hslot
      · exact h.malformed hk hparse hslot

end SideBySide

end Simulation

end DpdkSpi
