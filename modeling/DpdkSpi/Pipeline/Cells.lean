import DpdkSpi.Pipeline.Coupling
import DpdkSpi.Pipeline.Effects
import DpdkSpi.Pipeline.Lookup

/-!
# Decisions about one flow

Tables that share their cells find room for the same keys.  What is decided about one flow on two
such tables changes no other flow's verdict; and when the flow has a cell already, what the rules
have for it goes over the verdict that is there.
-/

namespace DpdkSpi

variable {cap : Nat} {μ φ ρ : Type}

/-! ## Tables with the same cells -/

/-- Tables that differ in what is in their cells only. -/
structure SameCells (t t' : FlowTable cap) : Prop where
  hash : t.hash = t'.hash
  freeList : t.freeList = t'.freeList
  apart : t.Apart

namespace SameCells

theorem refl {t : FlowTable cap} (h : t.Apart) : SameCells t t := ⟨rfl, rfl, h⟩

theorem symm {t t' : FlowTable cap} (h : SameCells t t') : SameCells t' t := by
  refine ⟨h.hash.symm, h.freeList.symm, ?_⟩
  have hcells : t'.cells = t.cells := by
    rw [FlowTable.cells, FlowTable.cells, FlowTable.live, FlowTable.live, h.hash, h.freeList]
  rw [FlowTable.Apart, hcells]
  exact h.apart

theorem trans {t t' t'' : FlowTable cap} (h : SameCells t t') (h' : SameCells t' t'') :
    SameCells t t'' :=
  ⟨h.hash.trans h'.hash, h.freeList.trans h'.freeList, h.apart⟩

/-- Looking a key up writes a cell at most. -/
theorem lookup {t : FlowTable cap} (h : t.Apart) (key : FlowKey) (now : BitVec 64) :
    SameCells t (t.lookup key now).2 := by
  refine ⟨(FlowTable.hash_lookup t key now).symm, ?_, h⟩
  unfold FlowTable.lookup
  split
  · rfl
  · dsimp only
    split <;> rfl

theorem lookupAll {t : FlowTable cap} (h : t.Apart) (now : BitVec 64) (keys : List FlowKey) :
    SameCells t (t.lookupAll now keys) := by
  induction keys generalizing t with
  | nil => exact .refl h
  | cons key keys ih =>
      have hlookup := lookup h key now
      exact hlookup.trans (ih hlookup.symm.apart)

/-- So does an insertion over a live key. -/
theorem overwrite {t : FlowTable cap} (h : t.Apart) {key : FlowKey} (hlive : t.cellOf key ≠ none)
    (action : Action) (now : BitVec 64) (slot : Option Nat) :
    (t.insert key 1 action now slot).1 = .kOk ∧
      SameCells (t.insert key 1 action now slot).2 t := by
  rcases FlowTable.insert_cases t key 1 action now slot with
    ⟨-, hnone, -⟩ | ⟨i, -, hinsert⟩ | ⟨i, rest, pos, hnone, -⟩
  · exact absurd hnone hlive
  · rw [hinsert]
    exact ⟨rfl, rfl, rfl, h⟩
  · exact absurd hnone hlive

/-- Inserting a key finds room in both or in neither, whatever is stored for it. -/
theorem insert {t t' : FlowTable cap} (h : SameCells t t') (key : FlowKey) (action : Action)
    (now now' : BitVec 64) (slot : Option Nat) :
    (t.insert key 1 action now slot).1 = (t'.insert key 1 action now' slot).1 ∧
      SameCells (t.insert key 1 action now slot).2 (t'.insert key 1 action now' slot).2 := by
  have hapart : (t.insert key 1 action now slot).2.Apart :=
    (FlowTable.cells_insert_perm t key 1 action now slot).nodup_iff.mpr h.apart
  suffices hsame : (t.insert key 1 action now slot).1 = (t'.insert key 1 action now' slot).1 ∧
      (t.insert key 1 action now slot).2.hash = (t'.insert key 1 action now' slot).2.hash ∧
      (t.insert key 1 action now slot).2.freeList = (t'.insert key 1 action now' slot).2.freeList by
    exact ⟨hsame.1, hsame.2.1, hsame.2.2, hapart⟩
  unfold FlowTable.insert
  rw [← h.hash]
  cases t.hash with
  | none => exact ⟨rfl, h.hash, h.freeList⟩
  | some hash =>
      dsimp only
      cases hash.lookup key with
      | some i => exact ⟨rfl, h.hash, h.freeList⟩
      | none =>
          dsimp only
          unfold FlowTable.addFlow
          rw [← h.freeList]
          cases t.freeList with
          | nil => exact ⟨rfl, h.hash, h.freeList⟩
          | cons i rest =>
              dsimp only
              cases hash.add key slot i with
              | none => exact ⟨rfl, h.hash, h.freeList⟩
              | some hash' => exact ⟨rfl, rfl, rfl⟩

end SameCells

/-! ## Deciding one flow on both sides -/

/-- An insertion into the flow table leaves no trace in a worker's world but on the clock and in the
libraries: the related worlds are those that differ there only. -/
structure Services.Steady (svc : Services μ ρ) (W : ρ → ρ → Prop) : Prop where
  refl : ∀ w, W w w
  insertChoice : ∀ key {w w'}, W w w' →
    (svc.insertChoice key w).1.2 = (svc.insertChoice key w').1.2 ∧
      W (svc.insertChoice key w).2 (svc.insertChoice key w').2 ∧ W (svc.insertChoice key w).2 w'
  tcpReassembler : ∀ insert, svc.tcpReassembler = some insert → ∀ metadata payload tsc {w w'},
    W w w' → (insert metadata payload tsc w).1 = (insert metadata payload tsc w').1 ∧
      W (insert metadata payload tsc w).2 (insert metadata payload tsc w').2
  dpiLookup : ∀ hostname {w w'}, W w w' →
    (svc.dpiLookup hostname w).1 = (svc.dpiLookup hostname w').1 ∧
      W (svc.dpiLookup hostname w).2 (svc.dpiLookup hostname w').2

/-- Tables with the same cells that give one flow the same verdict, and the others these ones. -/
structure DecidedAlong (key : FlowKey) (others others' : FlowKey → Option Action)
    (t t' : FlowTable cap) : Prop where
  cells : SameCells t t'
  here : t.answer key = t'.answer key
  left : ∀ k, k ≠ key → t.answer k = others k
  right : ∀ k, k ≠ key → t'.answer k = others' k

/-- Whatever is decided about a flow stays its own affair. -/
theorem Services.Steady.couples {svc : Services μ ρ} {W : ρ → ρ → Prop} (hW : svc.Steady W)
    (key : FlowKey) (others others' : FlowKey → Option Action) :
    svc.Couples key (DecidedAlong key others others' : FlowTable cap → FlowTable cap → Prop) W where
  tcpReassembler := hW.tcpReassembler
  dpiLookup := hW.dpiLookup
  insertFlow := by
    intro action t t' w w' ht hw
    obtain ⟨hslot, hworld, -⟩ := hW.insertChoice key hw
    rw [← hslot]
    generalize (svc.insertChoice key w).1.1 = now
    generalize (svc.insertChoice key w').1.1 = now'
    generalize (svc.insertChoice key w).1.2 = slot
    obtain ⟨hresult, hcells⟩ := ht.cells.insert key action now now' slot
    have hapart := ht.cells.apart
    have hapart' := ht.cells.symm.apart
    refine ⟨hresult, ?_, hworld⟩
    cases hok : (t.insert key 1 action now slot).1 with
    | kOk =>
        have hanswer := FlowTable.answer_insert_of_ok hapart hok
        have hanswer' := FlowTable.answer_insert_of_ok hapart' (hresult.symm.trans hok)
        refine ⟨hcells, ?_, fun k hk ↦ ?_, fun k hk ↦ ?_⟩
        · rw [hanswer, hanswer', if_pos rfl, if_pos rfl]
        · rw [hanswer, if_neg hk, ht.left k hk]
        · rw [hanswer', if_neg hk, ht.right k hk]
    | kFull =>
        have hanswer := FlowTable.answer_insert_of_full hapart hok
        have hanswer' := FlowTable.answer_insert_of_full hapart' (hresult.symm.trans hok)
        refine ⟨hcells, ?_, fun k hk ↦ ?_, fun k hk ↦ ?_⟩
        · rw [hanswer, hanswer', ht.here]
        · rw [hanswer, ht.left k hk]
        · rw [hanswer', ht.right k hk]

/-! ## Two classifications of a packet whose flow is cached -/

/-- What the rules alone make of a packet. -/
def ruleClassification (metadata : PacketMetadata) (spiMatch : ClassificationResult) :
    PacketClassification where
  metadata := metadata
  action := if spiMatch.matched then spiMatch.action else .kForward
  parsed := true
  matched := spiMatch.matched

/-- What the cached verdict of its flow makes of it. -/
def cachedClassification (metadata : PacketMetadata) (action : Action) : PacketClassification where
  metadata := metadata
  action := action
  parsed := true
  matched := true

section Live

variable {σ : Type} {ctx : WorkerContext} {svc : Services μ σ} {metadata : PacketMetadata}
  {spiMatch : ClassificationResult} {key : FlowKey} {st : BurstState cap μ σ}

theorem insertFlow_of_live (svc : Services μ σ) (hlive : st.flowTable.cellOf key ≠ none)
    (action : Action) :
    (st.insertFlow svc key action).1 = .kOk := by
  rcases FlowTable.insert_cases st.flowTable key 1 action (svc.insertChoice key st.world).1.1
    (svc.insertChoice key st.world).1.2 with
    ⟨-, hnone, -⟩ | ⟨i, -, hinsert⟩ | ⟨i, rest, pos, hnone, -⟩
  · exact absurd hnone hlive
  · rw [BurstState.insertFlow, hinsert]
  · exact absurd hnone hlive

/-- A packet that is not searched for a hostname, although its flow has a cell by now, is decided
by the rules, and what they say goes over what is in the cell. -/
theorem resolveMiss_of_live (packet : μ) (hlive : st.flowTable.cellOf key ≠ none)
    (hroute : dpiRoute ctx metadata spiMatch ≠ .inspected) :
    ∃ s, resolveMiss ctx svc packet metadata spiMatch key st =
        (ruleClassification metadata spiMatch, s) ∧
      Coupled Eq Eq (if spiMatch.matched then (st.insertFlow svc key spiMatch.action).2 else st)
        s := by
  -- both ways that leave the packet to the rules
  have hundecided : ∀ f, tryDpiClassify ctx svc packet metadata spiMatch key st =
      ({ metadata }, st.count f) → ∃ s, resolveMiss ctx svc packet metadata spiMatch key st =
          (ruleClassification metadata spiMatch, s) ∧
        Coupled Eq Eq (if spiMatch.matched then (st.insertFlow svc key spiMatch.action).2 else st)
          s := by
    intro f hdpi
    unfold resolveMiss ruleClassification
    rw [hdpi]
    dsimp only
    rw [if_neg Bool.false_ne_true]
    cases spiMatch.matched with
    | false => exact ⟨_, rfl, rfl, rfl, rfl, rfl⟩
    | true =>
        have hok : ((st.count f).insertFlow svc key spiMatch.action).1 = .kOk :=
          insertFlow_of_live svc hlive spiMatch.action
        rw [if_pos rfl, if_neg Bool.false_ne_true, if_pos rfl, if_pos rfl]
        rcases hinsert : (st.count f).insertFlow svc key spiMatch.action with ⟨_ | _, s⟩
        · obtain rfl : ((st.count f).insertFlow svc key spiMatch.action).2 = s := by rw [hinsert]
          exact ⟨_, rfl, rfl, rfl, rfl, rfl⟩
        · rw [hinsert] at hok
          cases hok
  cases hway : dpiRoute ctx metadata spiMatch with
  | disabled =>
      refine hundecided id ?_
      rw [tryDpiClassify, hway]
      rfl
  | skipped =>
      refine hundecided (fun c ↦ { c with dpiSkippedBySpi := c.dpiSkippedBySpi + 1 }) ?_
      rw [tryDpiClassify, hway]
      rfl
  | linked =>
      have hok : (st.insertFlow svc key spiMatch.action).1 = .kOk :=
        insertFlow_of_live svc hlive spiMatch.action
      unfold resolveMiss ruleClassification
      rw [tryDpiClassify, hway, DpiRoute.run, (dpiRoute_linked hway).1, if_pos rfl]
      rcases hinsert : st.insertFlow svc key spiMatch.action with ⟨_ | _, s⟩
      · exact ⟨_, rfl, rfl, rfl, rfl, rfl⟩
      · rw [hinsert] at hok
        cases hok
  | inspected => exact absurd hway hroute

end Live

/-- Decisions that agree keep coupled states coupled. -/
theorem Coupled.sameDecision {σ : Type} {T : FlowTable cap → FlowTable cap → Prop}
    {W : σ → σ → Prop} {st st' : BurstState cap μ σ} (h : Coupled T W st st') {ctx : WorkerContext}
    {svc : Services μ σ} {packet : μ} {port : BitVec 16} {c c' : PacketClassification}
    (hsame : SameDecision cap ctx svc packet port c c') :
    Coupled T W (DpdkSpi.applyForwardDecision ctx svc packet port c st)
      (DpdkSpi.applyForwardDecision ctx svc packet port c' st') := by
  obtain ⟨htable, hworld⟩ := applyForwardDecision_frame ctx svc packet port c st
  obtain ⟨htable', hworld'⟩ := applyForwardDecision_frame ctx svc packet port c' st'
  obtain ⟨hbuffers, hfreed⟩ := (sameDecision_iff h.buffers h.freed).mp hsame
  refine ⟨?_, hbuffers, hfreed, ?_⟩
  · rw [htable, htable']
    exact h.flowTable
  · rw [hworld, hworld']
    exact h.world

end DpdkSpi
