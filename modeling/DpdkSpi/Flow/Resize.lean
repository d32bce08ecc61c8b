import DpdkSpi.Flow.Verdict

/-!
# Resizing the flow table

`MaybeReloadFlowTable` builds a table of the new capacity and copies the flows of
the old one into it, after `spi_pipeline.cpp`.  The visitor is handed the verdict
of cell `i` together with the key at *position* `i`, so the copy answers for a
key with the verdict of the cell its position numbers.  Growing loses nothing
when that cell and the key's own cell hold the same verdict
(`maybeReloadFlowTable_lossless_iff`).
-/

namespace DpdkSpi

open Lib

/-! ## Packed words

The word of a cell is read back as a count and an action, and packed again in the
new table.  That is the identity on words whose action bits are an action. -/

theorem getElem_kFlowActionMask {i : Nat} (hi : i < 64) :
    kFlowActionMask[i] = decide (i < 4) := by
  change (BitVec.ofNat 64 (2 ^ 4 - 1))[i] = decide (i < 4)
  rw [← BitVec.getLsbD_eq_getElem, BitVec.getLsbD_ofNat, Nat.testBit_two_pow_sub_one]
  simp [hi]

theorem shiftLeft_and_kFlowActionMask (x : BitVec 64) :
    (x <<< kFlowMatchCountShift) &&& kFlowActionMask = 0 := by
  ext i hi
  rw [BitVec.getElem_and, getElem_kFlowActionMask hi, BitVec.getElem_shiftLeft,
    kFlowMatchCountShift]
  by_cases h : i < 4 <;> simp [h]

theorem packAction_and_kFlowActionMask (matchCount : BitVec 64) (action : Action) :
    packAction matchCount action &&& kFlowActionMask = action.toWord := by
  rw [packAction, BitVec.and_or_distrib_right, shiftLeft_and_kFlowActionMask]
  cases action <;> decide

theorem shiftRight_shiftLeft_or (packed : BitVec 64) :
    packed >>> kFlowMatchCountShift <<< kFlowMatchCountShift |||
      (packed &&& kFlowActionMask &&& kFlowActionMask) = packed := by
  ext i hi
  rw [BitVec.getElem_or, BitVec.getElem_and, BitVec.getElem_and, getElem_kFlowActionMask hi,
    BitVec.getElem_shiftLeft, BitVec.getElem_ushiftRight, kFlowMatchCountShift]
  by_cases h : i < 4
  · simp [h]
  · have h4 : 4 + (i - 4) = i := by omega
    simp [h, h4, hi]

/-- The action bits of the word are the number of an action. -/
def WellPacked (packed : BitVec 64) : Prop := ∃ a : Action, packed &&& kFlowActionMask = a.toWord

theorem wellPacked_packAction (matchCount : BitVec 64) (action : Action) :
    WellPacked (packAction matchCount action) :=
  ⟨action, packAction_and_kFlowActionMask matchCount action⟩

theorem wellPacked_zero : WellPacked 0 := ⟨.kForward, by decide⟩

theorem packAction_decodePacked {packed : BitVec 64} (h : WellPacked packed) :
    packAction (packed >>> kFlowMatchCountShift) (decodePacked packed) = packed := by
  obtain ⟨a, ha⟩ := h
  have hword : (decodePacked packed).toWord = packed &&& kFlowActionMask := by
    rw [decodePacked, ha]
    cases a <;> decide
  rw [packAction, hword]
  exact shiftRight_shiftLeft_or packed

namespace FlowTable

variable {cap : Nat}

/-- Every cell holds a word the table packed. -/
def CellsPacked (t : FlowTable cap) : Prop := ∀ i, WellPacked (t.data i).actionAndCount

theorem CellsPacked.store {t : FlowTable cap} (h : t.CellsPacked) (i : Fin cap) {d : FlowData}
    (hd : WellPacked d.actionAndCount) : (t.store i d).CellsPacked := by
  intro j
  by_cases hj : j = i
  · subst hj
    simpa [FlowTable.store] using hd
  · simpa [FlowTable.store, hj] using h j

theorem CellsPacked.addFlow {t : FlowTable cap} (hp : t.CellsPacked) (h : RteHash cap)
    (key : FlowKey) (matchCount : BitVec 64) (action : Action) (now : BitVec 64)
    (slot : Option Nat) : (t.addFlow h key matchCount action now slot).2.CellsPacked := by
  unfold FlowTable.addFlow
  split
  · exact hp
  · rename_i i rest hf
    have hst := hp.store i (d := ⟨packAction matchCount action, now⟩)
      (wellPacked_packAction matchCount action)
    dsimp only
    split
    · exact hst
    · exact hst

theorem CellsPacked.lookupBulkLoop (now : BitVec 64) (hits : List (Option (Fin cap)))
    (results : List BulkResult) {t : FlowTable cap} (hp : t.CellsPacked) :
    (lookupBulkLoop now hits results t).2.CellsPacked := by
  induction hits generalizing results t with
  | nil => exact hp
  | cons hit hits ih =>
      cases results with
      | nil => cases hit <;> exact hp
      | cons r results =>
          cases hit with
          | none => exact ih results hp
          | some i =>
              simp only [FlowTable.lookupBulkLoop]
              split
              · exact ih results hp
              · exact ih results (hp.store i (hp i))

/-- Every operation leaves words the table packed. -/
theorem CellsPacked.apply {t : FlowTable cap} (hp : t.CellsPacked) (op : FlowOp cap) :
    (t.apply op).CellsPacked := by
  cases op with
  | insert key mc a now slot =>
      simp only [FlowTable.apply, FlowTable.insert]
      split
      · exact hp
      · split
        · exact hp.store _ (wellPacked_packAction mc a)
        · have hadd := hp.addFlow (by assumption) key mc a now slot
          generalize t.addFlow _ key mc a now slot = r at hadd ⊢
          obtain ⟨_ | _, t'⟩ := r <;> exact hadd
  | insertRaw key mc a now slot =>
      simp only [FlowTable.apply, FlowTable.insertRaw]
      split
      · exact hp
      · exact hp.addFlow _ key mc a now slot
  | lookup key now =>
      simp only [FlowTable.apply, FlowTable.lookup]
      split
      · exact hp
      · split
        · exact hp
        · exact hp.store _ (hp _)
  | lookupBulk keys now results =>
      simp only [FlowTable.apply, FlowTable.lookupBulk]
      split
      · exact hp
      · exact hp.lookupBulkLoop now _ results
  | purgeExpired now ttl forceQuit =>
      intro i
      simp only [FlowTable.apply, purgeExpired_eq, clearCells]
      split
      · exact wellPacked_zero
      · exact hp i

/-- Every word in a reachable table was packed by the table. -/
theorem reach_cellsPacked {t : FlowTable cap} (h : (runs cap).Reach t) : t.CellsPacked := by
  refine System.Reach.invariant (I := CellsPacked) ?_ ?_ h
  · rintro t rfl i
    exact wellPacked_zero
  · rintro t op t' hp ⟨-, rfl⟩
    exact hp.apply op

/-! ## The migration -/

/-- What the clock and the hash library answer to the insertions of a migration:
the time stamp of the `n`-th one, and the position the library would give its key
in the hash it is added to. -/
structure MigrationIo (newCap : Nat) where
  clock : Nat → BitVec 64
  alloc : Nat → RteHash newCap → Option Nat

/-- The library finds a free position as long as the hash is not full. -/
def MigrationIo.AddsSucceed {newCap : Nat} (io : MigrationIo newCap) : Prop :=
  ∀ (n : Nat) (h : RteHash newCap), h.entries.length < newCap →
    ∃ p, io.alloc n h = some p ∧ h.occupied p = false

/-- The visitor of `MaybeReloadFlowTable`, over the remaining flows. -/
def migrateLoop {newCap : Nat} (io : MigrationIo newCap) :
    List (FlowKey × BitVec 64 × Action) → Nat → FlowTable newCap → FlowTable newCap
  | [], _, newTable => newTable
  | (key, count, action) :: rest, n, newTable =>
      migrateLoop io rest (n + 1)
        (newTable.insertRaw key count action (io.clock n) (newTable.hash.bind (io.alloc n))).2

end FlowTable

/-- The flow table of the pipeline, with its capacity and the counter of its resizes. -/
structure FlowState where
  maxConcurrentFlows : Nat
  flowTable : FlowTable maxConcurrentFlows
  flowTableResizes : Nat

/-- `MaybeReloadFlowTable`.  The old table stays when the capacity is the same or the
new one cannot be created. -/
def maybeReloadFlowTable (s : FlowState) (newMax : Nat) (created : Bool)
    (io : FlowTable.MigrationIo newMax) : FlowState :=
  if newMax = s.maxConcurrentFlows then s
  else
    let newTable := FlowTable.new newMax created
    if newTable.isValid then
      { maxConcurrentFlows := newMax
        flowTable := FlowTable.migrateLoop io s.flowTable.forEachOccupied 0 newTable
        flowTableResizes := s.flowTableResizes + 1 }
    else s

/-- The new table answers every lookup as the old one does, and the visitor sees every
pair of a live key and its verdict once, and no other pair. -/
def Lossless (old new : FlowState) : Prop :=
  (∀ key tsc, (new.flowTable.lookup key tsc).1 = (old.flowTable.lookup key tsc).1) ∧
    ∀ key action tsc,
      (old.flowTable.forEachOccupied.map fun v ↦ (v.1, v.2.2)).count (key, action) =
        if (old.flowTable.lookup key tsc).1 = some action then 1 else 0

namespace FlowTable

variable {cap : Nat}

/-! ## What the visitor sees -/

/-- The verdict in the cell that has the number of the entry's position. -/
def positionView (t : FlowTable cap) (e : SlotEntry FlowKey (Fin cap)) : Option Action :=
  if h : e.pos < cap then (t.data ⟨e.pos, h⟩).view else none

/-- A visit is a live key with the word of the cell its position numbers. -/
theorem mem_forEachOccupied {t : FlowTable cap} {v : FlowKey × BitVec 64 × Action} :
    v ∈ t.forEachOccupied ↔ ∃ e ∈ t.live, ∃ i : Fin cap, i.val = e.pos ∧
      (t.data i).actionAndCount ≠ 0 ∧
      v = (e.key, (t.data i).actionAndCount >>> kFlowMatchCountShift,
        decodePacked (t.data i).actionAndCount) := by
  cases hh : t.hash with
  | none => simp [forEachOccupied, live, hh]
  | some h =>
      simp only [forEachOccupied, live, hh, List.mem_filterMap, List.mem_finRange, true_and]
      constructor
      · rintro ⟨i, hi⟩
        split at hi
        · cases hi
        · rename_i hne
          obtain ⟨key, hkey, rfl⟩ := Option.map_eq_some_iff.mp hi
          obtain ⟨e, he, hpos, rfl⟩ := SlotMap.keyAt_eq_some_iff.mp hkey
          exact ⟨e, he, i, hpos.symm, hne, rfl⟩
      · rintro ⟨e, he, i, hpos, hne, rfl⟩
        refine ⟨i, ?_⟩
        rw [if_neg hne, hpos, h.keyAt_of_mem he, Option.map_some]

/-- No key is visited twice. -/
theorem forEachOccupied_keys_nodup (t : FlowTable cap) :
    (t.forEachOccupied.map Prod.fst).Nodup := by
  cases hh : t.hash with
  | none => simp [forEachOccupied, hh]
  | some h =>
      simp only [forEachOccupied, hh, List.map_filterMap]
      refine List.Nodup.filterMap ?_ (List.nodup_finRange cap)
      intro i j key hi hj
      have hkeyAt : ∀ {i : Fin cap}, key ∈ Option.map Prod.fst
          (if (t.data i).actionAndCount = 0 then none
          else (h.keyAt i).map fun key ↦ (key, (t.data i).actionAndCount >>> kFlowMatchCountShift,
            decodePacked (t.data i).actionAndCount)) → h.keyAt i = some key := by
        intro i hi
        split at hi
        · simp at hi
        · simpa [Function.comp_def] using hi
      obtain ⟨e, he, hpos, hk⟩ := SlotMap.keyAt_eq_some_iff.mp (hkeyAt hi)
      obtain ⟨e', he', hpos', hk'⟩ := SlotMap.keyAt_eq_some_iff.mp (hkeyAt hj)
      obtain rfl := h.eq_of_key_eq he he' (hk.trans hk'.symm)
      exact Fin.ext (hpos.symm.trans hpos')

theorem length_forEachOccupied_le (t : FlowTable cap) : t.forEachOccupied.length ≤ cap := by
  unfold forEachOccupied
  split
  · exact Nat.zero_le cap
  · exact (List.length_filterMap_le _ _).trans (List.length_finRange).le

/-! ## What the copy answers -/

/-- A table all of whose cells are owned has a claim for each cell. -/
theorem length_cells_of_owned {t : FlowTable cap} (hown : ∀ i, t.Owned i) :
    t.cells.length = cap := by
  have hperm : t.cells.Perm (List.finRange cap) := by
    rw [List.perm_iff_count]
    intro i
    rw [owned_iff_count.mp (hown i),
      List.count_eq_one_of_mem (List.nodup_finRange cap) (List.mem_finRange i)]
  rw [hperm.length_eq, List.length_finRange]

/-- A new key that the library has a position for is answered with its verdict, and
the other keys as before. -/
theorem insertRaw_answer {t : FlowTable cap} {h : RteHash cap} (hh : t.hash = some h)
    (hown : ∀ i, t.Owned i) {key : FlowKey} (hkey : ∀ e ∈ t.live, e.key ≠ key)
    (hroom : t.live.length < cap) {p : Nat} (hp : h.occupied p = false)
    (matchCount : BitVec 64) (action : Action) (now : BitVec 64) :
    ∃ t' i, t.insertRaw key matchCount action now (some p) = (.kOk, t') ∧
      t'.live = ⟨key, p, i⟩ :: t.live ∧ t'.hash.isSome ∧
      ∀ k, t'.answer k = if k = key then
        (FlowData.mk (packAction matchCount action) now).view else t.answer k := by
  have hlive : t.live = h.entries := by rw [live, hh]
  obtain ⟨i, rest, hf⟩ : ∃ i rest, t.freeList = i :: rest := by
    refine List.exists_cons_of_ne_nil fun hnil ↦ ?_
    have hlen := length_cells_of_owned hown
    simp only [cells, hnil, List.nil_append, List.length_map] at hlen
    omega
  have hnone : h.lookup key = none := SlotMap.lookup_eq_none_iff.mpr (hlive ▸ hkey)
  rcases SlotMap.add_of_lookup_eq_none hnone (some p) i with
    ⟨-, hocc⟩ | ⟨p', h', hpp, -, hadd, hent⟩
  · rw [hocc p rfl] at hp
    cases hp
  obtain rfl : p = p' := by simpa using hpp
  obtain ⟨t', hins, hhash', hdata'⟩ : ∃ t',
      t.insertRaw key matchCount action now (some p) = (.kOk, t') ∧ t'.hash = some h' ∧
        t'.data = Function.update t.data i ⟨packAction matchCount action, now⟩ := by
    simp only [insertRaw, addFlow, hh, hf, hadd]
    exact ⟨_, rfl, rfl, rfl⟩
  have hlive' : t'.live = ⟨key, p, i⟩ :: t.live := by
    rw [hlive, ← hent, live, hhash']
  -- the cell taken off the free list is no live key's
  have hfree : ∀ e ∈ t.live, e.data ≠ i := by
    rcases hown i with ⟨-, hne⟩ | ⟨hnot, -⟩
    · exact hne
    · exact absurd (hf ▸ List.mem_cons_self) hnot
  exact ⟨t', i, hins, hlive', by rw [hhash']; rfl, answer_of_live_cons hlive' hdata' hfree⟩

/-- Copying flows with distinct new keys into a table with room for all of them. -/
theorem migrateLoop_answer {io : MigrationIo cap} (hio : io.AddsSucceed)
    (vs : List (FlowKey × BitVec 64 × Action)) (hvs : (vs.map Prod.fst).Nodup) (n : Nat)
    {t : FlowTable cap} (hvalid : t.hash.isSome) (hown : ∀ i, t.Owned i)
    (hfresh : ∀ v ∈ vs, ∀ e ∈ t.live, e.key ≠ v.1) (hroom : t.live.length + vs.length ≤ cap) :
    (∀ v ∈ vs, (migrateLoop io vs n t).answer v.1 = (FlowData.mk (packAction v.2.1 v.2.2) 0).view) ∧
      ∀ k, (∀ v ∈ vs, v.1 ≠ k) → (migrateLoop io vs n t).answer k = t.answer k := by
  induction vs generalizing n t with
  | nil => simp [migrateLoop]
  | cons v vs ih =>
      obtain ⟨key, count, action⟩ := v
      obtain ⟨hv, hvs⟩ := List.nodup_cons.mp hvs
      obtain ⟨h, hh⟩ := Option.isSome_iff_exists.mp hvalid
      have hlive : t.live = h.entries := by rw [live, hh]
      rw [List.length_cons] at hroom
      obtain ⟨p, halloc, hp⟩ := hio n h (by rw [← hlive]; omega)
      have hkey : ∀ e ∈ t.live, e.key ≠ key := hfresh (key, count, action) List.mem_cons_self
      obtain ⟨t', d, hins, hlive', hvalid', hans⟩ :=
        insertRaw_answer hh hown hkey (by omega) hp count action (io.clock n)
      have hstep : migrateLoop io ((key, count, action) :: vs) n t =
          migrateLoop io vs (n + 1) t' := by
        rw [migrateLoop, hh, Option.bind_some, halloc, hins]
      have hown' : ∀ i, t'.Owned i := by
        intro i
        have hperm := cells_insertRaw_perm hkey count action (io.clock n) (some p)
        rw [hins] at hperm
        rw [owned_iff_count, hperm.count_eq]
        exact owned_iff_count.mp (hown i)
      have hnot : ∀ w ∈ vs, w.1 ≠ key := fun w hw heq ↦ hv (List.mem_map.mpr ⟨w, hw, heq⟩)
      have hfresh' : ∀ w ∈ vs, ∀ e ∈ t'.live, e.key ≠ w.1 := by
        intro w hw e he
        rw [hlive'] at he
        rcases List.mem_cons.mp he with rfl | he
        · exact fun heq ↦ hnot w hw heq.symm
        · exact hfresh w (List.mem_cons_of_mem _ hw) e he
      have hroom' : t'.live.length + vs.length ≤ cap := by
        rw [hlive', List.length_cons]
        omega
      obtain ⟨hin, hout⟩ := ih hvs (n + 1) hvalid' hown' hfresh' hroom'
      rw [hstep]
      constructor
      · intro w hw
        rcases List.mem_cons.mp hw with rfl | hw
        · rw [hout key hnot, hans, if_pos rfl]
          rfl
        · exact hin w hw
      · intro k hk
        rw [hout k fun w hw ↦ hk w (List.mem_cons_of_mem _ hw), hans,
          if_neg fun heq ↦ hk _ List.mem_cons_self heq.symm]

/-- A live key's position is visited when its cell is not empty, and with its verdict. -/
theorem positionView_eq_some_iff {t : FlowTable cap} {e : SlotEntry FlowKey (Fin cap)}
    (he : e ∈ t.live) {a : Action} :
    t.positionView e = some a ↔ ∃ v ∈ t.forEachOccupied, v.1 = e.key ∧ v.2.2 = a := by
  constructor
  · intro h
    unfold positionView at h
    split at h
    · rename_i hlt
      unfold FlowData.view at h
      split at h
      · cases h
      · rename_i hne
        exact ⟨_, mem_forEachOccupied.mpr ⟨e, he, ⟨e.pos, hlt⟩, rfl, hne, rfl⟩, rfl,
          Option.some.inj h⟩
    · cases h
  · rintro ⟨v, hv, hk, rfl⟩
    obtain ⟨e', he', i, hpos, hne, rfl⟩ := mem_forEachOccupied.mp hv
    obtain rfl := live_eq_of_key_eq he' he hk
    have hlt : e'.pos < cap := hpos ▸ i.isLt
    have hi : (⟨e'.pos, hlt⟩ : Fin cap) = i := Fin.ext hpos.symm
    rw [positionView, dif_pos hlt, hi, FlowData.view, if_neg hne]

/-- **What the copy answers.**  The copy answers for a live key with the verdict of the
cell its position numbers, and misses on every other key. -/
theorem migrated_answer {t : FlowTable cap} (hpacked : t.CellsPacked) {newCap : Nat}
    (hle : cap ≤ newCap) {io : MigrationIo newCap} (hio : io.AddsSucceed) :
    (∀ e ∈ t.live,
        (migrateLoop io t.forEachOccupied 0 (new newCap true)).answer e.key = t.positionView e) ∧
      ∀ k, (∀ e ∈ t.live, e.key ≠ k) →
        (migrateLoop io t.forEachOccupied 0 (new newCap true)).answer k = none := by
  have hempty : (new newCap true).live = [] := rfl
  obtain ⟨hin, hout⟩ := migrateLoop_answer hio t.forEachOccupied t.forEachOccupied_keys_nodup 0
    (t := new newCap true) rfl (new_owned newCap) (by simp [hempty])
    (by simpa [hempty] using t.length_forEachOccupied_le.trans hle)
  have hmiss : ∀ k, (new newCap true).answer k = none := fun k ↦
    answer_of_forall_ne (by simp [hempty])
  constructor
  · intro e he
    cases hpv : t.positionView e with
    | none =>
        rw [hout, hmiss]
        intro v hv hk
        have hsome := (positionView_eq_some_iff he).mpr ⟨v, hv, hk, rfl⟩
        rw [hpv] at hsome
        cases hsome
    | some a =>
        obtain ⟨v, hv, hk, ha⟩ := (positionView_eq_some_iff he).mp hpv
        obtain ⟨e', -, i, -, hne, rfl⟩ := mem_forEachOccupied.mp hv
        have hview := hin _ hv
        rw [packAction_decodePacked (hpacked i)] at hview
        rw [← hk, hview, FlowData.view, if_neg hne]
        exact congrArg some ha
  · intro k hk
    rw [hout, hmiss]
    intro v hv hvk
    obtain ⟨e, he, i, -, -, rfl⟩ := mem_forEachOccupied.mp hv
    exact hk e he hvk

/-- A pair of a key and a verdict is visited once when the cell numbered by the key's
position holds that verdict, and never otherwise. -/
theorem count_forEachOccupied (t : FlowTable cap) (key : FlowKey) (action : Action) :
    (t.forEachOccupied.map fun v ↦ (v.1, v.2.2)).count (key, action) =
      if ∃ e ∈ t.live, e.key = key ∧ t.positionView e = some action then 1 else 0 := by
  have hmem : (key, action) ∈ t.forEachOccupied.map (fun v ↦ (v.1, v.2.2)) ↔
      ∃ e ∈ t.live, e.key = key ∧ t.positionView e = some action := by
    rw [List.mem_map]
    constructor
    · rintro ⟨v, hv, hpair⟩
      obtain ⟨rfl, rfl⟩ := Prod.mk.inj hpair
      obtain ⟨e, he, i, -, -, hveq⟩ := mem_forEachOccupied.mp hv
      have hk : e.key = v.1 := by rw [hveq]
      exact ⟨e, he, hk, (positionView_eq_some_iff he).mpr ⟨v, hv, hk.symm, rfl⟩⟩
    · rintro ⟨e, he, rfl, hpv⟩
      obtain ⟨v, hv, hk, ha⟩ := (positionView_eq_some_iff he).mp hpv
      exact ⟨v, hv, by rw [hk, ha]⟩
  have hnodup : (t.forEachOccupied.map fun v ↦ (v.1, v.2.2)).Nodup := by
    refine List.Nodup.of_map Prod.fst ?_
    rw [List.map_map]
    exact t.forEachOccupied_keys_nodup
  split
  · rename_i h
    exact List.count_eq_one_of_mem hnodup (hmem.mpr h)
  · rename_i h
    exact List.count_eq_zero.mpr fun hin ↦ h (hmem.mp hin)

/-- The verdict a live key is visited with is the one it should be visited with. -/
def VisitAligned (t : FlowTable cap) : Prop :=
  ∀ e ∈ t.live, t.positionView e = (t.data e.data).view

/-- Visiting every live pair exactly once is what alignment says. -/
theorem visitAligned_iff_count (t : FlowTable cap) :
    t.VisitAligned ↔ ∀ key action,
      (t.forEachOccupied.map fun v ↦ (v.1, v.2.2)).count (key, action) =
        if t.answer key = some action then 1 else 0 := by
  constructor
  · intro hal key action
    rw [count_forEachOccupied]
    refine if_congr ?_ rfl rfl
    constructor
    · rintro ⟨e, he, rfl, hpv⟩
      rw [answer_of_mem he, ← hal e he, hpv]
    · intro hans
      by_cases hex : ∃ e ∈ t.live, e.key = key
      · obtain ⟨e, he, rfl⟩ := hex
        rw [answer_of_mem he, ← hal e he] at hans
        exact ⟨e, he, rfl, hans⟩
      · rw [answer_of_forall_ne fun e he h ↦ hex ⟨e, he, h⟩] at hans
        cases hans
  · intro hcount e he
    have hiff : ∀ a, t.positionView e = some a ↔ (t.data e.data).view = some a := by
      intro a
      have h := hcount e.key a
      rw [count_forEachOccupied, answer_of_mem he] at h
      have hpos : (∃ e' ∈ t.live, e'.key = e.key ∧ t.positionView e' = some a) ↔
          t.positionView e = some a := by
        constructor
        · rintro ⟨e', he', hk, hpv⟩
          rwa [← live_eq_of_key_eq he' he hk]
        · intro hpv
          exact ⟨e, he, rfl, hpv⟩
      simp only [hpos] at h
      split at h <;> split at h <;> simp_all
    exact Option.ext fun a ↦ by simpa using hiff a

/-- **When growing loses nothing.**  Every live key finds, in the cell its position
numbers, the verdict of its own cell. -/
theorem maybeReloadFlowTable_lossless_iff {t : FlowTable cap} (hreach : (runs cap).Reach t)
    {newMax : Nat} (hle : cap ≤ newMax) {io : MigrationIo newMax} (hio : io.AddsSucceed)
    (resizes : Nat) :
    Lossless ⟨cap, t, resizes⟩ (maybeReloadFlowTable ⟨cap, t, resizes⟩ newMax true io) ↔
      ∀ e ∈ t.live, t.positionView e = (t.data e.data).view := by
  have hcount := t.visitAligned_iff_count
  simp only [Lossless, lookup_fst]
  constructor
  · rintro ⟨-, hvisits⟩
    exact hcount.mpr fun key action ↦ hvisits key action 0
  · intro hal
    refine ⟨fun key _ ↦ ?_, fun key action _ ↦ hcount.mp hal key action⟩
    by_cases heq : newMax = cap
    · have hsame : maybeReloadFlowTable ⟨cap, t, resizes⟩ newMax true io = ⟨cap, t, resizes⟩ :=
        if_pos heq
      rw [hsame]
    · obtain ⟨hin, hout⟩ := migrated_answer (reach_cellsPacked hreach) hle hio
      have htable : maybeReloadFlowTable ⟨cap, t, resizes⟩ newMax true io =
          ⟨newMax, migrateLoop io t.forEachOccupied 0 (new newMax true), resizes + 1⟩ := by
        rw [maybeReloadFlowTable, if_neg heq]
        rfl
      rw [htable]
      by_cases hex : ∃ e ∈ t.live, e.key = key
      · obtain ⟨e, he, rfl⟩ := hex
        rw [hin e he, hal e he, answer_of_mem he]
      · have hno : ∀ e ∈ t.live, e.key ≠ key := fun e he h ↦ hex ⟨e, he, h⟩
        rw [hout key hno, answer_of_forall_ne hno]

/-- A library that gives out the lowest free position. -/
def lowestFree (newCap : Nat) : MigrationIo newCap where
  clock := fun _ ↦ 0
  alloc := fun _ h ↦ (List.range newCap).find? fun p ↦ !h.occupied p

theorem lowestFree_addsSucceed (newCap : Nat) : (lowestFree newCap).AddsSucceed := by
  intro n h hlt
  cases hfind : (List.range newCap).find? fun p ↦ !h.occupied p with
  | some p => exact ⟨p, hfind, by simpa using List.find?_some hfind⟩
  | none =>
      -- every position below the capacity is taken, by as many keys
      exfalso
      have hsub : List.range newCap ⊆ h.entries.map SlotEntry.pos := by
        intro p hp
        have hocc : h.occupied p = true := by simpa using List.find?_eq_none.mp hfind p hp
        obtain ⟨e, he, rfl⟩ := SlotMap.occupied_iff.mp hocc
        exact List.mem_map_of_mem he
      have hlen := (List.nodup_range.subperm hsub).length_le
      rw [List.length_range, List.length_map] at hlen
      omega

/-- A table with one flow grows from eight cells to sixteen. -/
theorem maybeReloadFlowTable_lossless_one_flow :
    (runs 8).Reach ((new 8 true).apply (.insert {} 1 .kDrop 10 (some 7))) ∧
      Lossless ⟨8, (new 8 true).apply (.insert {} 1 .kDrop 10 (some 7)), 0⟩
        (maybeReloadFlowTable ⟨8, (new 8 true).apply (.insert {} 1 .kDrop 10 (some 7)), 0⟩ 16 true
          (lowestFree 16)) := by
  have hreach : (runs 8).Reach ((new 8 true).apply (.insert {} 1 .kDrop 10 (some 7))) :=
    reach_apply (.init rfl) trivial
  exact ⟨hreach, (maybeReloadFlowTable_lossless_iff hreach (by decide)
    (lowestFree_addsSucceed 16) 0).mpr (by decide)⟩

/-- Growing the reachable table with crossed flows from eight cells to sixteen turns the
drop verdict of the older flow into a forward verdict. -/
theorem crossed_resize_not_lossless :
    (runs 8).Reach crossed ∧ (lowestFree 16).AddsSucceed ∧
      ¬ Lossless ⟨8, crossed, 0⟩
        (maybeReloadFlowTable ⟨8, crossed, 0⟩ 16 true (lowestFree 16)) := by
  refine ⟨reach_crossed, lowestFree_addsSucceed 16, fun hlossless ↦ ?_⟩
  have holder := hlossless.1 olderKey 0
  revert holder
  decide

end FlowTable

end DpdkSpi
