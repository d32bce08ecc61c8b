import DpdkSpi.Flow.Purge
import DpdkSpi.Lib.System

/-!
# Who owns a cell

A cell of the flow table should either lie on the free list, once, or be the data
of one key.  `Insert`, `InsertRaw` of an absent key and the lookups only move
cells between the two, so each of them permutes `FlowTable.cells`, the list of
all claims to a cell.  `PurgeExpired` does not: it frees the cells *numbered* by
the positions of the keys it deletes, not the cells these keys own.  The
invariant survives a purge exactly when the two sets of cells are the same
(`purgeExpired_owned_iff`).
-/

namespace DpdkSpi

open Lib

/-! ## Runs of the flow table -/

/-- An operation on the flow table, with what the library and the clock answer. -/
inductive FlowOp (cap : Nat) where
  | insert (key : FlowKey) (matchCount : BitVec 64) (action : Action) (now : BitVec 64)
      (slot : Option Nat)
  | insertRaw (key : FlowKey) (matchCount : BitVec 64) (action : Action) (now : BitVec 64)
      (slot : Option Nat)
  | lookup (key : FlowKey) (now : BitVec 64)
  | lookupBulk (keys : List FlowKey) (now : BitVec 64) (results : List BulkResult)
  | purgeExpired (now ttl : BitVec 64) (forceQuit : Fin cap → Bool)

namespace FlowTable

variable {cap : Nat}

/-- The table after an operation. -/
def apply (t : FlowTable cap) : FlowOp cap → FlowTable cap
  | .insert key matchCount action now slot => (t.insert key matchCount action now slot).2
  | .insertRaw key matchCount action now slot => (t.insertRaw key matchCount action now slot).2
  | .lookup key now => (t.lookup key now).2
  | .lookupBulk keys now results => (t.lookupBulk keys now results).2
  | .purgeExpired now ttl forceQuit => t.purgeExpired now ttl forceQuit

/-- `InsertRaw` is for migration into a table that does not have the key yet. -/
def RawFresh (t : FlowTable cap) : FlowOp cap → Prop
  | .insertRaw key _ _ _ _ => ∀ e ∈ t.live, e.key ≠ key
  | _ => True

/-- The sequential runs of a constructed, valid table of capacity `cap`. -/
def runs (cap : Nat) : System (FlowTable cap) (FlowOp cap) :=
  (System.ofFun (new cap true) apply).restrict RawFresh

/-- An operation extends a run. -/
theorem reach_apply {t : FlowTable cap} (h : (runs cap).Reach t) {op : FlowOp cap}
    (hraw : t.RawFresh op) : (runs cap).Reach (t.apply op) :=
  .step h ⟨hraw, rfl⟩

/-! ## Ownership -/

/-- The cell is free exactly once and no key's data, or it is not free and exactly one
key's data. -/
def Owned (t : FlowTable cap) (i : Fin cap) : Prop :=
  (t.freeList.count i = 1 ∧ ∀ e ∈ t.live, e.data ≠ i) ∨
    (i ∉ t.freeList ∧ ∃! e, e ∈ t.live ∧ e.data = i)

/-- Every claim to a cell: by the free list, or by a key. -/
def cells (t : FlowTable cap) : List (Fin cap) :=
  t.freeList ++ t.live.map SlotEntry.data

/-- In a list without repetition, exactly one element has the image `b` when `b` is
counted once among the images. -/
private theorem existsUnique_iff_count {α β : Type*} [DecidableEq β] {f : α → β} {l : List α}
    (hl : l.Nodup) (b : β) : (∃! a, a ∈ l ∧ f a = b) ↔ (l.map f).count b = 1 := by
  induction l with
  | nil => simp
  | cons a l ih =>
      obtain ⟨ha, hl⟩ := List.nodup_cons.mp hl
      by_cases hb : f a = b
      · have hcount : ((a :: l).map f).count b = (l.map f).count b + 1 := by
          rw [List.map_cons, hb, List.count_cons_self]
        rw [hcount, Nat.add_eq_right, List.count_eq_zero, List.mem_map]
        constructor
        · rintro ⟨c, -, huniq⟩ ⟨a', ha', hfa'⟩
          have h₁ := huniq a ⟨by simp, hb⟩
          have h₂ := huniq a' ⟨by simp [ha'], hfa'⟩
          exact ha (h₁.trans h₂.symm ▸ ha')
        · intro hno
          refine ⟨a, ⟨by simp, hb⟩, ?_⟩
          rintro a' ⟨hmem, hfa'⟩
          rcases List.mem_cons.mp hmem with rfl | hmem
          · rfl
          · exact absurd ⟨a', hmem, hfa'⟩ hno
      · have hcount : ((a :: l).map f).count b = (l.map f).count b := by
          rw [List.map_cons, List.count_cons_of_ne hb]
        rw [hcount, ← ih hl]
        refine existsUnique_congr fun a' ↦ ?_
        constructor
        · rintro ⟨hmem, hfa'⟩
          rcases List.mem_cons.mp hmem with rfl | hmem
          · exact absurd hfa' hb
          · exact ⟨hmem, hfa'⟩
        · rintro ⟨hmem, hfa'⟩
          exact ⟨List.mem_cons_of_mem _ hmem, hfa'⟩

/-- A cell is owned when it is claimed once. -/
theorem owned_iff_count {t : FlowTable cap} {i : Fin cap} : t.Owned i ↔ t.cells.count i = 1 := by
  have hnone : (∀ e ∈ t.live, e.data ≠ i) ↔ (t.live.map SlotEntry.data).count i = 0 := by
    rw [List.count_eq_zero, List.mem_map]
    exact ⟨fun h ⟨e, he, hd⟩ ↦ h e he hd, fun h e he hd ↦ h ⟨e, he, hd⟩⟩
  rw [Owned, hnone, existsUnique_iff_count t.live_nodup, ← List.count_eq_zero, cells,
    List.count_append]
  omega

/-! ## The operations that move cells -/

/-- Filling a cell taken off the free list and giving it to a new key permutes the
claims; so does putting it back. -/
theorem cells_addFlow_perm {t : FlowTable cap} {h : RteHash cap} (hh : t.hash = some h)
    {key : FlowKey} (hkey : h.lookup key = none) (matchCount : BitVec 64) (action : Action)
    (now : BitVec 64) (slot : Option Nat) :
    (t.addFlow h key matchCount action now slot).2.cells.Perm t.cells := by
  cases hf : t.freeList with
  | nil => simp [addFlow, hf]
  | cons i rest =>
      rcases SlotMap.add_of_lookup_eq_none hkey slot i with
        ⟨hadd, -⟩ | ⟨p, h', -, -, hadd, hent⟩
      · have hcells : (t.addFlow h key matchCount action now slot).2.cells = t.cells := by
          simp [addFlow, hf, hadd, cells]
        rw [hcells]
      · have hlive : t.live = h.entries := by rw [live, hh]
        simp only [addFlow, hf, hadd, cells, live, hent, hh, List.map_cons]
        exact List.perm_middle

theorem cells_countOverflow (r : FlowInsertResult × FlowTable cap) :
    (countOverflow r).2.cells = r.2.cells := by
  obtain ⟨_ | _, t⟩ := r <;> rfl

theorem cells_insert_perm (t : FlowTable cap) (key : FlowKey) (matchCount : BitVec 64)
    (action : Action) (now : BitVec 64) (slot : Option Nat) :
    (t.insert key matchCount action now slot).2.cells.Perm t.cells := by
  cases hh : t.hash with
  | none =>
      simp only [insert, hh]
      rw [cells_countOverflow]
  | some h =>
      cases hk : h.lookup key with
      | none =>
          simp only [insert, hh, hk]
          rw [cells_countOverflow]
          exact cells_addFlow_perm hh hk matchCount action now slot
      | some i => simp [insert, hh, hk, cells]

theorem cells_insertRaw_perm {t : FlowTable cap} {key : FlowKey} (hkey : ∀ e ∈ t.live, e.key ≠ key)
    (matchCount : BitVec 64) (action : Action) (now : BitVec 64) (slot : Option Nat) :
    (t.insertRaw key matchCount action now slot).2.cells.Perm t.cells := by
  cases hh : t.hash with
  | none => simp [insertRaw, hh]
  | some h =>
      simp only [live, hh] at hkey
      simp only [insertRaw, hh]
      exact cells_addFlow_perm hh (SlotMap.lookup_eq_none_iff.mpr hkey) matchCount action now slot

theorem cells_lookup (t : FlowTable cap) (key : FlowKey) (now : BitVec 64) :
    (t.lookup key now).2.cells = t.cells := by
  unfold lookup
  split
  · rfl
  · dsimp only
    split <;> rfl

/-- Looking keys up in bulk writes cells, and nothing else. -/
theorem lookupBulkLoop_frame (now : BitVec 64) (hits : List (Option (Fin cap)))
    (results : List BulkResult) (t : FlowTable cap) :
    ∃ data, (lookupBulkLoop now hits results t).2 = { t with data } := by
  induction hits generalizing results t with
  | nil => exact ⟨t.data, rfl⟩
  | cons hit hits ih =>
      cases results with
      | nil => cases hit <;> exact ⟨t.data, rfl⟩
      | cons r results =>
          cases hit with
          | none => exact ih results t
          | some i =>
              simp only [lookupBulkLoop]
              split
              · exact ih results t
              · exact ih results _

theorem lookupBulk_frame (t : FlowTable cap) (keys : List FlowKey) (now : BitVec 64)
    (results : List BulkResult) : ∃ data, (t.lookupBulk keys now results).2 = { t with data } := by
  unfold lookupBulk
  split
  · exact ⟨t.data, rfl⟩
  · exact lookupBulkLoop_frame now _ results t

theorem cells_lookupBulk (t : FlowTable cap) (keys : List FlowKey) (now : BitVec 64)
    (results : List BulkResult) : (t.lookupBulk keys now results).2.cells = t.cells := by
  obtain ⟨data, hlooked⟩ := lookupBulk_frame t keys now results
  rw [hlooked]
  rfl

/-! ## Purging -/

/-- The cells a purge pushes on the free list are the cells of the keys it deletes. -/
def PurgeAligned (t : FlowTable cap) (now ttl : BitVec 64) (forceQuit : Fin cap → Bool) : Prop :=
  ∀ i, i ∈ t.reclaimed now ttl forceQuit ↔
    ∃ e ∈ t.live, (∃ j ∈ t.reclaimed now ttl forceQuit, j.val = e.pos) ∧ e.data = i

/-- The entries a purge deletes. -/
def deleted (t : FlowTable cap) (now ttl : BitVec 64) (forceQuit : Fin cap → Bool) :
    List (SlotEntry FlowKey (Fin cap)) :=
  t.live.filter fun e ↦ decide (e.pos ∈ (t.reclaimed now ttl forceQuit).map Fin.val)

theorem mem_deleted {t : FlowTable cap} {now ttl : BitVec 64} {forceQuit : Fin cap → Bool}
    {e : SlotEntry FlowKey (Fin cap)} :
    e ∈ t.deleted now ttl forceQuit ↔
      e ∈ t.live ∧ ∃ j ∈ t.reclaimed now ttl forceQuit, j.val = e.pos := by
  simp [deleted]

theorem live_purgeExpired (t : FlowTable cap) (now ttl : BitVec 64)
    (forceQuit : Fin cap → Bool) :
    (t.purgeExpired now ttl forceQuit).live =
      t.live.filter fun e ↦ !decide (e.pos ∈ (t.reclaimed now ttl forceQuit).map Fin.val) := by
  rw [purgeExpired_eq]
  cases hh : t.hash <;> simp [live, hh, dropPositions]

/-- A purge adds a claim to every reclaimed cell and withdraws those of the deleted
keys. -/
theorem count_cells_purgeExpired (t : FlowTable cap) (now ttl : BitVec 64)
    (forceQuit : Fin cap → Bool) (i : Fin cap) :
    (t.purgeExpired now ttl forceQuit).cells.count i +
        ((t.deleted now ttl forceQuit).map SlotEntry.data).count i =
      t.cells.count i + (t.reclaimed now ttl forceQuit).count i := by
  have hfree : (t.purgeExpired now ttl forceQuit).freeList =
      (t.reclaimed now ttl forceQuit).reverse ++ t.freeList := by
    rw [purgeExpired_eq]
  have hsplit : (t.deleted now ttl forceQuit ++ (t.purgeExpired now ttl forceQuit).live).Perm
      t.live := by
    rw [live_purgeExpired, deleted]
    exact List.filter_append_perm _ _
  have hcount := (hsplit.map SlotEntry.data).count_eq i
  rw [List.map_append, List.count_append] at hcount
  simp only [cells, hfree, List.count_append, List.count_reverse]
  omega

/-- **A purge keeps the invariant exactly when it is aligned.** -/
theorem purgeExpired_owned_iff {t : FlowTable cap} (hown : ∀ i, t.Owned i) (now ttl : BitVec 64)
    (forceQuit : Fin cap → Bool) :
    (∀ i, (t.purgeExpired now ttl forceQuit).Owned i) ↔ t.PurgeAligned now ttl forceQuit := by
  refine forall_congr' fun i ↦ ?_
  have hcount := count_cells_purgeExpired t now ttl forceQuit i
  have hcell := owned_iff_count.mp (hown i)
  -- both sides of the alignment are sets: no cell is reclaimed or given up twice
  have hR : (t.reclaimed now ttl forceQuit).count i ≤ 1 :=
    List.nodup_iff_count_le_one.mp (t.reclaimed_nodup now ttl forceQuit) i
  have hD : ((t.deleted now ttl forceQuit).map SlotEntry.data).count i ≤ 1 := by
    have hsub : ((t.deleted now ttl forceQuit).map SlotEntry.data).Sublist
        (t.live.map SlotEntry.data) := List.filter_sublist.map _
    have hle := hsub.count_le i
    rw [cells, List.count_append] at hcell
    omega
  have hmemR := List.count_pos_iff (l := t.reclaimed now ttl forceQuit) (a := i)
  have hmemD : 0 < ((t.deleted now ttl forceQuit).map SlotEntry.data).count i ↔
      ∃ e ∈ t.live, (∃ j ∈ t.reclaimed now ttl forceQuit, j.val = e.pos) ∧ e.data = i := by
    rw [List.count_pos_iff, List.mem_map]
    simp only [mem_deleted, and_assoc]
  rw [owned_iff_count, ← hmemR, ← hmemD]
  omega

/-! ## Runs -/

theorem new_owned (cap : Nat) (i : Fin cap) : (new cap true).Owned i := by
  rw [owned_iff_count]
  simp [cells, new, live, List.count_eq_one_of_mem (List.nodup_finRange cap)]

/-- The condition on a step of a run: a purge is aligned. -/
def StepAligned (t : FlowTable cap) : FlowOp cap → Prop
  | .purgeExpired now ttl forceQuit => t.PurgeAligned now ttl forceQuit
  | _ => True

/-- One step of an aligned run keeps every cell owned. -/
theorem apply_owned {t : FlowTable cap} {op : FlowOp cap} (hown : ∀ i, t.Owned i)
    (hraw : t.RawFresh op) (hal : t.StepAligned op) : ∀ i, (t.apply op).Owned i := by
  have key : ∀ {t' : FlowTable cap}, t'.cells.Perm t.cells → ∀ i, t'.Owned i := by
    intro t' hperm i
    rw [owned_iff_count, hperm.count_eq]
    exact owned_iff_count.mp (hown i)
  cases op with
  | insert k mc a now slot => exact key (cells_insert_perm t k mc a now slot)
  | insertRaw k mc a now slot => exact key (cells_insertRaw_perm hraw mc a now slot)
  | lookup k now => exact key (.of_eq (cells_lookup t k now))
  | lookupBulk ks now rs => exact key (.of_eq (cells_lookupBulk t ks now rs))
  | purgeExpired now ttl fq => exact (purgeExpired_owned_iff hown now ttl fq).mpr hal

/-- An aligned operation extends an aligned run. -/
theorem reach_apply_aligned {t : FlowTable cap} (h : ((runs cap).restrict StepAligned).Reach t)
    {op : FlowOp cap} (hraw : t.RawFresh op) (hal : t.StepAligned op) :
    ((runs cap).restrict StepAligned).Reach (t.apply op) :=
  .step h ⟨hal, hraw, rfl⟩

/-- In every state of a run all of whose purges are aligned, every cell is owned; and
in such a state the next purge keeps it so exactly when it is aligned too. -/
theorem aligned_runs_owned {t : FlowTable cap} (h : ((runs cap).restrict StepAligned).Reach t) :
    (∀ i, t.Owned i) ∧ ∀ now ttl forceQuit,
      (∀ i, (t.purgeExpired now ttl forceQuit).Owned i) ↔ t.PurgeAligned now ttl forceQuit := by
  have hown : ∀ i, t.Owned i := by
    refine System.Reach.invariant (I := fun t ↦ ∀ i, t.Owned i) ?_ ?_ h
    · rintro t rfl
      exact new_owned cap
    · rintro t op t' hown ⟨hal, hraw, rfl⟩
      exact apply_owned hown hraw hal
  exact ⟨hown, purgeExpired_owned_iff hown⟩

/-- A flow comes and is purged again; its cell and its position have the same number, so
the purge is aligned. -/
theorem aligned_runs_owned_one_flow :
    ((runs 8).restrict StepAligned).Reach
        (((new 8 true).apply (.insert {} 1 .kDrop 10 (some 7))).apply
          (.purgeExpired 150 100 fun _ ↦ false)) ∧
      ∀ i, (((new 8 true).apply (.insert {} 1 .kDrop 10 (some 7))).apply
          (.purgeExpired 150 100 fun _ ↦ false)).Owned i := by
  have hal : ((new 8 true).apply (.insert {} 1 .kDrop 10 (some 7))).PurgeAligned 150 100
      fun _ ↦ false := by
    unfold PurgeAligned
    decide
  have hinsert : ((runs 8).restrict StepAligned).Reach
      ((new 8 true).apply (.insert {} 1 .kDrop 10 (some 7))) :=
    reach_apply_aligned (.init rfl) trivial trivial
  have hreach : ((runs 8).restrict StepAligned).Reach
      (((new 8 true).apply (.insert {} 1 .kDrop 10 (some 7))).apply
        (.purgeExpired 150 100 fun _ ↦ false)) :=
    reach_apply_aligned hinsert trivial hal
  exact ⟨hreach, (aligned_runs_owned hreach).1⟩

/-! ## Crossed flows

A short run on which positions and cells disagree.  The free list hands out the highest
cell first; the library numbers its positions as it likes, and here the first flow gets
cell 7 and position 6, the second one cell 6 and position 7. -/

/-- The older flow, owner of cell 7, at position 6. -/
def olderKey : FlowKey := { srcPort := 1 }

/-- The newer flow, owner of cell 6, at position 7. -/
def newerKey : FlowKey := { srcPort := 2 }

/-- The table that holds the two flows. -/
def crossed : FlowTable 8 :=
  ((new 8 true).apply (.insert olderKey 1 .kDrop 10 (some 6))).apply
    (.insert newerKey 1 .kForward 100 (some 7))

theorem reach_crossed : (runs 8).Reach crossed := by
  have holder : (runs 8).Reach ((new 8 true).apply (.insert olderKey 1 .kDrop 10 (some 6))) :=
    reach_apply (.init rfl) trivial
  exact reach_apply holder trivial

/-- A purge that should only remove the older flow frees its cell and deletes the
newer one: cell 7 is free and still the data of the older key. -/
theorem crossed_purge_not_owned :
    (runs 8).Reach (crossed.apply (.purgeExpired 150 100 fun _ ↦ false)) ∧
      ¬ ∀ i, (crossed.apply (.purgeExpired 150 100 fun _ ↦ false)).Owned i := by
  refine ⟨reach_apply reach_crossed trivial, fun hown ↦ ?_⟩
  have hcount := owned_iff_count.mp (hown 7)
  revert hcount
  decide

end FlowTable

end DpdkSpi
