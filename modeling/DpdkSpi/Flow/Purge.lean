import DpdkSpi.Flow.Table

/-!
# What a purge does

The scan of `PurgeExpired` reads the age of cell `i` and deletes the key at hash
position `i`.  This file says what that comes to, once for every table: the
*reclaimed* indices are those the scan reaches, whose cell is stale, and whose
number is an occupied position of the hash.  Keys at reclaimed positions
disappear, reclaimed cells are cleared and pushed on the free list, and nothing
else changes (`purgeExpired_eq`).
-/

namespace DpdkSpi.FlowTable

open Lib

variable {cap : Nat}

/-! ## The indices the scan reaches -/

/-- The indices visited before the scan is cancelled. -/
def scanned (forceQuit : Fin cap → Bool) : List (Fin cap) → Nat → List (Fin cap)
  | [], _ => []
  | i :: rest, untilCancel =>
      if untilCancel - 1 = 0 then
        if forceQuit i then [] else i :: scanned forceQuit rest kCancelCheckInterval
      else i :: scanned forceQuit rest (untilCancel - 1)

/-- The loop is a fold of the loop body over the indices it reaches. -/
theorem purgeLoop_eq (threshold : BitVec 64) (forceQuit : Fin cap → Bool) (l : List (Fin cap))
    (n : Nat) (s : Scan cap) :
    purgeLoop threshold forceQuit l n s =
      (scanned forceQuit l n).foldl (purgeSlot threshold) s := by
  induction l generalizing n s with
  | nil => rfl
  | cons i rest ih =>
      simp only [purgeLoop, scanned]
      split
      · split
        · rfl
        · rw [ih, List.foldl_cons]
      · rw [ih, List.foldl_cons]

/-- The scan visits indices in order and at most once. -/
theorem scanned_sublist (forceQuit : Fin cap → Bool) (l : List (Fin cap)) (n : Nat) :
    (scanned forceQuit l n).Sublist l := by
  induction l generalizing n with
  | nil => exact List.Sublist.slnil
  | cons i rest ih =>
      simp only [scanned]
      split
      · split
        · exact List.nil_sublist _
        · exact (ih _).cons_cons i
      · exact (ih _).cons_cons i

theorem scanned_finRange_nodup (forceQuit : Fin cap → Bool) (n : Nat) :
    (scanned forceQuit (List.finRange cap) n).Nodup :=
  (List.nodup_finRange cap).sublist (scanned_sublist forceQuit _ n)

/-- A scan that is never told to quit visits every index. -/
theorem scanned_of_not_quit {forceQuit : Fin cap → Bool} (hq : ∀ i, forceQuit i = false)
    (l : List (Fin cap)) (n : Nat) : scanned forceQuit l n = l := by
  induction l generalizing n with
  | nil => rfl
  | cons i rest ih => simp [scanned, hq, ih]

/-! ## The indices the scan reclaims -/

/-- Among the indices of `l`, those whose cell is stale and whose number is an
occupied position. -/
def reclaimable (h : RteHash cap) (data : Fin cap → FlowData) (threshold : BitVec 64)
    (l : List (Fin cap)) : List (Fin cap) :=
  l.filter fun i ↦ decide (Stale data threshold i) && h.occupied i

theorem mem_reclaimable {h : RteHash cap} {data : Fin cap → FlowData} {threshold : BitVec 64}
    {l : List (Fin cap)} {i : Fin cap} :
    i ∈ reclaimable h data threshold l ↔
      i ∈ l ∧ Stale data threshold i ∧ ∃ e ∈ h.entries, e.pos = i := by
  simp [reclaimable, SlotMap.occupied_iff]

/-- The hash without the keys at the given positions. -/
def dropPositions (h : RteHash cap) (R : List (Fin cap)) : RteHash cap :=
  h.filter fun e ↦ !decide (e.pos ∈ R.map Fin.val)

theorem mem_dropPositions {h : RteHash cap} {R : List (Fin cap)} {e : SlotEntry FlowKey (Fin cap)} :
    e ∈ (dropPositions h R).entries ↔ e ∈ h.entries ∧ ∀ i ∈ R, i.val ≠ e.pos := by
  simp [dropPositions]

/-- The cells with those of the given indices cleared. -/
def clearCells (data : Fin cap → FlowData) (R : List (Fin cap)) : Fin cap → FlowData :=
  fun i ↦ if i ∈ R then {} else data i

@[simp] theorem dropPositions_nil (h : RteHash cap) : dropPositions h [] = h := by
  ext1
  simp [dropPositions]

@[simp] theorem clearCells_nil (data : Fin cap → FlowData) : clearCells data [] = data := by
  funext i
  simp [clearCells]

/-- What the loop body does to the position and the cell it works on. -/
theorem purgeSlot_eq (threshold : BitVec 64) (s : Scan cap) (i : Fin cap) :
    purgeSlot threshold s i =
      { hash := dropPositions s.hash (reclaimable s.hash s.data threshold [i])
        data := clearCells s.data (reclaimable s.hash s.data threshold [i])
        expired := s.expired ++ reclaimable s.hash s.data threshold [i] } := by
  by_cases hst : Stale s.data threshold i
  · cases hk : s.hash.keyAt i with
    | none =>
        have hocc : s.hash.occupied i = false := SlotMap.keyAt_eq_none_iff.mp hk
        simp [purgeSlot, hst, hk, reclaimable, hocc]
    | some key =>
        have hocc : s.hash.occupied i = true := by
          rw [← Bool.not_eq_false, ← SlotMap.keyAt_eq_none_iff, hk]
          exact Option.some_ne_none key
        have hR : reclaimable s.hash s.data threshold [i] = [i] := by
          simp [reclaimable, hst, hocc]
        have hdata : clearCells s.data [i] = Function.update s.data i {} := by
          funext j
          by_cases hj : j = i <;> simp [clearCells, hj]
        simp only [purgeSlot, if_pos hst, hk, hR, hdata, SlotMap.erase_keyAt hk, dropPositions,
          List.map_cons, List.map_nil, List.mem_singleton]
  · simp [purgeSlot, hst, reclaimable]

/-- Reclaiming one index leaves the others as they were. -/
theorem reclaimable_congr {h : RteHash cap} {data : Fin cap → FlowData} {threshold : BitVec 64}
    {R l : List (Fin cap)} (hdisj : ∀ i ∈ l, i ∉ R) :
    reclaimable (dropPositions h R) (clearCells data R) threshold l =
      reclaimable h data threshold l := by
  refine List.filter_congr fun i hi ↦ ?_
  have hcell : clearCells data R i = data i := if_neg (hdisj i hi)
  have hst : Stale (clearCells data R) threshold i ↔ Stale data threshold i := by
    simp only [Stale, hcell]
  have hocc : (dropPositions h R).occupied i = true ↔ h.occupied i = true := by
    simp only [SlotMap.occupied_iff, mem_dropPositions]
    constructor
    · rintro ⟨e, ⟨he, -⟩, hp⟩
      exact ⟨e, he, hp⟩
    · rintro ⟨e, he, hp⟩
      refine ⟨e, ⟨he, fun j hj hje ↦ hdisj i hi ?_⟩, hp⟩
      rwa [← Fin.ext (hje.trans hp)]
  rw [Bool.eq_iff_iff]
  simp only [Bool.and_eq_true, decide_eq_true_eq, hst, hocc]

/-- The whole scan, over indices that occur at most once. -/
theorem foldl_purgeSlot (threshold : BitVec 64) (l : List (Fin cap)) (hl : l.Nodup)
    (s : Scan cap) :
    l.foldl (purgeSlot threshold) s =
      { hash := dropPositions s.hash (reclaimable s.hash s.data threshold l)
        data := clearCells s.data (reclaimable s.hash s.data threshold l)
        expired := s.expired ++ reclaimable s.hash s.data threshold l } := by
  induction l generalizing s with
  | nil => simp [reclaimable]
  | cons i l ih =>
      obtain ⟨hi, hl⟩ := List.nodup_cons.mp hl
      -- the loop body at `i` touches no index of `l`
      have hdisj : ∀ j ∈ l, j ∉ reclaimable s.hash s.data threshold [i] := by
        intro j hj hmem
        obtain rfl := List.mem_singleton.mp (mem_reclaimable.mp hmem).1
        exact hi hj
      have hsplit : reclaimable s.hash s.data threshold (i :: l) =
          reclaimable s.hash s.data threshold [i] ++ reclaimable s.hash s.data threshold l := by
        rw [reclaimable, ← List.singleton_append, List.filter_append]
        rfl
      rw [List.foldl_cons, ih hl, purgeSlot_eq]
      simp only [reclaimable_congr hdisj, hsplit]
      congr 1
      · ext1
        simp only [dropPositions, SlotMap.filter_filter, SlotMap.entries_filter]
        refine List.filter_congr fun e _ ↦ ?_
        rw [List.map_append, Bool.eq_iff_iff]
        simp only [Bool.and_eq_true, Bool.not_eq_true', decide_eq_false_iff_not, List.mem_append,
          not_or]
        exact and_comm
      · funext j
        simp only [clearCells, List.mem_append]
        split_ifs <;> tauto
      · rw [List.append_assoc]

/-! ## The purge -/

/-- The indices `PurgeExpired` reclaims. -/
def reclaimed (t : FlowTable cap) (now ttl : BitVec 64) (forceQuit : Fin cap → Bool) :
    List (Fin cap) :=
  match t.hash with
  | none => []
  | some h =>
      if now ≤ ttl then []
      else reclaimable h t.data (now - ttl)
        (scanned forceQuit (List.finRange cap) kCancelCheckInterval)

theorem reclaimed_nodup (t : FlowTable cap) (now ttl : BitVec 64) (forceQuit : Fin cap → Bool) :
    (t.reclaimed now ttl forceQuit).Nodup := by
  unfold reclaimed
  split
  · exact List.nodup_nil
  · split
    · exact List.nodup_nil
    · exact (scanned_finRange_nodup forceQuit _).filter _

/-- **What a purge does.**  It drops the keys at the reclaimed positions, clears the
reclaimed cells and pushes them on the free list. -/
theorem purgeExpired_eq (t : FlowTable cap) (now ttl : BitVec 64) (forceQuit : Fin cap → Bool) :
    t.purgeExpired now ttl forceQuit =
      { t with
        hash := t.hash.map fun h ↦ dropPositions h (t.reclaimed now ttl forceQuit)
        data := clearCells t.data (t.reclaimed now ttl forceQuit)
        freeList := (t.reclaimed now ttl forceQuit).reverse ++ t.freeList } := by
  rcases t with ⟨hash, data, freeList, overflowCount⟩
  cases hash with
  | none => simp [purgeExpired, reclaimed]
  | some h =>
      by_cases hle : now ≤ ttl
      · simp [purgeExpired, reclaimed, hle]
      · simp only [purgeExpired, reclaimed, if_neg hle, purgeLoop_eq,
          foldl_purgeSlot _ _ (scanned_finRange_nodup forceQuit _), Option.map_some,
          List.nil_append]

end DpdkSpi.FlowTable
