import Mathlib.Data.List.Count
import Mathlib.Data.List.Range

/-!
# Consecutive ranges

Half-open ranges of indices, none of them empty, each of which starts where the one before it
ends.  They cover every index between their ends, in order and once.
-/

namespace DpdkSpi.Lib

/-- The ranges follow on each other from the first number to the last one. -/
inductive Consecutive : Nat → List (Nat × Nat) → Nat → Prop
  | nil {a} : Consecutive a [] a
  | cons {a b c ranges} (hlt : a < b) (hrest : Consecutive b ranges c) :
      Consecutive a ((a, b) :: ranges) c

namespace Consecutive

variable {a c : Nat} {ranges : List (Nat × Nat)}

theorem le (h : Consecutive a ranges c) : a ≤ c := by
  induction h with
  | nil => exact le_rfl
  | cons hlt _ ih => exact hlt.le.trans ih

/-- None of the ranges is empty, and none reaches beyond the ends. -/
theorem mem (h : Consecutive a ranges c) {r : Nat × Nat} (hr : r ∈ ranges) :
    a ≤ r.1 ∧ r.1 < r.2 ∧ r.2 ≤ c := by
  induction h with
  | nil => cases hr
  | cons hlt hrest ih =>
      rcases List.mem_cons.mp hr with rfl | hr
      · exact ⟨le_rfl, hlt, hrest.le⟩
      · obtain ⟨hstart, hne, hstop⟩ := ih hr
        exact ⟨hlt.le.trans hstart, hne, hstop⟩

/-- They cover the indices between the ends, in order. -/
theorem flatMap_range' (h : Consecutive a ranges c) :
    ranges.flatMap (fun r ↦ List.range' r.1 (r.2 - r.1)) = List.range' a (c - a) := by
  induction h with
  | nil => rw [Nat.sub_self]; rfl
  | @cons a b c ranges hlt hrest ih =>
      have hsplit : c - a = (b - a) + (c - b) := by
        have := hrest.le
        omega
      have hstop : a + 1 * (b - a) = b := by omega
      rw [List.flatMap_cons, ih, hsplit, ← List.range'_append, hstop]

/-- Every index between the ends is in one range and no other. -/
theorem countP_eq_one (h : Consecutive a ranges c) {i : Nat} (hi : a ≤ i ∧ i < c) :
    ranges.countP (fun r ↦ r.1 ≤ i ∧ i < r.2) = 1 := by
  induction h with
  | nil => exact absurd hi.2 (Nat.not_lt.mpr hi.1)
  | @cons a b c ranges hlt hrest ih =>
      by_cases hb : i < b
      · have hnone : ranges.countP (fun r ↦ r.1 ≤ i ∧ i < r.2) = 0 := by
          refine List.countP_eq_zero.mpr fun r hr htrue ↦ ?_
          have hstart := (hrest.mem hr).1
          rw [decide_eq_true_eq] at htrue
          omega
        rw [List.countP_cons_of_pos (by simp [hi.1, hb]), hnone]
      · rw [List.countP_cons_of_neg (by simp [hb]), ih ⟨Nat.not_lt.mp hb, hi.2⟩]

end Consecutive

end DpdkSpi.Lib
