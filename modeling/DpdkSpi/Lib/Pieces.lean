import DpdkSpi.Lib.Slice
import Mathlib.Algebra.GroupWithZero.Nat
import Mathlib.Algebra.Order.BigOperators.Group.List
import Mathlib.Algebra.Order.Group.Nat
import Mathlib.Data.List.Perm.Subperm

/-!
# Cutting a list into pieces

The pieces of a list with the places where they stand.  Different pieces stand apart, every
piece but the last one is followed by another, and whatever is picked from them without
repetition is no longer than the list.
-/

namespace DpdkSpi.Lib

universe u

variable {α : Type u}

/-- The pieces with their places, the first one at `offset`. -/
def placed : (offset : Nat) → (pieces : List (List α)) → List (Nat × List α)
  | _, [] => []
  | offset, piece :: pieces => (offset, piece) :: placed (offset + piece.length) pieces

theorem length_placed (offset : Nat) (pieces : List (List α)) :
    (placed offset pieces).length = pieces.length := by
  induction pieces generalizing offset with
  | nil => rfl
  | cons piece pieces ih => rw [placed, List.length_cons, List.length_cons, ih]

theorem placed_append (offset : Nat) (before after : List (List α)) :
    placed offset (before ++ after) =
      placed offset before ++ placed (offset + before.flatten.length) after := by
  induction before generalizing offset with
  | nil => rfl
  | cons piece before ih =>
      rw [List.cons_append, placed, placed, ih, List.cons_append, List.flatten_cons,
        List.length_append, Nat.add_assoc]

/-- The lengths of the pieces add up. -/
theorem sum_length_placed (offset : Nat) (pieces : List (List α)) :
    ((placed offset pieces).map fun a ↦ a.2.length).sum = pieces.flatten.length := by
  induction pieces generalizing offset with
  | nil => rfl
  | cons piece pieces ih =>
      rw [placed, List.map_cons, List.sum_cons, ih, List.flatten_cons, List.length_append]

theorem le_of_mem_placed {offset : Nat} {pieces : List (List α)} {a : Nat × List α}
    (h : a ∈ placed offset pieces) : offset ≤ a.1 := by
  induction pieces generalizing offset with
  | nil => exact absurd h List.not_mem_nil
  | cons piece pieces ih =>
      rcases List.mem_cons.mp h with rfl | h
      · exact Nat.le_refl _
      · exact Nat.le_trans (Nat.le_add_right _ _) (ih h)

/-- A piece comes after some others, which make up its place. -/
theorem exists_of_mem_placed {offset : Nat} {pieces : List (List α)} {a : Nat × List α}
    (h : a ∈ placed offset pieces) :
    ∃ before after, pieces = before ++ a.2 :: after ∧ a.1 = offset + before.flatten.length := by
  induction pieces generalizing offset with
  | nil => exact absurd h List.not_mem_nil
  | cons piece pieces ih =>
      rcases List.mem_cons.mp h with rfl | h
      · exact ⟨[], pieces, rfl, rfl⟩
      · obtain ⟨before, after, hpieces, ha⟩ := ih h
        refine ⟨piece :: before, after, by rw [hpieces, List.cons_append], ?_⟩
        rw [ha, List.flatten_cons, List.length_append, Nat.add_assoc]

/-- A piece is the slice at its place. -/
theorem slice_of_mem_placed {pieces : List (List α)} {a : Nat × List α}
    (h : a ∈ placed 0 pieces) : Slice pieces.flatten a.1 a.2 := by
  obtain ⟨before, after, hpieces, ha⟩ := exists_of_mem_placed h
  rw [Nat.zero_add] at ha
  constructor
  · rw [hpieces, ha]
    simp only [List.flatten_append, List.flatten_cons, List.length_append]
    omega
  · rw [hpieces, ha, List.flatten_append, List.flatten_cons, List.drop_left, List.take_left]

theorem mem_of_mem_placed {offset : Nat} {pieces : List (List α)} {a : Nat × List α}
    (h : a ∈ placed offset pieces) : a.2 ∈ pieces := by
  obtain ⟨before, after, hpieces, -⟩ := exists_of_mem_placed h
  rw [hpieces]
  exact List.mem_append_right _ List.mem_cons_self

/-- Two pieces are the same one or stand apart. -/
theorem placed_apart {offset : Nat} {pieces : List (List α)} {a b : Nat × List α}
    (ha : a ∈ placed offset pieces) (hb : b ∈ placed offset pieces) :
    a = b ∨ a.1 + a.2.length ≤ b.1 ∨ b.1 + b.2.length ≤ a.1 := by
  induction pieces generalizing offset with
  | nil => exact absurd ha List.not_mem_nil
  | cons piece pieces ih =>
      rcases List.mem_cons.mp ha with rfl | ha
      · rcases List.mem_cons.mp hb with rfl | hb
        · exact .inl rfl
        · exact .inr (.inl (le_of_mem_placed hb))
      · rcases List.mem_cons.mp hb with rfl | hb
        · exact .inr (.inr (le_of_mem_placed ha))
        · exact ih ha hb

/-- Behind a piece the list ends or the next piece stands. -/
theorem placed_next {offset : Nat} {pieces : List (List α)} {a : Nat × List α}
    (h : a ∈ placed offset pieces) :
    a.1 + a.2.length = offset + pieces.flatten.length ∨
      ∃ b ∈ placed offset pieces, b.1 = a.1 + a.2.length := by
  obtain ⟨before, after, hpieces, ha⟩ := exists_of_mem_placed h
  cases after with
  | nil =>
      refine .inl ?_
      rw [ha, hpieces]
      simp [Nat.add_assoc]
  | cons next after =>
      refine .inr ⟨(a.1 + a.2.length, next), ?_, rfl⟩
      rw [hpieces, placed_append, placed, placed, ha]
      exact List.mem_append_right _ (List.mem_cons_of_mem _ List.mem_cons_self)

/-- What is picked from the pieces without repetition is no longer than all of them. -/
theorem sum_length_le_of_subset {offset : Nat} {pieces : List (List α)} {l : List (Nat × List α)}
    (hnodup : l.Nodup) (hsubset : l ⊆ placed offset pieces) :
    (l.map fun a ↦ a.2.length).sum ≤ pieces.flatten.length := by
  obtain ⟨l', hperm, hsublist⟩ := hnodup.subperm hsubset
  rw [← sum_length_placed offset pieces, ← (hperm.map _).sum_eq]
  exact (hsublist.map _).sum_le_sum fun _ _ ↦ Nat.zero_le _

end DpdkSpi.Lib
