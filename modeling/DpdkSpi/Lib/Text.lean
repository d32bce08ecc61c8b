import Mathlib.Data.List.Basic
import Mathlib.Data.Nat.Digits.Defs

/-!
# Lines and numbers as text

Text as a list of letters: lines with a letter behind each of them, indented lines, and numbers in
the decimal system.  What is written says what it was written for, if no line contains the letter
that ends it (`unlines_inj`, `replicate_append_inj`, `decimal_injective`).
-/

namespace DpdkSpi.Lib

universe u

variable {α : Type u}

/-! ## Words -/

/-- What stands in front of the first letter `e`, and what stands behind it. -/
theorem append_cons_inj {e : α} {w w' t u : List α} (h : e ∉ w) (h' : e ∉ w')
    (heq : w ++ e :: t = w' ++ e :: u) : w = w' ∧ t = u := by
  induction w generalizing w' with
  | nil =>
      cases w' with
      | nil => exact ⟨rfl, (List.cons.inj heq).2⟩
      | cons b w' => exact absurd ((List.cons.inj heq).1 ▸ List.mem_cons_self) h'
  | cons a w ih =>
      cases w' with
      | nil => exact absurd ((List.cons.inj heq).1 ▸ List.mem_cons_self) h
      | cons b w' =>
          obtain ⟨rfl, htail⟩ := List.cons.inj heq
          obtain ⟨rfl, rfl⟩ := ih (fun hmem ↦ h (List.mem_cons_of_mem a hmem))
            (fun hmem ↦ h' (List.mem_cons_of_mem a hmem)) htail
          exact ⟨rfl, rfl⟩

/-! ## Lines -/

/-- Lines with the letter `e` behind each of them. -/
def unlines (e : α) (lines : List (List α)) : List α := lines.flatMap (· ++ [e])

@[simp] theorem unlines_nil (e : α) : unlines e [] = [] := rfl

@[simp] theorem unlines_cons (e : α) (l : List α) (lines : List (List α)) :
    unlines e (l :: lines) = l ++ e :: unlines e lines := by
  rw [unlines, List.flatMap_cons, List.append_assoc]
  rfl

theorem unlines_append (e : α) (lines lines' : List (List α)) :
    unlines e (lines ++ lines') = unlines e lines ++ unlines e lines' :=
  List.flatMap_append

/-- **Lines are told apart by their ends.** -/
theorem unlines_inj {e : α} {lines lines' : List (List α)} (h : ∀ l ∈ lines, e ∉ l)
    (h' : ∀ l ∈ lines', e ∉ l) (heq : unlines e lines = unlines e lines') : lines = lines' := by
  induction lines generalizing lines' with
  | nil =>
      cases lines' with
      | nil => rfl
      | cons l' lines' =>
          rw [unlines_cons] at heq
          exact absurd heq (List.append_ne_nil_of_right_ne_nil l' (List.cons_ne_nil e _)).symm
  | cons l lines ih =>
      cases lines' with
      | nil =>
          rw [unlines_cons] at heq
          exact absurd heq (List.append_ne_nil_of_right_ne_nil l (List.cons_ne_nil e _))
      | cons l' lines' =>
          obtain ⟨hl, hlines⟩ := List.forall_mem_cons.mp h
          obtain ⟨hl', hlines'⟩ := List.forall_mem_cons.mp h'
          rw [unlines_cons, unlines_cons] at heq
          obtain ⟨rfl, hrest⟩ := append_cons_inj hl hl' heq
          rw [ih hlines hlines' hrest]

/-! ## Indentation -/

/-- A line says how far it is indented. -/
theorem replicate_append_inj {e : α} {n m : Nat} {t u : List α} (ht : t.head? ≠ some e)
    (hu : u.head? ≠ some e) (heq : List.replicate n e ++ t = List.replicate m e ++ u) :
    n = m ∧ t = u := by
  induction n generalizing m with
  | zero =>
      cases m with
      | zero => exact ⟨rfl, heq⟩
      | succ m => exact absurd (congrArg List.head? heq) ht
  | succ n ih =>
      cases m with
      | zero => exact absurd (congrArg List.head? heq).symm hu
      | succ m =>
          obtain ⟨rfl, rfl⟩ := ih (List.cons.inj heq).2
          exact ⟨rfl, rfl⟩

/-! ## Numbers -/

/-- A number in the decimal system. -/
def decimal (n : Nat) : List Nat := if n = 0 then [0] else (Nat.digits 10 n).reverse

theorem lt_ten_of_mem_decimal {n d : Nat} (h : d ∈ decimal n) : d < 10 := by
  unfold decimal at h
  split at h
  · obtain rfl := List.mem_singleton.mp h
    decide
  · exact Nat.digits_lt_base (by decide) (List.mem_reverse.mp h)

theorem decimal_ne_nil (n : Nat) : decimal n ≠ [] := by
  unfold decimal
  split
  · exact List.cons_ne_nil _ _
  · rename_i h
    rw [Ne, List.reverse_eq_nil_iff]
    exact Nat.digits_ne_nil_iff_ne_zero.mpr h

/-- The digits of a number stand for it. -/
theorem ofDigits_reverse_decimal (n : Nat) : Nat.ofDigits 10 (decimal n).reverse = n := by
  unfold decimal
  split
  · rename_i h
    rw [h]
    rfl
  · rw [List.reverse_reverse, Nat.ofDigits_digits]

/-- **Numbers are told apart by their digits.** -/
theorem decimal_injective : Function.Injective decimal := by
  intro n m h
  rw [← ofDigits_reverse_decimal n, h, ofDigits_reverse_decimal]

end DpdkSpi.Lib
