import Mathlib.Data.List.Basic

/-!
# Slices of a list

A part of a list together with the place where it stands.  Parts that follow each other
join, a part without its front is a part further on, and two parts agree where they overlap.
-/

namespace DpdkSpi.Lib

universe u

variable {α : Type u}

/-- `part` stands in `whole` from `offset` on. -/
structure Slice (whole : List α) (offset : Nat) (part : List α) : Prop where
  bound : offset + part.length ≤ whole.length
  eq : (whole.drop offset).take part.length = part

namespace Slice

variable {whole x y : List α} {offset n : Nat}

theorem refl (whole : List α) : Slice whole 0 whole :=
  ⟨Nat.le_of_eq (Nat.zero_add _), List.take_length⟩

theorem nil (h : offset ≤ whole.length) : Slice whole offset [] :=
  ⟨h, List.take_zero⟩

/-- The elements of a slice. -/
theorem getElem?_eq (h : Slice whole offset x) {i : Nat} (hi : i < x.length) :
    x[i]? = whole[offset + i]? := by
  rw [← h.eq, List.getElem?_take_of_lt hi, List.getElem?_drop]

/-- Slices that follow each other join. -/
theorem append (hx : Slice whole offset x) (hy : Slice whole (offset + x.length) y) :
    Slice whole offset (x ++ y) where
  bound := by
    rw [List.length_append]
    have := hy.bound
    omega
  eq := by
    rw [List.length_append, List.take_add, hx.eq, List.drop_drop, hy.eq]

/-- A slice without its front. -/
theorem drop (h : Slice whole offset x) (hn : n ≤ x.length) :
    Slice whole (offset + n) (x.drop n) where
  bound := by
    rw [List.length_drop]
    have := h.bound
    omega
  eq := by
    rw [List.length_drop, ← List.drop_drop, ← List.drop_take, h.eq]

/-- Slices from one place on with the same length are the same. -/
theorem eq_of_length_eq (hx : Slice whole offset x) (hy : Slice whole offset y)
    (h : x.length = y.length) : x = y := by
  rw [← hx.eq, ← hy.eq, h]

end Slice

/-- A list agrees with another one from a place on, as far as both go. -/
theorem take_eq_take_drop_iff {xs ys : List α} {k : Nat} :
    xs.take (min xs.length (ys.length - k)) =
        (ys.drop k).take (min xs.length (ys.length - k)) ↔
      ∀ j x y, xs[j]? = some x → ys[k + j]? = some y → x = y := by
  rw [List.ext_getElem?_iff]
  constructor
  · intro h j x y hx hy
    have hj : j < min xs.length (ys.length - k) := by
      have hxlt := (List.getElem?_eq_some_iff.mp hx).1
      have hylt := (List.getElem?_eq_some_iff.mp hy).1
      omega
    have heq := h j
    rw [List.getElem?_take_of_lt hj, List.getElem?_take_of_lt hj, List.getElem?_drop, hx, hy] at heq
    exact Option.some.inj heq
  · intro h j
    by_cases hj : j < min xs.length (ys.length - k)
    · rw [List.getElem?_take_of_lt hj, List.getElem?_take_of_lt hj, List.getElem?_drop]
      have hx := List.getElem?_eq_getElem (l := xs) (i := j) (by omega)
      have hy := List.getElem?_eq_getElem (l := ys) (i := k + j) (by omega)
      rw [hx, hy, h j _ _ hx hy]
    · rw [List.getElem?_take_eq_none (Nat.le_of_not_lt hj),
        List.getElem?_take_eq_none (Nat.le_of_not_lt hj)]

end DpdkSpi.Lib
