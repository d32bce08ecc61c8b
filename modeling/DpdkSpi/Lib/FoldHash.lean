import Mathlib.Algebra.Group.Units.Basic
import Mathlib.Data.BitVec

/-!
# Hashes that take one item at a time

A hash function that goes through its input once and keeps a state.  When no step forgets
anything, inputs that differ in a single item have different hashes; an exclusive or followed by
the multiplication with a unit is such a step.
-/

namespace DpdkSpi.Lib

universe u v

/-- No step forgets the state or the item. -/
structure Absorbing {σ : Type u} {α : Type v} (step : σ → α → σ) : Prop where
  state : ∀ a, Function.Injective fun s ↦ step s a
  item : ∀ s, Function.Injective (step s)

namespace Absorbing

variable {σ : Type u} {α : Type v} {step : σ → α → σ}

theorem foldl_injective (h : Absorbing step) (l : List α) :
    Function.Injective fun s ↦ l.foldl step s := by
  induction l with
  | nil => exact fun _ _ heq ↦ heq
  | cons a l ih => exact ih.comp (h.state a)

/-- Inputs that differ in one place at most have the same hash when they are the same there. -/
theorem foldl_append_cons_eq_iff (h : Absorbing step) {before after : List α} {a b : α} {s : σ} :
    (before ++ a :: after).foldl step s = (before ++ b :: after).foldl step s ↔ a = b := by
  rw [List.foldl_append, List.foldl_append, List.foldl_cons, List.foldl_cons]
  exact (h.foldl_injective after).eq_iff.trans (h.item _).eq_iff

end Absorbing

variable {w : Nat}

/-- One step of an FNV-1a hash. -/
def fnvStep (prime hash : BitVec w) (byte : BitVec 8) : BitVec w :=
  (hash ^^^ byte.setWidth w) * prime

theorem setWidth_injective {v : Nat} (h : v ≤ w) :
    Function.Injective (BitVec.setWidth w : BitVec v → BitVec w) := by
  intro x y heq
  have hback := congrArg (BitVec.setWidth v) heq
  rwa [BitVec.setWidth_setWidth_of_le _ h, BitVec.setWidth_setWidth_of_le _ h, BitVec.setWidth_eq,
    BitVec.setWidth_eq] at hback

theorem absorbing_fnvStep (hw : 8 ≤ w) {prime : BitVec w} (hprime : IsUnit prime) :
    Absorbing (fnvStep prime) where
  state _ _ _ heq := (BitVec.xor_left_inj _).mp (hprime.mul_left_inj.mp heq)
  item _ _ _ heq :=
    setWidth_injective hw ((BitVec.xor_right_inj _).mp (hprime.mul_left_inj.mp heq))

end DpdkSpi.Lib
