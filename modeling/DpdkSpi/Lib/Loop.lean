import Mathlib.Order.Basic

/-!
# Counting loops

`for (i = start; i < stop; i += stride)` with a body that may fail.  The rule `forStride_ok` shows
that such a loop ends without failing and what holds behind it, from what its body does at one
index.
-/

namespace DpdkSpi.Lib

universe u

variable {α : Type u}

/-- The loop from an index on, with the state in front of it. -/
def forStride {stride : Nat} (hstride : 0 < stride) (stop : Nat) (body : Nat → α → Option α)
    (i : Nat) (s : α) : Option α :=
  if i < stop then
    match body i s with
    | none => none
    | some s' => forStride hstride stop body (i + stride) s'
  else some s
termination_by stop - i

/-- What the body preserves from one index to the next holds behind the loop, and the loop does not
fail.  The last stride may reach beyond the end. -/
theorem forStride_ok {stride : Nat} (hstride : 0 < stride) {stop : Nat}
    {body : Nat → α → Option α} (P : Nat → α → Prop)
    (hstep : ∀ i s, i < stop → P i s → ∃ s', body i s = some s' ∧ P (min (i + stride) stop) s')
    {i : Nat} {s : α} (h : P (min i stop) s) :
    ∃ s', forStride hstride stop body i s = some s' ∧ P stop s' := by
  induction i, s using forStride.induct hstride stop body with
  | case1 i s hi hfail =>
      rw [Nat.min_eq_left (Nat.le_of_lt hi)] at h
      obtain ⟨s', hs', -⟩ := hstep i s hi h
      rw [hfail] at hs'
      cases hs'
  | case2 i s hi s' hbody ih =>
      rw [Nat.min_eq_left (Nat.le_of_lt hi)] at h
      obtain ⟨s'', hs'', hnext⟩ := hstep i s hi h
      obtain rfl := Option.some.inj (hbody.symm.trans hs'')
      rw [forStride, if_pos hi, hbody]
      exact ih hnext
  | case3 i s hi =>
      rw [Nat.min_eq_right (Nat.le_of_not_lt hi)] at h
      rw [forStride, if_neg hi]
      exact ⟨s, rfl, h⟩

end DpdkSpi.Lib
