import Mathlib.Order.Basic

/-!
# Loops that may not end

A computation that may not end is a function of fuel, which has no result when the fuel is not
enough.  `iterate` repeats a body, as an Elgot iteration does: `Sum.inl` is the result of the loop
and `Sum.inr` is the state to go on with.  There is a rule for what the result of a loop is, if any
(`iterate_invariant`), and one for loops that end (`iterate_returns`).
-/

namespace DpdkSpi.Lib

universe u v

variable {σ : Type u} {ρ : Type v}

/-- A computation: its result with some fuel. -/
abbrev Fuelled (ρ : Type v) := Nat → Option ρ

namespace Fuelled

variable {f : Fuelled ρ} {r r' : ρ}

/-- Some fuel is enough for a result. -/
def Returns (f : Fuelled ρ) (r : ρ) : Prop := ∃ fuel, f fuel = some r

/-- More fuel leaves a result as it is. -/
def Monotone (f : Fuelled ρ) : Prop := ∀ fuel r, f fuel = some r → f (fuel + 1) = some r

theorem Monotone.of_le (h : f.Monotone) {fuel fuel' : Nat} (hle : fuel ≤ fuel')
    (hr : f fuel = some r) : f fuel' = some r := by
  induction hle with
  | refl => exact hr
  | step _ ih => exact h _ _ ih

/-- There is one result at most. -/
theorem Monotone.unique (h : f.Monotone) (hr : f.Returns r) (hr' : f.Returns r') : r = r' := by
  obtain ⟨fuel, hr⟩ := hr
  obtain ⟨fuel', hr'⟩ := hr'
  have hmax := h.of_le (Nat.le_max_left fuel fuel') hr
  exact Option.some.inj (hmax.symm.trans (h.of_le (Nat.le_max_right fuel fuel') hr'))

/-- A computation that needs no fuel. -/
theorem monotone_const (r : Option ρ) : Monotone fun _ ↦ r := fun _ _ h ↦ h

theorem returns_const (r : ρ) : Returns (fun _ ↦ some r) r := ⟨0, rfl⟩

end Fuelled

/-- Repeat the body until it has a result.  It gets the fuel that is left. -/
def iterate (body : σ → Fuelled (ρ ⊕ σ)) : σ → Fuelled ρ
  | _, 0 => none
  | s, fuel + 1 =>
      match body s fuel with
      | none => none
      | some (.inl r) => some r
      | some (.inr s') => iterate body s' fuel

section Iterate

variable {body : σ → Fuelled (ρ ⊕ σ)} {s s' : σ} {r : ρ}

theorem iterate_succ_of_inl {fuel : Nat} (h : body s fuel = some (.inl r)) :
    iterate body s (fuel + 1) = some r := by
  rw [iterate, h]

theorem iterate_succ_of_inr {fuel : Nat} (h : body s fuel = some (.inr s')) :
    iterate body s (fuel + 1) = iterate body s' fuel := by
  rw [iterate, h]

theorem iterate_monotone (hbody : ∀ s, (body s).Monotone) (s : σ) :
    (iterate body s).Monotone := by
  intro fuel
  induction fuel generalizing s with
  | zero => exact fun r h ↦ by cases h
  | succ fuel ih =>
      intro r h
      cases hone : body s fuel with
      | none =>
          rw [iterate, hone] at h
          cases h
      | some next =>
          have hmore := hbody s fuel next hone
          cases next with
          | inl result =>
              rw [iterate_succ_of_inl hone] at h
              rw [iterate_succ_of_inl hmore]
              exact h
          | inr s' =>
              rw [iterate_succ_of_inr hone] at h
              rw [iterate_succ_of_inr hmore]
              exact ih s' r h

theorem iterate_returns_of_inl (h : (body s).Returns (.inl r)) : (iterate body s).Returns r := by
  obtain ⟨fuel, h⟩ := h
  exact ⟨fuel + 1, iterate_succ_of_inl h⟩

theorem iterate_returns_of_inr (hbody : ∀ s, (body s).Monotone) (h : (body s).Returns (.inr s'))
    (hrest : (iterate body s').Returns r) : (iterate body s).Returns r := by
  obtain ⟨fuel, h⟩ := h
  obtain ⟨fuel', hrest⟩ := hrest
  refine ⟨max fuel fuel' + 1, ?_⟩
  rw [iterate_succ_of_inr ((hbody s).of_le (Nat.le_max_left fuel fuel') h)]
  exact (iterate_monotone hbody s').of_le (Nat.le_max_right fuel fuel') hrest

/-- What the body preserves while it goes on holds when it ends. -/
theorem iterate_invariant {I : σ → Prop} {Q : ρ → Prop}
    (hnext : ∀ s s', I s → (body s).Returns (.inr s') → I s')
    (hend : ∀ s r, I s → (body s).Returns (.inl r) → Q r) (hs : I s)
    (h : (iterate body s).Returns r) : Q r := by
  obtain ⟨fuel, h⟩ := h
  induction fuel generalizing s with
  | zero => cases h
  | succ fuel ih =>
      cases hone : body s fuel with
      | none =>
          rw [iterate, hone] at h
          cases h
      | some next =>
          cases next with
          | inl result =>
              rw [iterate_succ_of_inl hone] at h
              obtain rfl := Option.some.inj h
              exact hend s result hs ⟨fuel, hone⟩
          | inr s' =>
              rw [iterate_succ_of_inr hone] at h
              exact ih (hnext s s' hs ⟨fuel, hone⟩) h

/-- A loop ends when its body ends it or goes on with a smaller variant. -/
theorem iterate_returns {I : σ → Prop} {Q : ρ → Prop} (variant : σ → Nat)
    (hbody : ∀ s, (body s).Monotone)
    (hstep : ∀ s, I s → (∃ r, (body s).Returns (.inl r) ∧ Q r) ∨
      ∃ s', (body s).Returns (.inr s') ∧ I s' ∧ variant s' < variant s) (hs : I s) :
    ∃ r, (iterate body s).Returns r ∧ Q r := by
  induction hn : variant s using Nat.strongRecOn generalizing s with
  | ind n ih =>
      rcases hstep s hs with ⟨r, hreturns, hr⟩ | ⟨s', hreturns, hs', hlt⟩
      · exact ⟨r, iterate_returns_of_inl hreturns, hr⟩
      · obtain ⟨r, hrest, hr⟩ := ih (variant s') (hn ▸ hlt) hs' rfl
        exact ⟨r, iterate_returns_of_inr hbody hreturns hrest, hr⟩

end Iterate

end DpdkSpi.Lib
