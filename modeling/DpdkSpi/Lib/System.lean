import Mathlib.Logic.Relation

/-!
# Labelled transition systems

A system is a set of initial states and a labelled step relation.  Safety
properties are proved by the one induction of this file, `Reach.invariant`; a
property that only holds of *some* runs is proved about a `restrict`ed system,
whose runs are the runs of the original one all of whose steps meet a
condition.

Deterministic machines, in which the label resolves every choice, are systems
through `ofFun`; machines whose labels may be disabled are systems through
`ofPartial`.  Both come with the executable notion of a run that concrete
traces are replayed with.
-/

namespace DpdkSpi.Lib

universe u v

/-- A labelled transition system: its initial states and its steps. -/
structure System (σ : Type u) (α : Type v) where
  /-- The states a run may start from. -/
  init : σ → Prop
  /-- `step s a s'`: the action `a` may take the system from `s` to `s'`. -/
  step : σ → α → σ → Prop

namespace System

variable {σ : Type u} {α : Type v}

/-- The states some finite run ends in. -/
inductive Reach (S : System σ α) : σ → Prop
  /-- Every initial state is reached by the empty run. -/
  | init {s : σ} : S.init s → Reach S s
  /-- A step extends a run. -/
  | step {s s' : σ} {a : α} : Reach S s → S.step s a s' → Reach S s'

/-- What holds initially and is kept by every step holds of every reachable state. -/
theorem Reach.invariant {S : System σ α} {I : σ → Prop} (hinit : ∀ s, S.init s → I s)
    (hstep : ∀ s a s', I s → S.step s a s' → I s') {s : σ} (h : S.Reach s) : I s := by
  induction h with
  | init hs => exact hinit _ hs
  | step _ hs ih => exact hstep _ _ _ ih hs

/-- The same system, with only the steps that meet the condition `C`: a condition
on the action and on the state it is taken in, never on the outcome. -/
def restrict (S : System σ α) (C : σ → α → Prop) : System σ α where
  init := S.init
  step s a s' := C s a ∧ S.step s a s'

/-- The runs of the restricted system are runs. -/
theorem Reach.of_restrict {S : System σ α} {C : σ → α → Prop} {s : σ}
    (h : (S.restrict C).Reach s) : S.Reach s := by
  induction h with
  | init hs => exact .init hs
  | step _ hs ih => exact .step ih hs.2

/-- A condition that every step meets is no restriction. -/
theorem Reach.restrict {S : System σ α} {C : σ → α → Prop} (hC : ∀ s a, C s a) {s : σ}
    (h : S.Reach s) : (S.restrict C).Reach s := by
  induction h with
  | init hs => exact .init hs
  | step _ hs ih => exact .step ih ⟨hC _ _, hs⟩

/-! ## Machines -/

/-- The system of a deterministic machine with one initial state. -/
def ofFun (s₀ : σ) (f : σ → α → σ) : System σ α where
  init s := s = s₀
  step s a s' := f s a = s'

/-- The system of a machine whose actions may be disabled. -/
def ofPartial (s₀ : σ) (f : σ → α → Option σ) : System σ α where
  init s := s = s₀
  step s a s' := f s a = some s'

/-- Every action of a list meets the condition in the state it is taken in. -/
def Meets (C : σ → α → Prop) (f : σ → α → σ) : σ → List α → Prop
  | _, [] => True
  | s, a :: as => C s a ∧ Meets C f (f s a) as

/-- Two conditions that come to the same under an invariant, which the first one keeps, come to
the same along a list of actions. -/
theorem meets_congr {C D : σ → α → Prop} {f : σ → α → σ} {I : σ → Prop}
    (hiff : ∀ s a, I s → (C s a ↔ D s a)) (hstep : ∀ s a, I s → C s a → I (f s a)) {s : σ}
    (hs : I s) (as : List α) : Meets C f s as ↔ Meets D f s as := by
  induction as generalizing s with
  | nil => exact Iff.rfl
  | cons a as ih =>
      constructor
      · intro h
        exact ⟨(hiff s a hs).mp h.1, (ih (hstep s a hs h.1)).mp h.2⟩
      · intro h
        have ha := (hiff s a hs).mpr h.1
        exact ⟨ha, (ih (hstep s a hs ha)).mpr h.2⟩

/-- Replaying a list of actions that meet the condition. -/
theorem Reach.foldl {s₀ s : σ} {f : σ → α → σ} {C : σ → α → Prop}
    (h : ((ofFun s₀ f).restrict C).Reach s) (as : List α) (hC : Meets C f s as) :
    ((ofFun s₀ f).restrict C).Reach (as.foldl f s) := by
  induction as generalizing s with
  | nil => exact h
  | cons a as ih => exact ih (.step h ⟨hC.1, rfl⟩) hC.2

/-- Replaying a list of actions from a reachable state, with a function that only takes
steps of the system. -/
theorem Reach.foldlM {S : System σ α} {f : σ → α → Option σ}
    (hf : ∀ s a s', f s a = some s' → S.step s a s') {s s' : σ} (h : S.Reach s) (as : List α)
    (hrun : as.foldlM f s = some s') : S.Reach s' := by
  induction as generalizing s with
  | nil =>
      obtain rfl : s = s' := by simpa using hrun
      exact h
  | cons a as ih =>
      rw [List.foldlM_cons, Option.bind_eq_bind, Option.bind_eq_some_iff] at hrun
      obtain ⟨t, ht, hrest⟩ := hrun
      exact ih (.step h (hf s a t ht)) hrest

/-- Replaying a list of actions that are all enabled reaches a state. -/
theorem reach_foldlM {s₀ s' : σ} {f : σ → α → Option σ} (as : List α)
    (hrun : as.foldlM f s₀ = some s') : (ofPartial s₀ f).Reach s' :=
  Reach.foldlM (fun _ _ _ hs ↦ hs) (.init rfl) as hrun

/-- The same for a restricted machine: every action has to meet the condition in the
state it is taken in. -/
theorem reach_restrict_foldlM {s₀ s' : σ} {f : σ → α → Option σ} {C : σ → α → Prop}
    [∀ s a, Decidable (C s a)] (as : List α)
    (hrun : as.foldlM (fun s a ↦ if C s a then f s a else none) s₀ = some s') :
    ((ofPartial s₀ f).restrict C).Reach s' := by
  refine Reach.foldlM (fun s a t ht ↦ ?_) (.init rfl) as hrun
  split at ht
  · rename_i hC
    exact ⟨hC, ht⟩
  · cases ht

end System

end DpdkSpi.Lib
