import Mathlib.Data.Set.Basic
import Mathlib.Data.List.Basic

/-!
# The first answer of a chain

A chain of stages is asked in turn until one of them answers.  What a stage says is not
known, only what it may say: a set of possible answers, where `none` passes the question on.
This file characterises the properties that the answer of the chain has whatever the stages
say: when there is sure to be an answer with the property (`forall_findSome?_iff`), and when
there is none without it (`forall_findSome?_within_iff`).
-/

namespace DpdkSpi.Lib

universe u v

variable {ι : Type u} {ρ : Type v} {choices : ι → Set (Option ρ)} {Q : ρ → Prop} {l : List ι}

/-- Some stage answers for sure, and as `Q` says; and the stages before it do not answer
otherwise. -/
def Settles (choices : ι → Set (Option ρ)) (Q : ρ → Prop) (l : List ι) : Prop :=
  ∃ before i after, l = before ++ i :: after ∧ (∀ a ∈ choices i, ∃ r, a = some r ∧ Q r) ∧
    ∀ j ∈ before, ∀ r, some r ∈ choices j → Q r

theorem settles_of_head {i : ι} (h : ∀ a ∈ choices i, ∃ r, a = some r ∧ Q r) :
    Settles choices Q (i :: l) := by
  refine ⟨[], i, l, rfl, h, fun j hj ↦ ?_⟩
  cases hj

theorem Settles.cons {i : ι} (h : Settles choices Q l) (hi : ∀ r, some r ∈ choices i → Q r) :
    Settles choices Q (i :: l) := by
  obtain ⟨before, j, after, rfl, hj, hbefore⟩ := h
  exact ⟨i :: before, j, after, rfl, hj, List.forall_mem_cons.mpr ⟨hi, hbefore⟩⟩

/-- A chain that settles answers, whatever its stages say. -/
theorem Settles.findSome? (h : Settles choices Q l) {σ : ι → Option ρ}
    (hσ : ∀ i, σ i ∈ choices i) : ∃ r, l.findSome? σ = some r ∧ Q r := by
  obtain ⟨before, i, after, rfl, hi, hbefore⟩ := h
  induction before with
  | nil =>
      obtain ⟨r, hr, hq⟩ := hi _ (hσ i)
      exact ⟨r, by rw [List.nil_append, List.findSome?_cons, hr], hq⟩
  | cons j before ih =>
      obtain ⟨hj, hrest⟩ := List.forall_mem_cons.mp hbefore
      rw [List.cons_append, List.findSome?_cons]
      cases hσj : σ j with
      | none => exact ih hrest
      | some r => exact ⟨r, rfl, hj r (hσj ▸ hσ j)⟩

/-- The worst that a stage may say: a wrong answer, else no answer, else any. -/
theorem exists_worst (Q : ρ → Prop) {s : Set (Option ρ)} (hs : s.Nonempty) : ∃ a ∈ s,
    (∃ r, a = some r ∧ ¬ Q r) ∨ (a = none ∧ ∀ r, some r ∈ s → Q r) ∨
      ∀ b ∈ s, ∃ r, b = some r ∧ Q r := by
  by_cases hwrong : ∃ r, some r ∈ s ∧ ¬ Q r
  · obtain ⟨r, hr, hq⟩ := hwrong
    exact ⟨some r, hr, .inl ⟨r, rfl, hq⟩⟩
  have hright : ∀ r, some r ∈ s → Q r := fun r hr ↦ by
    by_contra hq
    exact hwrong ⟨r, hr, hq⟩
  by_cases hnone : none ∈ s
  · exact ⟨none, hnone, .inr (.inl ⟨rfl, hright⟩)⟩
  obtain ⟨a, ha⟩ := hs
  refine ⟨a, ha, .inr (.inr fun b hb ↦ ?_)⟩
  cases b with
  | none => exact absurd hb hnone
  | some r => exact ⟨r, rfl, hright r hb⟩

/-- **What the answer of a chain is sure to be.** -/
theorem forall_findSome?_iff (hne : ∀ i, (choices i).Nonempty) :
    (∀ σ : ι → Option ρ, (∀ i, σ i ∈ choices i) → ∃ r, l.findSome? σ = some r ∧ Q r) ↔
      Settles choices Q l := by
  refine ⟨fun h ↦ ?_, fun h σ hσ ↦ h.findSome? hσ⟩
  choose worst hmem hworst using fun i ↦ exists_worst Q (hne i)
  have hanswer := h worst hmem
  clear h
  induction l with
  | nil =>
      obtain ⟨r, hr, -⟩ := hanswer
      cases hr
  | cons i l ih =>
      rw [List.findSome?_cons] at hanswer
      rcases hworst i with ⟨r, hr, hq⟩ | ⟨hnone, hright⟩ | hsure
      · rw [hr] at hanswer
        obtain ⟨r', hr', hq'⟩ := hanswer
        cases hr'
        exact absurd hq' hq
      · rw [hnone] at hanswer
        exact (ih hanswer).cons hright
      · exact settles_of_head hsure

/-- No stage that may be asked answers otherwise than as `Q` says. -/
def AnswersWithin (choices : ι → Set (Option ρ)) (Q : ρ → Prop) : List ι → Prop
  | [] => True
  | i :: l => (∀ r, some r ∈ choices i → Q r) ∧ (none ∈ choices i → AnswersWithin choices Q l)

theorem AnswersWithin.findSome? (h : AnswersWithin choices Q l) {σ : ι → Option ρ}
    (hσ : ∀ i, σ i ∈ choices i) {r : ρ} (hr : l.findSome? σ = some r) : Q r := by
  induction l with
  | nil => cases hr
  | cons i l ih =>
      rw [List.findSome?_cons] at hr
      cases hi : σ i with
      | none =>
          rw [hi] at hr
          exact ih (h.2 (hi ▸ hσ i)) hr
      | some r' =>
          rw [hi] at hr
          obtain rfl := Option.some.inj hr
          exact h.1 r' (hi ▸ hσ i)

/-- **What the answer of a chain can only be.** -/
theorem forall_findSome?_within_iff (hne : ∀ i, (choices i).Nonempty) :
    (∀ σ : ι → Option ρ, (∀ i, σ i ∈ choices i) → ∀ r, l.findSome? σ = some r → Q r) ↔
      AnswersWithin choices Q l := by
  refine ⟨fun h ↦ ?_, fun h σ hσ r ↦ h.findSome? hσ⟩
  choose worst hmem hworst using fun i ↦ exists_worst Q (hne i)
  have hanswer := h worst hmem
  clear h
  induction l with
  | nil => trivial
  | cons i l ih =>
      rw [List.findSome?_cons] at hanswer
      rcases hworst i with ⟨r, hr, hq⟩ | ⟨hnone, hright⟩ | hsure
      · rw [hr] at hanswer
        exact absurd (hanswer r rfl) hq
      · rw [hnone] at hanswer
        exact ⟨hright, fun _ ↦ ih hanswer⟩
      · refine ⟨fun r hr ↦ ?_, fun hnone ↦ ?_⟩
        · obtain ⟨r', hr', hq⟩ := hsure _ hr
          obtain rfl := Option.some.inj hr'
          exact hq
        · obtain ⟨r, hr, -⟩ := hsure _ hnone
          cases hr

end DpdkSpi.Lib
