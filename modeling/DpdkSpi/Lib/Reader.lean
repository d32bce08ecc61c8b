import Mathlib.Data.List.Basic

/-!
# Checked reads

Code that reads a buffer by index can go wrong in two ways: it reads behind the end, or a loop
of it goes on for more rounds than it was given.  Both are faults here, so that a run without a
fault is one whose every read is in bounds and whose loops end.
-/

namespace DpdkSpi.Lib

/-- What can go wrong in a reader. -/
inductive Fault where
  | outOfBounds (index : Nat)
  | outOfFuel
deriving DecidableEq, Repr

variable {α β : Type}

/-- Read one element. -/
def readAt (buffer : List α) (i : Nat) : Except Fault α :=
  match buffer[i]? with
  | none => .error (.outOfBounds i)
  | some a => .ok a

/-- Compare with a pattern, up to the first difference. -/
def matchesAt [DecidableEq α] (buffer : List α) : (i : Nat) → (pattern : List α) →
    Except Fault Bool
  | _, [] => pure true
  | i, p :: pattern => do
      let a ← readAt buffer i
      if a = p then matchesAt buffer (i + 1) pattern else pure false

/-- Go on while the elements satisfy a condition, one round of the loop for each of them. -/
def skipWhile (p : α → Bool) (buffer : List α) : (fuel i : Nat) → Except Fault Nat
  | 0, _ => .error .outOfFuel
  | fuel + 1, i =>
      if i < buffer.length then do
        let a ← readAt buffer i
        if p a then skipWhile p buffer fuel (i + 1) else pure i
      else pure i

/-- The first answer of a check at the positions from one on to another one, one round of the
loop for each of them. -/
def scanFrom (check : Nat → Except Fault (Option β)) (stop : Nat) : (fuel i : Nat) →
    Except Fault (Option β)
  | 0, _ => .error .outOfFuel
  | fuel + 1, i =>
      if i < stop then do
        match ← check i with
        | some b => pure (some b)
        | none => scanFrom check stop fuel (i + 1)
      else pure none

/-! ## Runs without a fault -/

theorem ok_bind (a : α) (f : α → Except Fault β) : (Except.ok a >>= f) = f a := rfl

variable {buffer : List α} {i fuel : Nat}

theorem readAt_of_getElem? {a : α} (h : buffer[i]? = some a) : readAt buffer i = .ok a := by
  rw [readAt, h]

theorem readAt_of_lt (h : i < buffer.length) : readAt buffer i = .ok buffer[i] :=
  readAt_of_getElem? (List.getElem?_eq_getElem h)

theorem readAt_eq_getD (a : α) (h : i < buffer.length) :
    readAt buffer i = .ok (buffer.getD i a) := by
  rw [readAt_of_lt h, List.getD_eq_getElem?_getD, List.getElem?_eq_getElem h, Option.getD_some]

theorem readAt_of_le (h : buffer.length ≤ i) : readAt buffer i = .error (.outOfBounds i) := by
  rw [readAt, List.getElem?_eq_none h]

/-- Behind a part that starts at a place, the rest stands. -/
theorem drop_of_drop_append {part rest : List α} (h : buffer.drop i = part ++ rest) :
    buffer.drop (i + part.length) = rest := by
  rw [← List.drop_drop, h, List.drop_left]

theorem matchesAt_eq [DecidableEq α] {pattern : List α} (h : i + pattern.length ≤ buffer.length) :
    matchesAt buffer i pattern = .ok (pattern.isPrefixOf (buffer.drop i)) := by
  induction pattern generalizing i with
  | nil => rfl
  | cons p pattern ih =>
      rw [List.length_cons] at h
      have hi : i < buffer.length := by omega
      rw [matchesAt, readAt_of_lt hi, ok_bind, List.drop_eq_getElem_cons hi,
        List.isPrefixOf_cons_cons]
      by_cases ha : buffer[i] = p
      · rw [if_pos ha, ih (by omega), ha, beq_self_eq_true, Bool.true_and]
      · rw [if_neg ha, beq_false_of_ne (Ne.symm ha), Bool.false_and]
        rfl

theorem skipWhile_eq {p : α → Bool} (hfuel : buffer.length - i < fuel) :
    skipWhile p buffer fuel i = .ok (i + ((buffer.drop i).takeWhile p).length) := by
  induction fuel generalizing i with
  | zero => exact absurd hfuel (Nat.not_lt_zero _)
  | succ fuel ih =>
      rw [skipWhile]
      by_cases hlt : i < buffer.length
      · rw [if_pos hlt, readAt_of_lt hlt, ok_bind, List.drop_eq_getElem_cons hlt]
        cases hp : p buffer[i] with
        | true =>
            rw [if_pos rfl, ih (by omega), List.takeWhile_cons_of_pos hp,
              List.length_cons, Nat.add_assoc, Nat.add_comm 1]
        | false =>
            rw [if_neg Bool.false_ne_true, List.takeWhile_cons_of_neg (by rw [hp]; decide)]
            rfl
      · rw [if_neg hlt, List.drop_eq_nil_of_le (Nat.le_of_not_lt hlt)]
        rfl

/-- Conditions that can be checked one after another. -/
theorem anyM_eq {γ : Type} {f : γ → Except Fault Bool} {p : γ → Bool} {l : List γ}
    (h : ∀ c ∈ l, f c = .ok (p c)) : l.anyM f = .ok (l.any p) := by
  induction l with
  | nil => rfl
  | cons c l ih =>
      rw [List.anyM_cons, h c List.mem_cons_self, ok_bind, List.any_cons]
      cases p c with
      | true => rfl
      | false => exact ih fun d hd ↦ h d (List.mem_cons_of_mem _ hd)

/-! ## Searches -/

/-- What a search for a place may answer: the value at the first of the places in question, or
nothing if there is no such place. -/
inductive FirstAnswer (place : Nat → Prop) (value : Nat → β) : Option β → Prop
  | none (h : ∀ i, ¬ place i) : FirstAnswer place value none
  | found (i : Nat) (h : place i) (hfirst : ∀ j, place j → i ≤ j) :
      FirstAnswer place value (some (value i))

theorem FirstAnswer.congr {place place' : Nat → Prop} {value : Nat → β} {found : Option β}
    (h : FirstAnswer place value found) (hplace : ∀ i, place i ↔ place' i) :
    FirstAnswer place' value found := by
  cases h with
  | none h => exact .none fun i hi ↦ h i ((hplace i).mpr hi)
  | found i h hfirst =>
      exact .found i ((hplace i).mp h) fun j hj ↦ hfirst j ((hplace j).mpr hj)

theorem answer_eq_none_iff {place : Nat → Prop} {value : Nat → β} {found : Option β}
    (h : FirstAnswer place value found) : found = none ↔ ¬ ∃ i, place i := by
  cases h with
  | none h => exact iff_of_true rfl (not_exists.mpr h)
  | found i h _ => exact iff_of_false (Option.some_ne_none _) (not_not_intro ⟨i, h⟩)

/-- A scan whose checks do not fail finds the first place that passes. -/
theorem scanFrom_answer {check : Nat → Except Fault (Option β)} {place : Nat → Prop}
    {value : Nat → β} {stop : Nat}
    (hpass : ∀ j, i ≤ j → j < stop → place j → check j = .ok (some (value j)))
    (hfail : ∀ j, i ≤ j → j < stop → ¬ place j → check j = .ok none)
    (hfuel : stop - i < fuel) :
    ∃ found, scanFrom check stop fuel i = .ok found ∧
      FirstAnswer (fun j ↦ i ≤ j ∧ j < stop ∧ place j) value found := by
  induction fuel generalizing i with
  | zero => exact absurd hfuel (Nat.not_lt_zero _)
  | succ fuel ih =>
      rw [scanFrom]
      by_cases hlt : i < stop
      · by_cases hi : place i
        · rw [if_pos hlt, hpass i (Nat.le_refl i) hlt hi, ok_bind]
          exact ⟨_, rfl, .found i ⟨Nat.le_refl i, hlt, hi⟩ fun j hj ↦ hj.1⟩
        · obtain ⟨found, hrun, hanswer⟩ := ih (i := i + 1) (fun j hj ↦ hpass j (by omega))
            (fun j hj ↦ hfail j (by omega)) (by omega)
          rw [if_pos hlt, hfail i (Nat.le_refl i) hlt hi, ok_bind]
          refine ⟨found, hrun, hanswer.congr fun j ↦ ?_⟩
          constructor
          · rintro ⟨hle, hj⟩
            exact ⟨Nat.le_of_succ_le hle, hj⟩
          · rintro ⟨hle, hj⟩
            rcases Nat.eq_or_lt_of_le hle with rfl | hlt
            · exact absurd hj.2 hi
            · exact ⟨hlt, hj⟩
      · rw [if_neg hlt]
        exact ⟨_, rfl, .none fun j hj ↦ hlt (Nat.lt_of_le_of_lt hj.1 hj.2.1)⟩

end DpdkSpi.Lib
