import Mathlib.Logic.Function.Basic
import Mathlib.Data.List.Basic

/-!
# Registries of named objects

A library that hands out objects by name keeps a registry: asking for a name that is
registered returns the handle of the object that is there, asking for another name
registers a new object under a handle that was never used before.  Whoever holds a
handle may change or remove the object behind it; other holders of the same handle are
not told.

Handles are not reused, so that a handle whose object was removed is recognisably
dangling.
-/

namespace DpdkSpi.Lib

universe u v

/-- Objects of type `π` registered under names of type `κ`. -/
structure Registry (κ : Type u) (π : Type v) where
  /-- The name and the object behind a handle. -/
  slots : Nat → Option (κ × π)
  /-- The handle the next new object gets. -/
  next : Nat
  /-- Handles are given out in order. -/
  lt_next : ∀ id e, slots id = some e → id < next
  /-- A name is registered at most once. -/
  name_inj : ∀ i j e e', slots i = some e → slots j = some e' → e.1 = e'.1 → i = j

namespace Registry

variable {κ : Type u} {π : Type v}

/-- The registry in which nothing was registered yet. -/
def empty : Registry κ π where
  slots := fun _ ↦ none
  next := 0
  lt_next := by intro id e h; cases h
  name_inj := by intro i j e e' h; cases h

/-- The object behind a handle. -/
def find (r : Registry κ π) (id : Nat) : Option π := (r.slots id).map Prod.snd

theorem find_eq_some_iff {r : Registry κ π} {id : Nat} {o : π} :
    r.find id = some o ↔ ∃ k, r.slots id = some (k, o) := by
  rw [find, Option.map_eq_some_iff]
  constructor
  · rintro ⟨⟨k, o'⟩, h, rfl⟩
    exact ⟨k, h⟩
  · rintro ⟨k, h⟩
    exact ⟨(k, o), h, rfl⟩

/-- Two registries in which the same handles lead to the same objects, as far as `id`
is concerned. -/
theorem find_congr {r r' : Registry κ π} {id : Nat} (h : r'.slots id = r.slots id) :
    r'.find id = r.find id := by
  rw [find, find, h]

/-! ## Lookup by name -/

/-- The handle registered under a name. -/
def named [DecidableEq κ] (r : Registry κ π) (k : κ) : Option Nat :=
  (List.range r.next).find? fun id ↦ (r.slots id).map Prod.fst = some k

theorem named_eq_some_iff [DecidableEq κ] {r : Registry κ π} {k : κ} {id : Nat} :
    r.named k = some id ↔ ∃ o, r.slots id = some (k, o) := by
  have hname : ∀ {i}, (r.slots i).map Prod.fst = some k ↔ ∃ o, r.slots i = some (k, o) := by
    intro i
    rw [Option.map_eq_some_iff]
    constructor
    · rintro ⟨⟨k', o⟩, h, rfl⟩
      exact ⟨o, h⟩
    · rintro ⟨o, h⟩
      exact ⟨(k, o), h, rfl⟩
  constructor
  · intro h
    exact hname.mp (by simpa using List.find?_some h)
  · rintro ⟨o, ho⟩
    cases h : r.named k with
    | none =>
        have hno := List.find?_eq_none.mp h id (List.mem_range.mpr (r.lt_next id _ ho))
        exact absurd (hname.mpr ⟨o, ho⟩) (by simpa using hno)
    | some id' =>
        obtain ⟨o', ho'⟩ := hname.mp (by simpa using List.find?_some h)
        rw [r.name_inj id' id _ _ ho' ho rfl]

theorem named_eq_none_iff [DecidableEq κ] {r : Registry κ π} {k : κ} :
    r.named k = none ↔ ∀ id o, r.slots id ≠ some (k, o) := by
  constructor
  · intro h id o ho
    rw [named_eq_some_iff.mpr ⟨o, ho⟩] at h
    cases h
  · intro h
    cases hn : r.named k with
    | none => rfl
    | some id =>
        obtain ⟨o, ho⟩ := named_eq_some_iff.mp hn
        exact absurd ho (h id o)

/-- The handle of a name depends on the slots with that name only. -/
theorem named_congr [DecidableEq κ] {r r' : Registry κ π} {k : κ}
    (h : ∀ id, (∃ o, r'.slots id = some (k, o)) ↔ ∃ o, r.slots id = some (k, o)) :
    r'.named k = r.named k := by
  refine Option.ext fun id ↦ ?_
  rw [named_eq_some_iff, named_eq_some_iff]
  exact h id

/-! ## Operations -/

/-- Register a new object under a name that is not taken. -/
def register [DecidableEq κ] (r : Registry κ π) (k : κ) (o : π) (h : r.named k = none) :
    Registry κ π where
  slots := Function.update r.slots r.next (some (k, o))
  next := r.next + 1
  lt_next := by
    intro id e he
    by_cases hid : id = r.next
    · omega
    · rw [Function.update_of_ne hid] at he
      exact Nat.lt_succ_of_lt (r.lt_next id e he)
  name_inj := by
    intro i j e e' hi hj hk
    have hfree := named_eq_none_iff.mp h
    by_cases hin : i = r.next <;> by_cases hjn : j = r.next
    · rw [hin, hjn]
    · rw [hin, Function.update_self, Option.some.injEq] at hi
      rw [Function.update_of_ne hjn] at hj
      subst hi
      obtain ⟨k', o'⟩ := e'
      obtain rfl : k = k' := hk
      exact absurd hj (hfree j o')
    · rw [hjn, Function.update_self, Option.some.injEq] at hj
      rw [Function.update_of_ne hin] at hi
      subst hj
      obtain ⟨k', o'⟩ := e
      obtain rfl : k' = k := hk
      exact absurd hi (hfree i o')
    · rw [Function.update_of_ne hin] at hi
      rw [Function.update_of_ne hjn] at hj
      exact r.name_inj i j e e' hi hj hk

@[simp] theorem slots_register [DecidableEq κ] (r : Registry κ π) (k : κ) (o : π)
    (h : r.named k = none) :
    (r.register k o h).slots = Function.update r.slots r.next (some (k, o)) := rfl

@[simp] theorem next_register [DecidableEq κ] (r : Registry κ π) (k : κ) (o : π)
    (h : r.named k = none) : (r.register k o h).next = r.next + 1 := rfl

/-- Change the object behind a handle; a dangling handle has none. -/
def modify (r : Registry κ π) (id : Nat) (f : π → π) : Registry κ π where
  slots := Function.update r.slots id ((r.slots id).map fun e ↦ (e.1, f e.2))
  next := r.next
  lt_next := by
    intro i e he
    by_cases hi : i = id
    · subst hi
      rw [Function.update_self, Option.map_eq_some_iff] at he
      obtain ⟨e', he', -⟩ := he
      exact r.lt_next i e' he'
    · rw [Function.update_of_ne hi] at he
      exact r.lt_next i e he
  name_inj := by
    have hname : ∀ {i e}, Function.update r.slots id ((r.slots id).map fun e ↦ (e.1, f e.2)) i =
        some e → ∃ e', r.slots i = some e' ∧ e'.1 = e.1 := by
      intro i e he
      by_cases hi : i = id
      · subst hi
        rw [Function.update_self, Option.map_eq_some_iff] at he
        obtain ⟨e', he', rfl⟩ := he
        exact ⟨e', he', rfl⟩
      · rw [Function.update_of_ne hi] at he
        exact ⟨e, he, rfl⟩
    intro i j e e' hi hj hk
    obtain ⟨a, ha, hae⟩ := hname hi
    obtain ⟨b, hb, hbe⟩ := hname hj
    exact r.name_inj i j a b ha hb (by rw [hae, hbe, hk])

@[simp] theorem slots_modify (r : Registry κ π) (id : Nat) (f : π → π) :
    (r.modify id f).slots = Function.update r.slots id ((r.slots id).map fun e ↦ (e.1, f e.2)) :=
  rfl

@[simp] theorem next_modify (r : Registry κ π) (id : Nat) (f : π → π) :
    (r.modify id f).next = r.next := rfl

/-- Remove the object behind a handle and free its name. -/
def remove (r : Registry κ π) (id : Nat) : Registry κ π where
  slots := Function.update r.slots id none
  next := r.next
  lt_next := by
    intro i e he
    by_cases hi : i = id
    · rw [hi, Function.update_self] at he
      cases he
    · rw [Function.update_of_ne hi] at he
      exact r.lt_next i e he
  name_inj := by
    have hkeep : ∀ {i e}, Function.update r.slots id none i = some e → r.slots i = some e := by
      intro i e he
      by_cases hi : i = id
      · rw [hi, Function.update_self] at he
        cases he
      · rwa [Function.update_of_ne hi] at he
    intro i j e e' hi hj hk
    exact r.name_inj i j e e' (hkeep hi) (hkeep hj) hk

@[simp] theorem slots_remove (r : Registry κ π) (id : Nat) :
    (r.remove id).slots = Function.update r.slots id none := rfl

@[simp] theorem next_remove (r : Registry κ π) (id : Nat) : (r.remove id).next = r.next := rfl

end Registry

end DpdkSpi.Lib
