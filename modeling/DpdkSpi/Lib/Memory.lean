import Mathlib.Data.Set.Basic

/-!
# Stores into a memory

A memory is a function from indices.  A store writes some values from an index on and leaves the
rest alone.  Two memories that agree outside a set of indices are what a program of stores is
described by: the sets of its stores are collected (`AgreeOutside.store`).
-/

namespace DpdkSpi.Lib

universe u

variable {α : Type u}

/-- Write values over a memory, from an index on. -/
def store (m : Nat → α) (offset : Nat) (values : List α) : Nat → α := fun i ↦
  if offset ≤ i then values.getD (i - offset) (m i) else m i

/-- The indices that a store of so many values writes. -/
def written (offset size : Nat) : Set Nat := {i | offset ≤ i ∧ i < offset + size}

@[simp] theorem mem_written {offset size i : Nat} :
    i ∈ written offset size ↔ offset ≤ i ∧ i < offset + size := Iff.rfl

theorem store_of_notMem {m : Nat → α} {offset : Nat} {values : List α} {i : Nat}
    (h : i ∉ written offset values.length) : store m offset values i = m i := by
  unfold store
  by_cases hle : offset ≤ i
  · have hbehind : values.length ≤ i - offset := by
      have hend : ¬ i < offset + values.length := fun hlt ↦ h ⟨hle, hlt⟩
      omega
    rw [if_pos hle, List.getD_eq_getElem?_getD, List.getElem?_eq_none hbehind, Option.getD_none]
  · rw [if_neg hle]

theorem store_head (m : Nat → α) (offset : Nat) (a : α) (values : List α) :
    store m offset (a :: values) offset = a := by
  unfold store
  rw [if_pos le_rfl, Nat.sub_self]
  rfl

/-- The memories are the same outside some indices. -/
def AgreeOutside (s : Set Nat) (m m' : Nat → α) : Prop := ∀ i, i ∉ s → m' i = m i

namespace AgreeOutside

variable {s t : Set Nat} {m m' m'' : Nat → α}

theorem refl (m : Nat → α) : AgreeOutside s m m := fun _ _ ↦ rfl

theorem trans (h : AgreeOutside s m m') (h' : AgreeOutside s m' m'') : AgreeOutside s m m'' :=
  fun i hi ↦ (h' i hi).trans (h i hi)

theorem mono (h : AgreeOutside s m m') (hst : s ⊆ t) : AgreeOutside t m m' :=
  fun i hi ↦ h i fun hs ↦ hi (hst hs)

/-- One more store, at indices that may differ anyway. -/
theorem store (h : AgreeOutside s m m') {offset : Nat} {values : List α}
    (hwritten : written offset values.length ⊆ s) : AgreeOutside s m (Lib.store m' offset values) :=
  h.trans fun _ hi ↦ store_of_notMem fun hs ↦ hi (hwritten hs)

end AgreeOutside

end DpdkSpi.Lib
