import Mathlib.Algebra.GroupWithZero.Nat
import Mathlib.Data.List.AList

/-!
# Weighted finite maps

A finite map whose values have a weight, with the total over all of its entries, and the
loop that goes over a map and erases what it finds to be of no use.
-/

namespace DpdkSpi.Lib

universe u v

/-- A finite map from keys to values. -/
abbrev FinMap (α : Type u) (β : Type v) := AList fun _ : α ↦ β

namespace FinMap

variable {α : Type u} {β : Type v}

/-- The total weight of the values. -/
def weight (f : β → Nat) (s : FinMap α β) : Nat := (s.entries.map fun e ↦ f e.2).sum

@[simp] theorem weight_empty (f : β → Nat) : weight f (∅ : FinMap α β) = 0 := rfl

theorem weight_one (s : FinMap α β) : weight (fun _ ↦ 1) s = s.keys.length := by
  simp [weight, AList.keys, List.keys]

variable [DecidableEq α]

theorem mem_entries {s : FinMap α β} {a : α} {b : β} :
    ⟨a, b⟩ ∈ s.entries ↔ s.lookup a = some b :=
  AList.mem_lookup_iff.symm

/-- Erasing a key takes the weight of its value away. -/
theorem weight_erase_add (f : β → Nat) {s : FinMap α β} {a : α} {b : β}
    (h : s.lookup a = some b) : weight f (s.erase a) + f b = weight f s := by
  have hmem : a ∈ s.entries.keys := List.mem_keys_of_mem (mem_entries.mpr h)
  obtain ⟨b', l₁, l₂, hnot, hs, herase⟩ := List.exists_of_kerase hmem
  have hb : b' = b := by
    have hmem' : (⟨a, b'⟩ : (_ : α) × β) ∈ s.entries := by
      rw [hs]
      exact List.mem_append_right _ List.mem_cons_self
    rw [mem_entries, h] at hmem'
    exact (Option.some.inj hmem').symm
  have herase' : (s.erase a).entries = l₁ ++ l₂ := herase
  rw [weight, weight, herase', hs, hb]
  simp only [List.map_append, List.map_cons, List.sum_append, List.sum_cons]
  omega

/-- Erasing a key that is not there changes nothing. -/
theorem erase_of_lookup_eq_none {s : FinMap α β} {a : α} (h : s.lookup a = none) :
    s.erase a = s := by
  refine AList.ext ?_
  rw [AList.lookup_eq_none] at h
  exact List.kerase_of_notMem_keys h

/-- A map without values is empty. -/
theorem eq_empty_of_lookup {s : FinMap α β} (h : ∀ a, s.lookup a = none) : s = ∅ := by
  refine AList.ext (List.eq_nil_iff_forall_not_mem.mpr ?_)
  rintro ⟨a, b⟩ hmem
  rw [mem_entries, h a] at hmem
  cases hmem

/-- A value that is put in adds its weight to that of the other keys. -/
theorem weight_insert (f : β → Nat) (s : FinMap α β) (a : α) (b : β) :
    weight f (s.insert a b) = f b + weight f (s.erase a) := by
  rw [weight, weight, AList.entries_insert, List.map_cons, List.sum_cons]
  rfl

/-! ## Sweeping -/

/-- One step of the loop: erase an entry that satisfies `p`. -/
def sweepStep (p : β → Bool) (s : FinMap α β) (e : (_ : α) × β) : FinMap α β :=
  if p e.2 then s.erase e.1 else s

/-- Erase every entry that satisfies `p`. -/
def sweep (p : β → Bool) (s : FinMap α β) : FinMap α β := s.entries.foldl (sweepStep p) s

theorem lookup_foldl_sweepStep (p : β → Bool) (l : List ((_ : α) × β)) (s : FinMap α β) (a : α) :
    (l.foldl (sweepStep p) s).lookup a =
      if ∃ e ∈ l, e.1 = a ∧ p e.2 = true then none else s.lookup a := by
  induction l generalizing s with
  | nil => simp
  | cons e l ih =>
      rw [List.foldl_cons, ih]
      simp only [List.exists_mem_cons_iff]
      by_cases hl : ∃ e ∈ l, e.1 = a ∧ p e.2 = true
      · rw [if_pos hl, if_pos (.inr hl)]
      · rw [if_neg hl, sweepStep]
        by_cases he : e.1 = a ∧ p e.2 = true
        · rw [if_pos he.2, if_pos (.inl he), he.1, AList.lookup_erase]
        · rw [if_neg (not_or.mpr ⟨he, hl⟩)]
          split
          · rename_i hp
            exact AList.lookup_erase_ne fun ha ↦ he ⟨ha.symm, hp⟩
          · rfl

theorem weight_erase_le (f : β → Nat) (s : FinMap α β) (a : α) :
    weight f (s.erase a) ≤ weight f s := by
  cases h : s.lookup a with
  | none => rw [erase_of_lookup_eq_none h]
  | some b =>
      rw [← weight_erase_add f h]
      exact Nat.le_add_right _ _

/-- The loop adds nothing. -/
theorem weight_foldl_sweepStep_le (f : β → Nat) (p : β → Bool) (l : List ((_ : α) × β))
    (s : FinMap α β) : weight f (l.foldl (sweepStep p) s) ≤ weight f s := by
  induction l generalizing s with
  | nil => exact le_rfl
  | cons e l ih =>
      refine Nat.le_trans (ih _) ?_
      unfold sweepStep
      split_ifs
      · exact weight_erase_le f s e.1
      · exact le_rfl

/-- What is left behind the loop. -/
theorem lookup_sweep (p : β → Bool) (s : FinMap α β) (a : α) :
    (s.sweep p).lookup a = (s.lookup a).filter fun b ↦ !p b := by
  rw [sweep, lookup_foldl_sweepStep]
  cases h : s.lookup a with
  | none =>
      split
      · rfl
      · rfl
  | some b =>
      have hiff : (∃ e ∈ s.entries, e.1 = a ∧ p e.2 = true) ↔ p b = true := by
        constructor
        · rintro ⟨⟨a', b'⟩, hmem, rfl, hp⟩
          rw [mem_entries, h] at hmem
          rwa [Option.some.inj hmem]
        · intro hp
          exact ⟨⟨a, b⟩, mem_entries.mpr h, rfl, hp⟩
      rw [Option.filter_some]
      simp only [hiff]
      cases p b <;> rfl

end FinMap

end DpdkSpi.Lib
