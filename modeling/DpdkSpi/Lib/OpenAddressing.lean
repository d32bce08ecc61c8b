import Mathlib.Data.Finset.Card
import Mathlib.Data.Fintype.Basic
import Mathlib.Data.Fintype.Card
import Mathlib.Data.List.Nodup
import Mathlib.Data.List.FinRange

/-!
# Open addressing

A hash table of `n` slots without deletion.  Every key has a *probe sequence*, an
enumeration of all slots; an insertion takes the first free slot of the sequence of
its key and a search follows the sequence until it meets the key or a free slot.
Nothing is assumed of the sequences beyond that each is an enumeration.

An insertion never looks at keys, so a key may occur in several slots; the search
finds the one that was inserted first (`search_insertAll`).  A full table ignores
insertions.
-/

namespace DpdkSpi.Lib

universe u v

/-- The slots of a table: each is free or holds a key with its value. -/
abbrev Slots (n : Nat) (κ : Type u) (ν : Type v) := Fin n → Option (κ × ν)

namespace Slots

variable {n : Nat} {κ : Type u} {ν : Type v}

/-! ## Searching and inserting along a sequence -/

/-- Follow a sequence of slots until the key or a free slot is met. -/
def searchIn [DecidableEq κ] (T : Slots n κ ν) (k : κ) : List (Fin n) → Option ν
  | [] => none
  | s :: ss =>
      match T s with
      | none => none
      | some e => if e.1 = k then some e.2 else searchIn T k ss

/-- The first free slot of a sequence. -/
def firstFree (T : Slots n κ ν) (seq : List (Fin n)) : Option (Fin n) :=
  seq.find? fun s ↦ (T s).isNone

/-- Put an entry into the first free slot of a sequence, if there is one. -/
def insertIn (T : Slots n κ ν) (seq : List (Fin n)) (k : κ) (v : ν) : Slots n κ ν :=
  match T.firstFree seq with
  | none => T
  | some s => Function.update T s (some (k, v))

/-- The occupied slots. -/
def occupied (T : Slots n κ ν) : Finset (Fin n) := {s | (T s).isSome}

theorem mem_occupied {T : Slots n κ ν} {s : Fin n} : s ∈ T.occupied ↔ ∃ e, T s = some e := by
  simp [occupied, Option.isSome_iff_exists]

/-- The table with every slot free. -/
def empty : Slots n κ ν := fun _ ↦ none

@[simp] theorem occupied_empty : (empty : Slots n κ ν).occupied = ∅ := by
  simp [occupied, empty]

/-- A slot taken by an insertion. -/
theorem firstFree_eq_some {T : Slots n κ ν} {seq : List (Fin n)} {s : Fin n}
    (h : T.firstFree seq = some s) : T s = none ∧ ∃ pre post, seq = pre ++ s :: post ∧
      ∀ s' ∈ pre, s' ∈ T.occupied := by
  obtain ⟨hs, pre, post, hseq, hpre⟩ := List.find?_eq_some_iff_append.mp h
  refine ⟨by simpa using hs, pre, post, hseq, fun s' hs' ↦ ?_⟩
  have := hpre s' hs'
  rw [mem_occupied]
  exact Option.isSome_iff_exists.mp (by simpa using this)

/-- A sequence that visits a free slot has a first one. -/
theorem exists_firstFree {T : Slots n κ ν} {seq : List (Fin n)} {s : Fin n} (hmem : s ∈ seq)
    (hs : T s = none) : ∃ s₀, T.firstFree seq = some s₀ := by
  refine Option.isSome_iff_exists.mp (List.find?_isSome.mpr ⟨s, hmem, ?_⟩)
  simp [hs]

/-- A free slot is not an occupied one. -/
theorem notMem_occupied {T : Slots n κ ν} {s : Fin n} (hs : T s = none) : s ∉ T.occupied := by
  simp [occupied, hs]

/-! ## The invariant -/

/-- Every entry lies before the first free slot of its key's sequence. -/
def Compact (seq : κ → List (Fin n)) (T : Slots n κ ν) : Prop :=
  ∀ s k v, T s = some (k, v) → ∀ pre post, seq k = pre ++ s :: post → ∀ s' ∈ pre, s' ∈ T.occupied

theorem compact_empty (seq : κ → List (Fin n)) : Compact seq (empty : Slots n κ ν) := by
  intro s k v h
  cases h

/-- The insertion of an entry when there is a free slot. -/
theorem insertIn_of_firstFree {T : Slots n κ ν} {seq : List (Fin n)} {s : Fin n}
    (h : T.firstFree seq = some s) (k : κ) (v : ν) :
    T.insertIn seq k v = Function.update T s (some (k, v)) := by
  rw [insertIn, h]

/-- A full table ignores insertions. -/
theorem insertIn_of_full {T : Slots n κ ν} (hfull : ∀ s, T s ≠ none) (l : List (Fin n)) (k : κ)
    (v : ν) : T.insertIn l k v = T := by
  have hnone : T.firstFree l = none := by
    refine List.find?_eq_none.mpr fun s _ ↦ ?_
    simpa using hfull s
  rw [insertIn, hnone]

theorem occupied_update {T : Slots n κ ν} {s : Fin n} (e : κ × ν) :
    occupied (Function.update T s (some e)) = insert s T.occupied := by
  ext s'
  rw [Finset.mem_insert, mem_occupied, mem_occupied]
  by_cases h : s' = s
  · subst h
    simp
  · simp [h]

/-- An insertion into a free slot occupies one more. -/
theorem card_occupied_insertIn {T : Slots n κ ν} {seq : List (Fin n)} {s : Fin n}
    (h : T.firstFree seq = some s) (k : κ) (v : ν) :
    (T.insertIn seq k v).occupied.card = T.occupied.card + 1 := by
  rw [insertIn_of_firstFree h, occupied_update,
    Finset.card_insert_of_notMem (notMem_occupied (firstFree_eq_some h).1)]

/-- Splitting a list without repetition at an element is unambiguous. -/
private theorem append_cons_inj_of_nodup {α : Type*} {l pre pre' post post' : List α} {a : α}
    (hl : l.Nodup) (h : l = pre ++ a :: post) (h' : l = pre' ++ a :: post') : pre = pre' := by
  have hlen : ∀ {p q : List α}, l = p ++ a :: q → a ∉ p := by
    intro p q hpq hmem
    rw [hpq, List.nodup_append] at hl
    exact hl.2.2 a hmem a List.mem_cons_self rfl
  rw [h] at h'
  rcases List.append_eq_append_iff.mp h' with ⟨c, hpre', hc⟩ | ⟨c, hpre, hc⟩
  · cases c with
    | nil => simpa using hpre'.symm
    | cons b c =>
        obtain ⟨rfl, -⟩ := List.cons.inj hc
        exact absurd (hpre' ▸ by simp) (hlen (h ▸ h'))
  · cases c with
    | nil => simpa using hpre
    | cons b c =>
        obtain ⟨rfl, -⟩ := List.cons.inj hc
        exact absurd (hpre ▸ by simp) (hlen h)

variable {seq : κ → List (Fin n)} (hnodup : ∀ k, (seq k).Nodup)

include hnodup in
/-- An insertion keeps the invariant. -/
theorem Compact.insertIn {T : Slots n κ ν} (hT : Compact seq T) (k : κ) (v : ν) :
    Compact seq (T.insertIn (seq k) k v) := by
  cases hfree : T.firstFree (seq k) with
  | none =>
      rw [Slots.insertIn, hfree]
      exact hT
  | some s₀ =>
      rw [insertIn_of_firstFree hfree]
      obtain ⟨-, pre₀, post₀, hseq₀, hpre₀⟩ := firstFree_eq_some hfree
      intro s k' v' hs pre post hseq s' hs'
      rw [occupied_update, Finset.mem_insert]
      right
      by_cases h : s = s₀
      · subst h
        rw [Function.update_self, Option.some.injEq, Prod.mk.injEq] at hs
        obtain ⟨rfl, -⟩ := hs
        rw [append_cons_inj_of_nodup (hnodup k) hseq hseq₀] at hs'
        exact hpre₀ s' hs'
      · rw [Function.update_of_ne h] at hs
        exact hT s k' v' hs pre post hseq s' hs'

/-! ## What a search finds -/

section Search

variable [DecidableEq κ]

/-- A search that meets the key on occupied slots finds it, or finds it earlier. -/
theorem searchIn_ne_none {T : Slots n κ ν} {k : κ} {v : ν} {pre : List (Fin n)} {s : Fin n}
    (hs : T s = some (k, v)) (hpre : ∀ s' ∈ pre, s' ∈ T.occupied) (post : List (Fin n)) :
    T.searchIn k (pre ++ s :: post) ≠ none := by
  induction pre with
  | nil => simp [searchIn, hs]
  | cons p pre ih =>
      obtain ⟨e, he⟩ := mem_occupied.mp (hpre p List.mem_cons_self)
      rw [List.cons_append, searchIn, he]
      by_cases hk : e.1 = k
      · simp [hk]
      · simpa [hk] using ih fun s' hs' ↦ hpre s' (List.mem_cons_of_mem _ hs')

/-- A search along slots that do not hold the key finds nothing. -/
theorem searchIn_eq_none {T : Slots n κ ν} {k : κ} {l : List (Fin n)}
    (h : ∀ s ∈ l, ∀ e, T s = some e → e.1 ≠ k) : T.searchIn k l = none := by
  induction l with
  | nil => rfl
  | cons s l ih =>
      rw [searchIn]
      cases hs : T s with
      | none => rfl
      | some e =>
          simp only [h s List.mem_cons_self e hs, if_false]
          exact ih fun s' hs' ↦ h s' (List.mem_cons_of_mem _ hs')

/-- A search along occupied slots with other keys goes on behind them. -/
theorem searchIn_append {T : Slots n κ ν} {k : κ} {pre : List (Fin n)} (l : List (Fin n))
    (hpre : ∀ s ∈ pre, ∃ e, T s = some e ∧ e.1 ≠ k) :
    T.searchIn k (pre ++ l) = T.searchIn k l := by
  induction pre with
  | nil => rfl
  | cons p pre ih =>
      obtain ⟨e, he, hk⟩ := hpre p List.mem_cons_self
      rw [List.cons_append, searchIn, he]
      simp only [hk, if_false]
      exact ih fun s' hs' ↦ hpre s' (List.mem_cons_of_mem _ hs')

/-- What a search has found stays found when a free slot is filled. -/
theorem searchIn_update_of_eq_some {T : Slots n κ ν} {s₀ : Fin n} (hs₀ : T s₀ = none) (e₀ : κ × ν)
    {k : κ} {w : ν} {l : List (Fin n)} (h : T.searchIn k l = some w) :
    searchIn (Function.update T s₀ (some e₀)) k l = some w := by
  induction l with
  | nil => cases h
  | cons s l ih =>
      rw [searchIn] at h ⊢
      cases hs : T s with
      | none => simp [hs] at h
      | some e =>
          have hne : s ≠ s₀ := by
            rintro rfl
            rw [hs₀] at hs
            cases hs
          rw [Function.update_of_ne hne, hs]
          rw [hs] at h
          dsimp only at h ⊢
          split
          · rename_i hk
            rwa [if_pos hk] at h
          · rename_i hk
            rw [if_neg hk] at h
            exact ih h

variable (hall : ∀ k s, s ∈ seq k)

/-- In a compact table a search that finds nothing says that the key is nowhere. -/
theorem Compact.key_ne {T : Slots n κ ν} (hT : Compact seq T) {k : κ}
    (h : T.searchIn k (seq k) = none) (hall : ∀ s, s ∈ seq k) (s : Fin n) (e : κ × ν)
    (hs : T s = some e) : e.1 ≠ k := by
  rintro rfl
  obtain ⟨pre, post, hseq⟩ := List.append_of_mem (hall s)
  refine searchIn_ne_none hs (hT s e.1 e.2 hs pre post hseq) post ?_
  rwa [← hseq]

include hall in
/-- **What an insertion does to searches.**  A key that was found before is found with
the same value; otherwise the new key is found, and no other. -/
theorem searchIn_insertIn {T : Slots n κ ν} (hT : Compact seq T) (hroom : ∃ s, T s = none)
    (k : κ) (v : ν) (k' : κ) :
    (T.insertIn (seq k) k v).searchIn k' (seq k') =
      (T.searchIn k' (seq k')).or (if k' = k then some v else none) := by
  obtain ⟨s, hs⟩ := hroom
  obtain ⟨s₀, hfree⟩ := exists_firstFree (hall k s) hs
  obtain ⟨hs₀, pre, post, hseq, hpre⟩ := firstFree_eq_some hfree
  rw [insertIn_of_firstFree hfree]
  cases hfind : T.searchIn k' (seq k') with
  | some w => exact searchIn_update_of_eq_some hs₀ (k, v) hfind
  | none =>
      have hkey := hT.key_ne hfind (hall k')
      rw [Option.none_or]
      by_cases hk : k' = k
      · subst hk
        -- the new entry lies behind occupied slots of other keys
        rw [if_pos rfl, hseq, searchIn_append]
        · simp [searchIn]
        · intro s hs
          obtain ⟨e, he⟩ := mem_occupied.mp (hpre s hs)
          have hne : s ≠ s₀ := by
            rintro rfl
            rw [hs₀] at he
            cases he
          exact ⟨e, by rw [Function.update_of_ne hne, he], hkey s e he⟩
      · rw [if_neg hk]
        refine searchIn_eq_none fun s _ e he ↦ ?_
        by_cases hs : s = s₀
        · subst hs
          rw [Function.update_self, Option.some.injEq] at he
          subst he
          exact fun h ↦ hk h.symm
        · rw [Function.update_of_ne hs] at he
          exact hkey s e he

/-! ## Filling a table -/

/-- Insert a list of entries, in order. -/
def insertAll (seq : κ → List (Fin n)) (T : Slots n κ ν) (es : List (κ × ν)) : Slots n κ ν :=
  es.foldl (fun T e ↦ T.insertIn (seq e.1) e.1 e.2) T

/-- The value of the first entry with a key. -/
def firstValue (es : List (κ × ν)) (k : κ) : Option ν := (es.find? fun e ↦ e.1 = k).map Prod.snd

@[simp] theorem firstValue_nil (k : κ) : firstValue ([] : List (κ × ν)) k = none := rfl

theorem firstValue_cons (e : κ × ν) (es : List (κ × ν)) (k : κ) :
    firstValue (e :: es) k = (if k = e.1 then some e.2 else none).or (firstValue es k) := by
  by_cases h : e.1 = k
  · simp [firstValue, h]
  · have h' : ¬ k = e.1 := fun hk ↦ h hk.symm
    simp [firstValue, h, h']

include hnodup hall in
/-- **What a search finds in a filled table**: the first entry with the key, among those
that found room. -/
theorem searchIn_insertAll {T : Slots n κ ν} (hT : Compact seq T) (es : List (κ × ν)) (k : κ) :
    (insertAll seq T es).searchIn k (seq k) =
      (T.searchIn k (seq k)).or (firstValue (es.take (n - T.occupied.card)) k) := by
  induction es generalizing T with
  | nil => simp [insertAll]
  | cons e es ih =>
      by_cases hfull : ∀ s, T s ≠ none
      · have hcard : T.occupied.card = n := by
          have : T.occupied = Finset.univ := by
            ext s
            simpa [mem_occupied] using Option.ne_none_iff_exists'.mp (hfull s)
          rw [this, Finset.card_univ, Fintype.card_fin]
        have hstep : insertAll seq T (e :: es) = insertAll seq T es := by
          simp only [insertAll, List.foldl_cons, insertIn_of_full hfull]
        rw [hstep, ih hT]
        simp [hcard]
      · push Not at hfull
        have hsearch := searchIn_insertIn hall hT hfull e.1 e.2 k
        obtain ⟨s, hs⟩ := hfull
        obtain ⟨s₀, hfree⟩ := exists_firstFree (hall e.1 s) hs
        obtain ⟨hs₀, -⟩ := firstFree_eq_some hfree
        have hcard := card_occupied_insertIn hfree e.1 e.2
        have hlt : T.occupied.card < n := by
          have hne : T.occupied ⊂ Finset.univ := by
            refine Finset.ssubset_univ_iff.mpr fun huniv ↦ notMem_occupied hs₀ ?_
            rw [huniv]
            exact Finset.mem_univ s₀
          simpa using Finset.card_lt_card hne
        have htake : (e :: es).take (n - T.occupied.card) =
            e :: es.take (n - (T.occupied.card + 1)) := by
          obtain ⟨m, hm⟩ : ∃ m, n - T.occupied.card = m + 1 := ⟨n - T.occupied.card - 1, by omega⟩
          rw [hm, List.take_succ_cons]
          congr 2
          omega
        have hstep : insertAll seq T (e :: es) =
            insertAll seq (T.insertIn (seq e.1) e.1 e.2) es := rfl
        rw [hstep, ih (hT.insertIn hnodup e.1 e.2), hsearch, hcard, htake, firstValue_cons,
          Option.or_assoc]

end Search

end Slots

end DpdkSpi.Lib
