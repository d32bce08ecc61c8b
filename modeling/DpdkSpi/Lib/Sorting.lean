import Mathlib.Data.List.Sort

/-!
# Sorting without stability

A sort by a key promises a permutation with ascending keys and nothing about the elements
that share a key.  What all such sorts agree on are the keys (`SortBy.map_key_eq`), and the
elements too when no two of them share one (`SortBy.sort_eq`).  Two elements that do share a
key can change places when a sorted list is sorted again (`SortBy.exists_exchange`).
-/

namespace DpdkSpi.Lib

universe u v

variable {α : Type u} {β : Type v} [LinearOrder β] {key : α → β}

/-- A function that sorts by a key. -/
structure SortBy (key : α → β) where
  sort : List α → List α
  perm : ∀ l, (sort l).Perm l
  sorted : ∀ l, (sort l).Pairwise fun x y ↦ key x ≤ key y

namespace SortBy

variable {l l' : List α}

theorem mem_sort (s : SortBy key) {x : α} : x ∈ s.sort l ↔ x ∈ l := (s.perm l).mem_iff

@[simp] theorem length_sort (s : SortBy key) (l : List α) : (s.sort l).length = l.length :=
  (s.perm l).length_eq

/-- Ascending keys are a matter of the keys. -/
theorem pairwise_key : (l.Pairwise fun x y ↦ key x ≤ key y) ↔ (l.map key).Pairwise (· ≤ ·) :=
  List.pairwise_map.symm

/-- All sorts agree on the keys. -/
theorem map_key_eq (s s' : SortBy key) (h : l.Perm l') :
    (s.sort l).map key = (s'.sort l').map key := by
  refine List.Perm.eq_of_pairwise' (r := (· ≤ ·)) (pairwise_key.mp (s.sorted l))
    (pairwise_key.mp (s'.sorted l')) ?_
  exact (((s.perm l).trans h).trans (s'.perm l').symm).map key

/-- The key at a position does not depend on the sort. -/
theorem key_getElem? (s s' : SortBy key) (h : l.Perm l') {i : Nat} {x y : α}
    (hx : (s.sort l)[i]? = some x) (hy : (s'.sort l')[i]? = some y) : key x = key y := by
  have hkeys := congrArg (·[i]?) (s.map_key_eq s' h)
  simpa [List.getElem?_map, hx, hy] using hkeys

/-- All sorts agree when the key tells the elements apart. -/
theorem sort_eq (s s' : SortBy key) (h : l.Perm l')
    (hinj : ∀ x ∈ l, ∀ y ∈ l, key x = key y → x = y) : s.sort l = s'.sort l' := by
  refine List.ext_getElem? fun i ↦ ?_
  cases hx : (s.sort l)[i]? with
  | none =>
      rw [List.getElem?_eq_none_iff, length_sort] at hx
      rw [eq_comm, List.getElem?_eq_none_iff, length_sort, ← h.length_eq]
      exact hx
  | some x =>
      have hi : i < (s'.sort l').length := by
        obtain ⟨hlt, -⟩ := List.getElem?_eq_some_iff.mp hx
        rw [length_sort, ← h.length_eq, ← s.length_sort l]
        exact hlt
      have hy := List.getElem?_eq_getElem hi
      rw [hy]
      congr 1
      refine hinj _ (s.mem_sort.mp (List.mem_of_getElem? hx)) _ ?_ (s.key_getElem? s' h hx hy)
      exact h.mem_iff.mpr (s'.mem_sort.mp (List.getElem_mem hi))

/-- Sorting a list that is sorted. -/
theorem sort_sort (s : SortBy key) (hinj : ∀ x ∈ l, ∀ y ∈ l, key x = key y → x = y) :
    s.sort (s.sort l) = s.sort l := by
  refine s.sort_eq s (s.perm l) fun x hx y hy ↦ ?_
  exact hinj x (s.mem_sort.mp hx) y (s.mem_sort.mp hy)

/-! ## Sorts there are -/

/-- Insertion sort. -/
def insertion (key : α → β) : SortBy key where
  sort := List.insertionSort fun x y ↦ key x ≤ key y
  perm := List.perm_insertionSort _
  sorted l := by
    have : Std.Total fun x y : α ↦ key x ≤ key y := ⟨fun x y ↦ le_total (key x) (key y)⟩
    have : IsTrans α fun x y ↦ key x ≤ key y := ⟨fun _ _ _ ↦ le_trans⟩
    exact List.pairwise_insertionSort _ l

/-- A sort that takes the permutations of a list to the second of two sorted ones, and the
second one to the first. -/
def alternate [DecidableEq α] (s : SortBy key) (l₁ l₂ : List α) (hperm : l₂.Perm l₁)
    (h₁ : l₁.Pairwise fun x y ↦ key x ≤ key y) (h₂ : l₂.Pairwise fun x y ↦ key x ≤ key y) :
    SortBy key where
  sort l := if l.Perm l₁ then if l = l₂ then l₁ else l₂ else s.sort l
  perm l := by
    split
    · rename_i hl
      split
      · exact hl.symm
      · exact hperm.trans hl.symm
    · exact s.perm l
  sorted l := by
    split
    · split
      · exact h₁
      · exact h₂
    · exact s.sorted l

/-- Two elements of a sorted list that share a key can be exchanged. -/
theorem exists_exchanged {x y : α} (hl : l.Pairwise fun x y ↦ key x ≤ key y) (hx : x ∈ l)
    (hy : y ∈ l) (hkey : key x = key y) : ∃ (l' : List α) (i j : Nat), l'.Perm l ∧
      (l'.Pairwise fun x y ↦ key x ≤ key y) ∧
      l[i]? = some x ∧ l'[i]? = some y ∧ l[j]? = some y ∧ l'[j]? = some x := by
  obtain ⟨i, hi, rfl⟩ := List.getElem_of_mem hx
  obtain ⟨j, hj, rfl⟩ := List.getElem_of_mem hy
  have hset : ∀ (a b : Nat) (ha : a < l.length) (hb : b < l.length), key l[a] = key l[b] →
      (l.map key).set a (key l[b]) = l.map key := by
    intro a b ha hb h
    rw [← h, ← List.getElem_map key (h := by simpa using ha)]
    exact List.set_getElem_self _
  have hkeys : ((l.set i l[j]).set j l[i]).map key = l.map key := by
    rw [List.map_set, List.map_set, hset i j hi hj hkey, hset j i hj hi hkey.symm]
  refine ⟨(l.set i l[j]).set j l[i], i, j, List.set_set_perm hi hj, ?_,
    List.getElem?_eq_getElem hi, ?_, List.getElem?_eq_getElem hj, ?_⟩
  · rw [pairwise_key, hkeys]
    exact pairwise_key.mp hl
  · by_cases hij : j = i
    · subst hij
      simp [hi]
    · simp [hij, hi]
  · simp [hj]

/-- **Ties can change places**: two elements with one key, the second in the place of the
first when the sorted list is sorted again. -/
theorem exists_exchange [DecidableEq α] (s : SortBy key) {x y : α} (hx : x ∈ l) (hy : y ∈ l)
    (hkey : key x = key y) : ∃ (s' : SortBy key) (i : Nat),
      (s'.sort l)[i]? = some x ∧ (s'.sort (s'.sort l))[i]? = some y := by
  obtain ⟨m', i, j, hperm, hsorted, hxi, hyi, hyj, hxj⟩ :=
    exists_exchanged (s.sorted l) (s.mem_sort.mpr hx) (s.mem_sort.mpr hy) hkey
  have hlm : l.Perm (s.sort l) := (s.perm l).symm
  refine ⟨s.alternate (s.sort l) m' hperm (s.sorted l) hsorted, ?_⟩
  by_cases hl : l = m'
  · -- `l` is the second list: it goes to the first one, and that back to the second
    have hfirst : (s.alternate (s.sort l) m' hperm (s.sorted l) hsorted).sort l = s.sort l :=
      (if_pos hlm).trans (if_pos hl)
    rw [hfirst]
    refine ⟨i, hxi, ?_⟩
    change (if (s.sort l).Perm (s.sort l) then if s.sort l = m' then s.sort l else m'
      else s.sort (s.sort l))[i]? = some y
    rw [if_pos (List.Perm.refl _)]
    split
    · rename_i hsame
      rw [hsame]
      exact hyi
    · exact hyi
  · have hsecond : (s.alternate (s.sort l) m' hperm (s.sorted l) hsorted).sort l = m' :=
      (if_pos hlm).trans (if_neg hl)
    have hfirst : (s.alternate (s.sort l) m' hperm (s.sorted l) hsorted).sort m' = s.sort l :=
      (if_pos hperm).trans (if_pos rfl)
    rw [hsecond, hfirst]
    exact ⟨j, hxj, hyj⟩

/-- **Any of the ties can come first.** -/
theorem exists_first [DecidableEq α] (s : SortBy key) {x : α} (hx : x ∈ l) :
    ∃ s' : SortBy key, (s'.sort l).find? (fun y ↦ key y = key x) = some x := by
  cases hfind : (s.sort l).find? fun y ↦ key y = key x with
  | none => exact absurd (List.find?_eq_none.mp hfind x (s.mem_sort.mpr hx)) (by simp)
  | some y =>
      obtain ⟨hy, before, behind, hsplit, hbefore⟩ := List.find?_eq_some_iff_append.mp hfind
      simp only [decide_eq_true_eq] at hy
      simp only [Bool.not_eq_true', decide_eq_false_iff_not] at hbefore
      have hmem : x ∈ y :: behind := by
        have hx' := s.mem_sort.mpr hx
        rw [hsplit, List.mem_append] at hx'
        exact hx'.resolve_left fun h ↦ hbefore x h rfl
      have hsorted := s.sorted l
      rw [hsplit, List.pairwise_append] at hsorted
      obtain ⟨hsorted₁, hsorted₂, hle⟩ := hsorted
      have hsub := List.erase_sublist (l := y :: behind) (a := x)
      -- move `x` to the front of the elements that are not smaller
      have hperm : (before ++ x :: (y :: behind).erase x).Perm (s.sort l) := by
        rw [hsplit]
        exact (List.perm_cons_erase hmem).symm.append_left before
      have hpairwise : (before ++ x :: (y :: behind).erase x).Pairwise
          fun x y ↦ key x ≤ key y := by
        refine List.pairwise_append.mpr ⟨hsorted₁, List.pairwise_cons.mpr
          ⟨fun z hz ↦ ?_, hsorted₂.sublist hsub⟩, fun a ha b hb ↦ ?_⟩
        · rw [← hy]
          rcases List.mem_cons.mp (hsub.mem hz) with rfl | hz
          · exact le_rfl
          · exact (List.pairwise_cons.mp hsorted₂).1 z hz
        · rcases List.mem_cons.mp hb with rfl | hb
          · exact hle a ha b hmem
          · exact hle a ha b (hsub.mem hb)
      refine ⟨s.alternate _ _ (List.Perm.refl _) hpairwise hpairwise, ?_⟩
      have hsort : (s.alternate _ _ (List.Perm.refl _) hpairwise hpairwise).sort l =
          before ++ x :: (y :: behind).erase x :=
        (if_pos (((s.perm l).symm).trans hperm.symm)).trans (ite_self _)
      rw [hsort, List.find?_append, List.find?_eq_none.mpr (by simpa using hbefore)]
      simp

end SortBy

end DpdkSpi.Lib
