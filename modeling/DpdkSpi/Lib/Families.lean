import Mathlib.Data.List.Flatten
import Mathlib.Data.List.Perm.Basic

/-!
# Families of lists

Lists with an index each, such as the queues of several ports, one behind the other: what a change
of one of them does to all of them (`flatMap_perm_of_one`), and their entries with the index of the
list they are in (`indexed`).
-/

namespace DpdkSpi.Lib

universe u v

variable {ι : Type u} {α : Type v}

/-- **Families that differ in one list** have the same entries but for those of the two lists. -/
theorem flatMap_perm_of_one {l : List ι} (hnodup : l.Nodup) {i : ι} (hi : i ∈ l)
    {f g : ι → List α} (hother : ∀ j, j ≠ i → g j = f j) :
    (l.flatMap g ++ f i).Perm (l.flatMap f ++ g i) := by
  induction l with
  | nil => exact absurd hi List.not_mem_nil
  | cons j l ih =>
      obtain ⟨hnotin, hnodup⟩ := List.nodup_cons.mp hnodup
      rw [List.flatMap_cons, List.flatMap_cons]
      rcases List.mem_cons.mp hi with rfl | hi
      · have hrest : l.flatMap g = l.flatMap f :=
          List.flatMap_congr fun k hk ↦ hother k fun h ↦ hnotin (h ▸ hk)
        rw [hrest, List.append_assoc]
        exact List.perm_append_comm.trans (List.perm_append_comm.append_right _)
      · rw [hother j fun h ↦ hnotin (h ▸ hi), List.append_assoc, List.append_assoc]
        exact (ih hnodup hi).append_left (f j)

/-- One list of a family gets one more entry. -/
theorem flatMap_perm_of_append {l : List ι} (hnodup : l.Nodup) {i : ι} (hi : i ∈ l)
    {f g : ι → List α} {x : α} (hone : g i = f i ++ [x]) (hother : ∀ j, j ≠ i → g j = f j) :
    (l.flatMap g).Perm (x :: l.flatMap f) := by
  have hperm := flatMap_perm_of_one hnodup hi hother
  rw [hone, ← List.append_assoc] at hperm
  have hmiddle : (l.flatMap f ++ f i ++ [x]).Perm ((x :: l.flatMap f) ++ f i) :=
    List.perm_append_singleton x _
  exact (List.perm_append_right_iff (f i)).mp (hperm.trans hmiddle)

/-- The entries of a family, with the index of the list they are in. -/
def indexed (l : List ι) (f : ι → List α) : List (ι × α) :=
  l.flatMap fun i ↦ (f i).map fun x ↦ (i, x)

theorem map_snd_indexed (l : List ι) (f : ι → List α) :
    (indexed l f).map Prod.snd = l.flatMap f := by
  unfold indexed
  rw [List.map_flatMap]
  refine List.flatMap_congr fun i _ ↦ ?_
  rw [List.map_map]
  exact List.map_id (f i)

theorem mem_of_mem_indexed {l : List ι} {f : ι → List α} {e : ι × α} (h : e ∈ indexed l f) :
    e.2 ∈ f e.1 := by
  obtain ⟨i, -, hi⟩ := List.mem_flatMap.mp h
  obtain ⟨x, hx, rfl⟩ := List.mem_map.mp hi
  exact hx

end DpdkSpi.Lib
