import DpdkSpi.Flow.Ownership

/-!
# What the operations do to cached verdicts

The verdict a table holds for a key is `FlowTable.answer`.  Looking keys up changes no verdict,
and an insertion changes the verdict of its own key only, as long as no two keys share a cell.
-/

namespace DpdkSpi

open Lib

/-- A cell filled by the pipeline, which always counts one match, answers its action. -/
theorem FlowData.view_packAction_one (action : Action) (now : BitVec 64) :
    (⟨packAction 1 action, now⟩ : FlowData).view = some action := by
  have hpacked : packAction 1 action ≠ 0 ∧ decodePacked (packAction 1 action) = action := by
    cases action <;> decide
  rw [FlowData.view, if_neg hpacked.1, hpacked.2]

namespace FlowTable

variable {cap : Nat}

/-- Overwriting a cell changes the verdict of the keys that own it. -/
theorem answer_store (t : FlowTable cap) (i : Fin cap) (d : FlowData) (key : FlowKey) :
    (t.store i d).answer key = if t.cellOf key = some i then d.view else t.answer key := by
  show (t.cellOf key).bind (fun j ↦ (Function.update t.data i d j).view) = _
  rw [answer]
  cases t.cellOf key with
  | none => rfl
  | some j =>
      rw [Option.bind_some, Option.bind_some]
      split
      · rename_i hj
        rw [Option.some_inj.mp hj, Function.update_self]
      · rename_i hj
        rw [Function.update_of_ne fun hji ↦ hj (congrArg some hji)]

/-! ## Looking up -/

/-- Stamping a cell changes no verdict. -/
theorem answer_stamp (t : FlowTable cap) (i : Fin cap) (now : BitVec 64) (key : FlowKey) :
    (t.store i { t.data i with lastSeenTsc := now }).answer key = t.answer key := by
  rw [answer_store]
  split
  · rename_i hcell
    rw [answer, hcell]
    rfl
  · rfl

theorem answer_lookup (t : FlowTable cap) (key key' : FlowKey) (now : BitVec 64) :
    (t.lookup key now).2.answer key' = t.answer key' := by
  unfold lookup
  split
  · rfl
  · dsimp only
    split
    · rfl
    · exact answer_stamp t _ now key'

/-! ## Inserting -/

/-- No two claims to one cell: what `Owned` gives, and all that the verdicts need. -/
def Apart (t : FlowTable cap) : Prop := t.cells.Nodup

theorem apart_of_owned {t : FlowTable cap} (h : ∀ i, t.Owned i) : t.Apart := by
  rw [Apart, List.nodup_iff_count_le_one]
  intro i
  exact (owned_iff_count.mp (h i)).le

/-- What an insertion can do: nothing that a lookup could see, overwriting the cell of its own
key, or giving a cell off the free list to it. -/
theorem insert_cases (t : FlowTable cap) (key : FlowKey) (matchCount : BitVec 64)
    (action : Action) (now : BitVec 64) (slot : Option Nat) :
    ((t.insert key matchCount action now slot).1 = .kFull ∧ t.cellOf key = none ∧
        (t.insert key matchCount action now slot).2.live = t.live ∧
        ∀ i, i ∉ t.freeList → (t.insert key matchCount action now slot).2.data i = t.data i) ∨
      (∃ i, t.cellOf key = some i ∧ t.insert key matchCount action now slot =
          (.kOk, t.store i ⟨packAction matchCount action, now⟩)) ∨
      ∃ i rest pos, t.cellOf key = none ∧ t.freeList = i :: rest ∧
        (t.insert key matchCount action now slot).1 = .kOk ∧
        (t.insert key matchCount action now slot).2.live = ⟨key, pos, i⟩ :: t.live ∧
        (t.insert key matchCount action now slot).2.data =
          Function.update t.data i ⟨packAction matchCount action, now⟩ := by
  cases hh : t.hash with
  | none =>
      refine .inl ⟨?_, ?_, ?_, ?_⟩ <;> simp [insert, hh, countOverflow, cellOf, live]
  | some h =>
      cases hk : h.lookup key with
      | some i =>
          refine .inr (.inl ⟨i, ?_, ?_⟩) <;> simp [cellOf, insert, hh, hk]
      | none =>
          have hcell : t.cellOf key = none := by simp [cellOf, hh, hk]
          cases hf : t.freeList with
          | nil =>
              refine .inl ⟨?_, hcell, ?_, ?_⟩ <;>
                simp [insert, hh, hk, addFlow, hf, countOverflow, live]
          | cons i rest =>
              rcases SlotMap.add_of_lookup_eq_none hk slot i with
                ⟨hadd, -⟩ | ⟨p, h', -, -, hadd, hent⟩
              · refine .inl ⟨?_, hcell, ?_, ?_⟩
                · simp [insert, hh, hk, addFlow, hf, hadd, countOverflow]
                · simp [insert, hh, hk, addFlow, hf, hadd, countOverflow, live]
                · intro j hj
                  have hne : j ≠ i := fun hji ↦ hj (hji ▸ List.mem_cons_self)
                  simp [insert, hh, hk, addFlow, hf, hadd, countOverflow, store, hne]
              · refine .inr (.inr ⟨i, rest, p, hcell, rfl, ?_, ?_, ?_⟩) <;>
                  simp [insert, hh, hk, addFlow, hf, hadd, countOverflow, live, hent, store]

/-- An insertion gives its key a cell exactly when it found room. -/
theorem cellOf_insert_eq_none_iff (t : FlowTable cap) (key : FlowKey) (matchCount : BitVec 64)
    (action : Action) (now : BitVec 64) (slot : Option Nat) :
    (t.insert key matchCount action now slot).2.cellOf key = none ↔
      (t.insert key matchCount action now slot).1 = .kFull := by
  rcases insert_cases t key matchCount action now slot with
    ⟨hfull, hcell, hlive, -⟩ | ⟨i, hcell, hinsert⟩ | ⟨i, rest, pos, -, -, hok, hlive, -⟩
  · refine iff_of_true (cellOf_eq_none_iff.mpr ?_) hfull
    rw [hlive]
    exact cellOf_eq_none_iff.mp hcell
  · rw [hinsert]
    refine iff_of_false (fun hnone ↦ ?_) FlowInsertResult.noConfusion
    exact Option.some_ne_none i (hcell.symm.trans hnone)
  · rw [hok]
    refine iff_of_false (fun hnone ↦ ?_) FlowInsertResult.noConfusion
    exact cellOf_eq_none_iff.mp hnone ⟨key, pos, i⟩ (by rw [hlive]; exact List.mem_cons_self) rfl

/-- A table with one more key, whose cell was no live key's, answers for that key with
the new cell and for the others as before. -/
theorem answer_of_live_cons {t t' : FlowTable cap} {key : FlowKey} {p : Nat} {i : Fin cap}
    {d : FlowData} (hlive : t'.live = ⟨key, p, i⟩ :: t.live)
    (hdata : t'.data = Function.update t.data i d) (hfree : ∀ e ∈ t.live, e.data ≠ i)
    (k : FlowKey) : t'.answer k = if k = key then d.view else t.answer k := by
  by_cases hk : k = key
  · have he : ⟨k, p, i⟩ ∈ t'.live := by
      rw [hlive, hk]
      exact List.mem_cons_self
    rw [if_pos hk, answer_of_mem he, hdata, Function.update_self]
  · rw [if_neg hk]
    by_cases hex : ∃ e ∈ t.live, e.key = k
    · obtain ⟨e, he, rfl⟩ := hex
      have he' : e ∈ t'.live := by
        rw [hlive]
        exact List.mem_cons_of_mem _ he
      rw [answer_of_mem he, answer_of_mem he', hdata, Function.update_of_ne (hfree e he)]
    · have hno : ∀ e ∈ t.live, e.key ≠ k := fun e he h ↦ hex ⟨e, he, h⟩
      rw [answer_of_forall_ne hno, answer_of_forall_ne]
      intro e he
      rw [hlive] at he
      rcases List.mem_cons.mp he with rfl | he
      · exact fun h ↦ hk h.symm
      · exact hno e he

/-- A live entry's cell is on no free list, and no other entry's. -/
theorem Apart.live {t : FlowTable cap} (h : t.Apart) {e : SlotEntry FlowKey (Fin cap)}
    (he : e ∈ t.live) : e.data ∉ t.freeList ∧ ∀ e' ∈ t.live, e'.data = e.data → e' = e := by
  obtain ⟨-, hdata, hdisjoint⟩ := List.nodup_append.mp h
  refine ⟨fun hfree ↦ ?_, fun e' he' hd ↦ List.inj_on_of_nodup_map hdata he' he hd⟩
  exact hdisjoint _ hfree _ (List.mem_map_of_mem he) rfl

/-- An insertion that found no room changes no verdict. -/
theorem answer_insert_of_full {t : FlowTable cap} (h : t.Apart) {key : FlowKey} {action : Action}
    {now : BitVec 64} {slot : Option Nat} (hfull : (t.insert key 1 action now slot).1 = .kFull)
    (key' : FlowKey) : (t.insert key 1 action now slot).2.answer key' = t.answer key' := by
  rcases insert_cases t key 1 action now slot with
    ⟨-, -, hlive, hdata⟩ | ⟨i, -, hinsert⟩ | ⟨i, rest, pos, -, -, hok, -⟩
  · cases hcell : t.cellOf key' with
    | none =>
        have hnone := cellOf_eq_none_iff.mp hcell
        rw [answer_of_forall_ne hnone, answer_of_forall_ne (by rw [hlive]; exact hnone)]
    | some i =>
        obtain ⟨e, he, rfl, rfl⟩ := cellOf_eq_some_iff.mp hcell
        have he' : e ∈ (t.insert key 1 action now slot).2.live := by rw [hlive]; exact he
        rw [answer_of_mem he, answer_of_mem he', hdata _ (h.live he).1]
  · rw [hinsert] at hfull
    cases hfull
  · rw [hok] at hfull
    cases hfull

/-- An insertion that found room sets the verdict of its key, and of no other. -/
theorem answer_insert_of_ok {t : FlowTable cap} (h : t.Apart) {key : FlowKey} {action : Action}
    {now : BitVec 64} {slot : Option Nat} (hok : (t.insert key 1 action now slot).1 = .kOk)
    (key' : FlowKey) : (t.insert key 1 action now slot).2.answer key' =
      if key' = key then some action else t.answer key' := by
  rcases insert_cases t key 1 action now slot with
    ⟨hfull, -⟩ | ⟨i, hcell, hinsert⟩ | ⟨i, rest, pos, hcell, hfree, -, hlive, hdata⟩
  · rw [hfull] at hok
    cases hok
  · rw [hinsert, answer_store, FlowData.view_packAction_one]
    congr 1
    refine propext ⟨fun hcell' ↦ ?_, fun hkey ↦ hkey ▸ hcell⟩
    obtain ⟨e, he, rfl, rfl⟩ := cellOf_eq_some_iff.mp hcell
    obtain ⟨e', he', rfl, hd⟩ := cellOf_eq_some_iff.mp hcell'
    rw [(h.live he).2 e' he' hd]
  · have hmem : i ∈ t.freeList := hfree ▸ List.mem_cons_self
    rw [answer_of_live_cons hlive hdata fun e he hd ↦ (h.live he).1 (hd ▸ hmem),
      FlowData.view_packAction_one]

end FlowTable

end DpdkSpi
