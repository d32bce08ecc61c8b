import DpdkSpi.Flow.Resize

/-!
# Workers that insert at the same time

`FlowTable::Insert` takes no lock around its whole body: looking the key up, popping a cell off
the free list, filling it, adding the key to the hash and giving the cell back after a failed
addition are steps of their own, and the steps of other workers may come between them.  This
file runs any number of workers against one table, in every order.
-/

namespace DpdkSpi

open Lib

/-- The arguments of one call of `Insert`. -/
structure InsertRequest where
  key : FlowKey
  matchCount : BitVec 64
  action : Action
deriving DecidableEq, Repr

/-- How far a worker's call of `Insert` is. -/
inductive InsertPc (cap : Nat) where
  /-- No call in progress; the result of the last one. -/
  | idle (last : Option FlowInsertResult)
  /-- About to call `rte_hash_lookup_data`. -/
  | lookup (r : InsertRequest)
  /-- The key was found: about to overwrite its cell. -/
  | update (r : InsertRequest) (i : Fin cap)
  /-- The key was not found: about to pop a cell off the free list, under its lock. -/
  | pop (r : InsertRequest)
  /-- About to fill the popped cell. -/
  | initialise (r : InsertRequest) (i : Fin cap)
  /-- About to call `rte_hash_add_key_data`. -/
  | add (r : InsertRequest) (i : Fin cap)
  /-- The addition failed: about to push the cell back, under the lock of the free list. -/
  | pushBack (i : Fin cap)
deriving DecidableEq, Repr

variable {W : Type} [DecidableEq W] {cap : Nat}

namespace InsertPc

/-- One step of a call.  `now` is what `rte_rdtsc` returns and `slot` the position `rte_hash`
picks for a new key. -/
def next (t : FlowTable cap) (now : BitVec 64) (slot : Option Nat) :
    InsertPc cap → Option (FlowTable cap × InsertPc cap)
  | .idle _ => none
  | .lookup r =>
      match t.cellOf r.key with
      | some i => some (t, .update r i)
      | none => some (t, .pop r)
  | .update r i =>
      some (t.store i ⟨packAction r.matchCount r.action, now⟩, .idle (some .kOk))
  | .pop r =>
      match t.freeList with
      | [] => some ({ t with overflowCount := t.overflowCount + 1 }, .idle (some .kFull))
      | i :: rest => some ({ t with freeList := rest }, .initialise r i)
  | .initialise r i => some (t.store i ⟨packAction r.matchCount r.action, now⟩, .add r i)
  | .add r i =>
      match t.hash.bind fun h ↦ h.add r.key slot i with
      | none => some (t, .pushBack i)
      | some h => some ({ t with hash := some h }, .idle (some .kOk))
  | .pushBack i =>
      some ({ t with freeList := i :: t.freeList, overflowCount := t.overflowCount + 1 },
        .idle (some .kFull))

/-- The cell a worker has taken off the free list and not yet given away. -/
def held : InsertPc cap → Option (Fin cap)
  | .initialise _ i | .add _ i | .pushBack i => some i
  | _ => none

/-- An addition, if that is the next step, finds its key absent: no other worker has added the
key since this worker looked it up. -/
def Fresh (t : FlowTable cap) : InsertPc cap → Prop
  | .add r _ => t.cellOf r.key = none
  | _ => True

end InsertPc

/-! ## What a step can do to the cells -/

/-- The effect of a step on who has which cell. -/
inductive CellEffect (t : FlowTable cap) (pc : InsertPc cap) (t' : FlowTable cap)
    (pc' : InsertPc cap) : Prop
  /-- Nothing changes hands. -/
  | keep (hfresh : pc.Fresh t) (hcells : t'.cells = t.cells) (hheld : pc'.held = pc.held)
  /-- The worker takes a cell off the free list. -/
  | take (i : Fin cap) (hfresh : pc.Fresh t) (hcells : t.cells = i :: t'.cells)
      (hheld : pc.held = none) (hheld' : pc'.held = some i)
  /-- The worker gives its cell to a new key, or back to the free list. -/
  | give (i : Fin cap) (hfresh : pc.Fresh t) (hcells : t'.cells.Perm (i :: t.cells))
      (hheld : pc.held = some i) (hheld' : pc'.held = none)
  /-- The worker gives its cell to a key that has one. -/
  | replace (r : InsertRequest) (i : Fin cap) (hpc : pc = .add r i)
      (hkey : t.cellOf r.key ≠ none)
      (hcells : ∀ k, k ∈ t'.cells ↔
        k = i ∨ k ∈ t.freeList ∨ ∃ e ∈ t.live, e.key ≠ r.key ∧ e.data = k)
      (hheld' : pc'.held = none)

/-- Adding an absent key gives it the cell, unless the library refuses. -/
theorem next_add_absent {t t' : FlowTable cap} {now : BitVec 64} {slot : Option Nat}
    {r : InsertRequest} {i : Fin cap} {pc' : InsertPc cap} (hkey : t.cellOf r.key = none)
    (h : (InsertPc.add r i).next t now slot = some (t', pc')) :
    CellEffect t (.add r i) t' pc' := by
  simp only [InsertPc.next] at h
  split at h
  · cases h
    exact .keep hkey rfl rfl
  · rename_i h' hadd
    cases h
    obtain ⟨hash, hh, hadd⟩ := Option.bind_eq_some_iff.mp hadd
    have hlookup : hash.lookup r.key = none := by simpa [FlowTable.cellOf, hh] using hkey
    rcases SlotMap.add_of_lookup_eq_none hlookup slot i with
      ⟨hnone, -⟩ | ⟨p, h'', -, -, hsome, hent⟩
    · rw [hnone] at hadd
      cases hadd
    · obtain rfl : h'' = h' := Option.some_inj.mp (hsome.symm.trans hadd)
      refine .give i hkey ?_ rfl rfl
      simp only [FlowTable.cells, FlowTable.live, hh, hent, List.map_cons]
      exact List.perm_middle

/-- Adding a key that is live always succeeds, and moves its data pointer to the new cell. -/
theorem next_add_live {t t' : FlowTable cap} {now : BitVec 64} {slot : Option Nat}
    {r : InsertRequest} {i : Fin cap} {pc' : InsertPc cap} (hkey : t.cellOf r.key ≠ none)
    (h : (InsertPc.add r i).next t now slot = some (t', pc')) :
    CellEffect t (.add r i) t' pc' := by
  obtain ⟨j, hj⟩ := Option.ne_none_iff_exists'.mp hkey
  obtain ⟨e, he, hek, -⟩ := FlowTable.cellOf_eq_some_iff.mp hj
  obtain ⟨hash, hh, -⟩ := Option.bind_eq_some_iff.mp hj
  have hlive : t.live = hash.entries := by rw [FlowTable.live, hh]
  have hadd : hash.add r.key slot i = some (hash.replace r.key i) :=
    dif_neg fun hall ↦ hall e (hlive ▸ he) hek
  simp only [InsertPc.next, hh, Option.bind_some, hadd] at h
  cases h
  refine .replace r i rfl hkey (fun k ↦ ?_) rfl
  rw [hlive] at he ⊢
  simp only [FlowTable.cells, FlowTable.live, SlotMap.replace, List.map_map, List.mem_append,
    List.mem_map, Function.comp_apply]
  constructor
  · rintro (hfree | ⟨e', he', rfl⟩)
    · exact .inr (.inl hfree)
    · by_cases hk : e'.key = r.key
      · exact .inl (by rw [if_pos hk])
      · exact .inr (.inr ⟨e', he', hk, by rw [if_neg hk]⟩)
  · rintro (rfl | hfree | ⟨e', he', hk, rfl⟩)
    · exact .inr ⟨e, he, by rw [if_pos hek]⟩
    · exact .inl hfree
    · exact .inr ⟨e', he', by rw [if_neg hk]⟩

theorem InsertPc.next_effect {t t' : FlowTable cap} {now : BitVec 64} {slot : Option Nat}
    {pc pc' : InsertPc cap} (h : pc.next t now slot = some (t', pc')) :
    CellEffect t pc t' pc' := by
  cases pc with
  | idle last => cases h
  | lookup r =>
      simp only [next] at h
      split at h <;> cases h <;> exact .keep trivial rfl rfl
  | update r i =>
      cases h
      exact .keep trivial rfl rfl
  | pop r =>
      simp only [next] at h
      split at h
      · cases h
        exact .keep trivial rfl rfl
      · rename_i i rest hfree
        cases h
        refine .take i trivial ?_ rfl rfl
        rw [FlowTable.cells, hfree]
        rfl
  | initialise r i =>
      cases h
      exact .keep trivial rfl rfl
  | add r i =>
      by_cases hkey : t.cellOf r.key = none
      · exact next_add_absent hkey h
      · exact next_add_live hkey h
  | pushBack i =>
      cases h
      exact .give i trivial (List.Perm.refl _) rfl rfl

/-- One table and the workers that insert into it. -/
structure ConcurrentTable (W : Type) (cap : Nat) where
  table : FlowTable cap
  pc : W → InsertPc cap

/-- A worker calls `Insert`, or takes the next step of its call. -/
inductive InsertAction (W : Type) where
  | call (w : W) (r : InsertRequest)
  | advance (w : W) (now : BitVec 64) (slot : Option Nat)

/-- The worker that takes a step. -/
def InsertAction.worker : InsertAction W → W
  | .call w _ | .advance w _ _ => w

namespace ConcurrentTable

/-- A table nobody is inserting into yet. -/
def start (t : FlowTable cap) : ConcurrentTable W cap := ⟨t, fun _ ↦ .idle none⟩

/-- One step of one worker.  A call on a table without a hash fails at once. -/
def insertStep (s : ConcurrentTable W cap) : InsertAction W → Option (ConcurrentTable W cap)
  | .call w r =>
      match s.pc w with
      | .idle _ =>
          if s.table.isValid then some ⟨s.table, Function.update s.pc w (.lookup r)⟩
          else some ⟨{ s.table with overflowCount := s.table.overflowCount + 1 },
            Function.update s.pc w (.idle (some .kFull))⟩
      | _ => none
  | .advance w now slot =>
      ((s.pc w).next s.table now slot).map fun p ↦ ⟨p.1, Function.update s.pc w p.2⟩

/-- No call of `Insert` is in progress. -/
def Quiescent (s : ConcurrentTable W cap) : Prop := ∀ w, ∃ last, s.pc w = .idle last

/-- A step is one worker's, and has an effect on the cells. -/
theorem insertStep_effect {s s' : ConcurrentTable W cap} {a : InsertAction W}
    (h : s.insertStep a = some s') :
    (∀ w, w ≠ a.worker → s'.pc w = s.pc w) ∧
      CellEffect s.table (s.pc a.worker) s'.table (s'.pc a.worker) := by
  cases a with
  | call w r =>
      simp only [insertStep] at h
      split at h
      · rename_i last hpc
        split at h <;> cases h
        · refine ⟨fun w' hw ↦ Function.update_of_ne hw _ _, .keep ?_ rfl ?_⟩ <;>
            simp [InsertAction.worker, hpc, InsertPc.held, InsertPc.Fresh]
        · refine ⟨fun w' hw ↦ Function.update_of_ne hw _ _, .keep ?_ rfl ?_⟩ <;>
            simp [InsertAction.worker, hpc, InsertPc.held, InsertPc.Fresh]
      · cases h
  | advance w now slot =>
      obtain ⟨⟨t, pc⟩, hnext, rfl⟩ := Option.map_eq_some_iff.mp h
      refine ⟨fun w' hw ↦ Function.update_of_ne hw _ _, ?_⟩
      show CellEffect s.table (s.pc w) t (Function.update s.pc w pc w)
      rw [Function.update_self]
      exact InsertPc.next_effect hnext

/-! ## Conservation -/

/-- A worker holds a cell. -/
def Holds (s : ConcurrentTable W cap) (w : W) (i : Fin cap) : Prop := (s.pc w).held = some i

/-- Every cell has exactly one owner: the free list, a key, or a worker between its pop and its
addition. -/
structure Conserved (s : ConcurrentTable W cap) : Prop where
  apart : s.table.Apart
  held_apart : ∀ w i, s.Holds w i → i ∉ s.table.cells
  held_unique : ∀ w w' i, s.Holds w i → s.Holds w' i → w = w'
  covered : ∀ i, i ∈ s.table.cells ∨ ∃ w, s.Holds w i

/-- A cell without an owner. -/
def Lost (s : ConcurrentTable W cap) (i : Fin cap) : Prop :=
  i ∉ s.table.cells ∧ ∀ w, ¬ s.Holds w i

/-- The worker that takes a step does not add a key that is live. -/
def AddsFresh (s : ConcurrentTable W cap) (a : InsertAction W) : Prop :=
  (s.pc a.worker).Fresh s.table

/-- Every addition of a run finds its key absent. -/
def AllFresh : ConcurrentTable W cap → List (InsertAction W) → Prop
  | _, [] => True
  | s, a :: as => s.AddsFresh a ∧
      match s.insertStep a with
      | some s' => AllFresh s' as
      | none => True

instance (t : FlowTable cap) : (pc : InsertPc cap) → Decidable (pc.Fresh t)
  | .add r _ => inferInstanceAs (Decidable (t.cellOf r.key = none))
  | .idle _ | .lookup _ | .update _ _ | .pop _ | .initialise _ _ | .pushBack _ =>
      inferInstanceAs (Decidable True)

instance (s : ConcurrentTable W cap) (a : InsertAction W) : Decidable (s.AddsFresh a) :=
  inferInstanceAs (Decidable (InsertPc.Fresh _ _))

instance decidableAllFresh : (s : ConcurrentTable W cap) → (as : List (InsertAction W)) →
    Decidable (s.AllFresh as)
  | _, [] => inferInstanceAs (Decidable True)
  | s, a :: as =>
      match h : s.insertStep a with
      | some s' =>
          have := decidableAllFresh s' as
          decidable_of_iff (s.AddsFresh a ∧ s'.AllFresh as) (by simp only [AllFresh, h])
      | none => decidable_of_iff (s.AddsFresh a) (by simp only [AllFresh, h, and_true])

omit [DecidableEq W] in
/-- What the other workers hold does not change. -/
theorem holds_iff_of_ne {s s' : ConcurrentTable W cap} {w₀ : W}
    (hothers : ∀ w, w ≠ w₀ → s'.pc w = s.pc w) {w : W} (hw : w ≠ w₀) (i : Fin cap) :
    s'.Holds w i ↔ s.Holds w i := by
  rw [Holds, Holds, hothers w hw]

omit [DecidableEq W] in
theorem conserved_start {t : FlowTable cap} (h : ∀ i, t.Owned i) :
    Conserved (start t : ConcurrentTable W cap) where
  apart := FlowTable.apart_of_owned h
  held_apart w i hw := by cases hw
  held_unique w w' i hw := by cases hw
  covered i := by
    refine .inl (List.count_pos_iff.mp ?_)
    rw [show (start t : ConcurrentTable W cap).table = t from rfl,
      FlowTable.owned_iff_count.mp (h i)]
    exact Nat.one_pos

/-- One step of a worker whose addition, if it makes one, is of an absent key. -/
theorem Conserved.step {s s' : ConcurrentTable W cap} (h : s.Conserved) {a : InsertAction W}
    (hfresh : s.AddsFresh a) (hstep : s.insertStep a = some s') : s'.Conserved := by
  obtain ⟨hothers, heffect⟩ := insertStep_effect hstep
  rw [AddsFresh] at hfresh
  generalize a.worker = w₀ at hfresh hothers heffect
  have hother : ∀ {w}, w ≠ w₀ → ∀ i, s'.Holds w i ↔ s.Holds w i := fun hw i ↦
    holds_iff_of_ne hothers hw i
  cases heffect with
  | keep _ hcells hheld =>
      have hholds : ∀ w i, s'.Holds w i ↔ s.Holds w i := by
        intro w i
        by_cases hw : w = w₀
        · rw [hw, Holds, Holds, hheld]
        · exact hother hw i
      refine ⟨?_, fun w i hw ↦ ?_, fun w w' i hw hw' ↦ ?_, fun i ↦ ?_⟩
      · rw [FlowTable.Apart, hcells]
        exact h.apart
      · rw [hcells]
        exact h.held_apart w i ((hholds w i).mp hw)
      · exact h.held_unique w w' i ((hholds w i).mp hw) ((hholds w' i).mp hw')
      · rw [hcells]
        exact (h.covered i).imp id (Exists.imp fun w hw ↦ (hholds w i).mpr hw)
  | take i _ hcells hheld hheld' =>
      have hnodup : (i :: s'.table.cells).Nodup := hcells ▸ show s.table.cells.Nodup from h.apart
      obtain ⟨hi, hapart⟩ := List.nodup_cons.mp hnodup
      have hnotheld : ∀ w, w ≠ w₀ → ¬ s.Holds w i := fun w _ hw ↦
        h.held_apart w i hw (hcells ▸ List.mem_cons_self)
      have hself : ∀ j, s'.Holds w₀ j ↔ j = i := by
        intro j
        rw [Holds, hheld', Option.some_inj, eq_comm]
      refine ⟨hapart, fun w j hw ↦ ?_, fun w w' j hw hw' ↦ ?_, fun j ↦ ?_⟩
      · by_cases hww : w = w₀
        · subst hww
          rw [(hself j).mp hw]
          exact hi
        · exact fun hj ↦ h.held_apart w j ((hother hww j).mp hw)
            (hcells ▸ List.mem_cons_of_mem _ hj)
      · by_cases hww : w = w₀ <;> by_cases hww' : w' = w₀
        · rw [hww, hww']
        · subst hww
          obtain rfl := (hself j).mp hw
          exact absurd ((hother hww' j).mp hw') (hnotheld w' hww')
        · subst hww'
          obtain rfl := (hself j).mp hw'
          exact absurd ((hother hww j).mp hw) (hnotheld w hww)
        · exact h.held_unique w w' j ((hother hww j).mp hw) ((hother hww' j).mp hw')
      · rcases h.covered j with hj | ⟨w, hw⟩
        · rw [hcells, List.mem_cons] at hj
          exact hj.symm.imp id fun hj ↦ ⟨w₀, (hself j).mpr hj⟩
        · have hww : w ≠ w₀ := by
            rintro rfl
            rw [Holds, hheld] at hw
            cases hw
          exact .inr ⟨w, (hother hww j).mpr hw⟩
  | give i _ hcells hheld hheld' =>
      have hself : ∀ j, ¬ s'.Holds w₀ j := by
        intro j hj
        rw [Holds, hheld'] at hj
        cases hj
      have hne : ∀ {w j}, s'.Holds w j → w ≠ w₀ := by
        rintro w j hw rfl
        exact hself j hw
      refine ⟨?_, fun w j hw hj ↦ ?_, fun w w' j hw hw' ↦ ?_, fun j ↦ ?_⟩
      · rw [FlowTable.Apart, hcells.nodup_iff, List.nodup_cons]
        exact ⟨h.held_apart w₀ i hheld, h.apart⟩
      · have hw' := (hother (hne hw) j).mp hw
        rcases List.mem_cons.mp (hcells.mem_iff.mp hj) with rfl | hj
        · exact hne hw (h.held_unique w w₀ j hw' hheld)
        · exact h.held_apart w j hw' hj
      · exact h.held_unique w w' j ((hother (hne hw) j).mp hw) ((hother (hne hw') j).mp hw')
      · rcases h.covered j with hj | ⟨w, hw⟩
        · exact .inl (hcells.mem_iff.mpr (List.mem_cons_of_mem _ hj))
        · by_cases hww : w = w₀
          · subst hww
            obtain rfl : i = j := Option.some_inj.mp (hheld.symm.trans hw)
            exact .inl (hcells.mem_iff.mpr List.mem_cons_self)
          · exact .inr ⟨w, (hother hww j).mpr hw⟩
  | replace r i hpc hkey hcells hheld' =>
      rw [hpc] at hfresh
      exact absurd hfresh hkey

/-- A cell that has no owner never gets one again. -/
theorem Lost.step {s s' : ConcurrentTable W cap} {i : Fin cap} (h : s.Lost i)
    {a : InsertAction W} (hstep : s.insertStep a = some s') : s'.Lost i := by
  obtain ⟨hothers, heffect⟩ := insertStep_effect hstep
  generalize a.worker = w₀ at hothers heffect
  have hheld : (∀ j, s'.Holds w₀ j → s.Holds w₀ j ∨ j ∈ s.table.cells) → ∀ w, ¬ s'.Holds w i := by
    intro hw₀ w hw
    by_cases hww : w = w₀
    · subst hww
      rcases hw₀ i hw with hw | hi
      · exact h.2 w hw
      · exact h.1 hi
    · exact h.2 w ((holds_iff_of_ne hothers hww i).mp hw)
  cases heffect with
  | keep _ hcells hheld' =>
      refine ⟨hcells ▸ h.1, hheld fun j hj ↦ .inl ?_⟩
      rw [Holds, ← hheld']
      exact hj
  | take j _ hcells _ hheld' =>
      refine ⟨fun hi ↦ h.1 (hcells ▸ List.mem_cons_of_mem _ hi), hheld fun k hk ↦ .inr ?_⟩
      obtain rfl : j = k := Option.some_inj.mp (hheld'.symm.trans hk)
      exact hcells ▸ List.mem_cons_self
  | give j _ hcells hheld₀ hheld' =>
      refine ⟨fun hi ↦ ?_, hheld fun k hk ↦ ?_⟩
      · rcases List.mem_cons.mp (hcells.mem_iff.mp hi) with rfl | hi
        · exact h.2 w₀ hheld₀
        · exact h.1 hi
      · rw [Holds, hheld'] at hk
        cases hk
  | replace r j hpc hkey hcells hheld' =>
      refine ⟨fun hi ↦ ?_, hheld fun k hk ↦ ?_⟩
      · rcases (hcells i).mp hi with rfl | hi | ⟨e, he, -, rfl⟩
        · refine h.2 w₀ ?_
          rw [Holds, hpc]
          rfl
        · exact h.1 (List.mem_append_left _ hi)
        · exact h.1 (List.mem_append_right _ (List.mem_map_of_mem he))
      · rw [Holds, hheld'] at hk
        cases hk

/-- An addition of a key that another worker has added in the meantime loses the cell the key
had. -/
theorem Conserved.lost {s s' : ConcurrentTable W cap} (h : s.Conserved) {a : InsertAction W}
    (hfresh : ¬ s.AddsFresh a) (hstep : s.insertStep a = some s') : ∃ i, s'.Lost i := by
  obtain ⟨hothers, heffect⟩ := insertStep_effect hstep
  rw [AddsFresh] at hfresh
  generalize a.worker = w₀ at hfresh hothers heffect
  cases heffect with
  | keep hfresh' _ _ => exact absurd hfresh' hfresh
  | take _ hfresh' _ _ _ => exact absurd hfresh' hfresh
  | give _ hfresh' _ _ _ => exact absurd hfresh' hfresh
  | replace r i hpc hkey hcells hheld' =>
      obtain ⟨j, hj⟩ := Option.ne_none_iff_exists'.mp hkey
      obtain ⟨e, he, hek, rfl⟩ := FlowTable.cellOf_eq_some_iff.mp hj
      have hmem : e.data ∈ s.table.cells := List.mem_append_right _ (List.mem_map_of_mem he)
      have hheld : s.Holds w₀ i := by
        rw [Holds, hpc]
        rfl
      refine ⟨e.data, fun hcell ↦ ?_, fun w hw ↦ ?_⟩
      · rcases (hcells e.data).mp hcell with hi | hfree | ⟨e', he', hk, hd⟩
        · exact h.held_apart w₀ i hheld (hi ▸ hmem)
        · exact (h.apart.live he).1 hfree
        · exact hk (((h.apart.live he).2 e' he' hd) ▸ hek)
      · by_cases hww : w = w₀
        · rw [hww, Holds, hheld'] at hw
          cases hw
        · exact h.held_apart w e.data ((holds_iff_of_ne hothers hww _).mp hw) hmem

omit [DecidableEq W] in
/-- Between calls, the owners are the free list and the keys. -/
theorem Conserved.owned {s : ConcurrentTable W cap} (h : s.Conserved) (hq : s.Quiescent)
    (i : Fin cap) : s.table.Owned i := by
  rw [FlowTable.owned_iff_count]
  refine List.count_eq_one_of_mem h.apart ((h.covered i).resolve_right ?_)
  rintro ⟨w, hw⟩
  obtain ⟨last, hpc⟩ := hq w
  rw [Holds, hpc] at hw
  cases hw

omit [DecidableEq W] in
theorem Lost.not_owned {s : ConcurrentTable W cap} {i : Fin cap} (h : s.Lost i) :
    ¬ s.table.Owned i := by
  rw [FlowTable.owned_iff_count, List.count_eq_zero.mpr h.1]
  exact Nat.zero_ne_one

/-- A lost cell is still lost at the end of the run. -/
theorem Lost.run {s s' : ConcurrentTable W cap} {i : Fin cap} (h : s.Lost i)
    (as : List (InsertAction W)) (hrun : as.foldlM insertStep s = some s') : s'.Lost i := by
  induction as generalizing s with
  | nil =>
      obtain rfl : s = s' := by simpa using hrun
      exact h
  | cons a as ih =>
      rw [List.foldlM_cons, Option.bind_eq_bind, Option.bind_eq_some_iff] at hrun
      obtain ⟨t, ht, hrest⟩ := hrun
      exact ih (h.step ht) hrest

/-- The cells are all owned at the end of a run exactly when no addition of the run was of a
key that had been added since its lookup. -/
theorem Conserved.owned_iff {s s' : ConcurrentTable W cap} (h : s.Conserved)
    (as : List (InsertAction W)) (hrun : as.foldlM insertStep s = some s')
    (hq : s'.Quiescent) : (∀ i, s'.table.Owned i) ↔ s.AllFresh as := by
  induction as generalizing s with
  | nil =>
      obtain rfl : s = s' := by simpa using hrun
      exact iff_of_true (h.owned hq) trivial
  | cons a as ih =>
      rw [List.foldlM_cons, Option.bind_eq_bind, Option.bind_eq_some_iff] at hrun
      obtain ⟨t, ht, hrest⟩ := hrun
      by_cases hfresh : s.AddsFresh a
      · rw [ih (h.step hfresh ht) hrest]
        simp only [AllFresh, ht, hfresh, true_and]
      · refine iff_of_false (fun hall ↦ ?_) fun hall ↦ hfresh hall.1
        obtain ⟨i, hi⟩ := h.lost hfresh ht
        exact (hi.run as hrest).not_owned (hall i)

/-- From any table whose cells are all owned, through every interleaving of any number of
workers: in a state where no `Insert` is in progress, every cell is on the free list once or the
data of one key, and free cells and keys add up to the capacity, exactly when every addition
found its key still absent. -/
theorem inserts_conserve_cells_iff {t : FlowTable cap} (hown : ∀ i, t.Owned i)
    (as : List (InsertAction W)) {s : ConcurrentTable W cap}
    (hrun : as.foldlM insertStep (start t) = some s) (hq : s.Quiescent) :
    ((∀ i, s.table.Owned i) ∧ s.table.freeList.length + s.table.live.length = cap) ↔
      (start t).AllFresh as := by
  rw [← (conserved_start hown).owned_iff as hrun hq]
  refine ⟨fun h ↦ h.1, fun h ↦ ⟨h, ?_⟩⟩
  have hlength := FlowTable.length_cells_of_owned h
  rwa [FlowTable.cells, List.length_append, List.length_map] at hlength

/-- Two workers, each inserting a flow of its own, step by step in turn. -/
def twoFlows : List (InsertAction Bool) :=
  [.call false ⟨{ srcPort := 1 }, 1, .kDrop⟩, .call true ⟨{ srcPort := 2 }, 1, .kForward⟩] ++
    (List.range 4).flatMap fun _ ↦ [.advance false 10 (some 0), .advance true 10 (some 1)]

/-- The two workers have taken a cell each. -/
theorem inserts_conserve_cells_two_flows :
    (start (FlowTable.new 4 true)).AllFresh twoFlows ∧
      ∃ s, twoFlows.foldlM insertStep (start (FlowTable.new 4 true)) = some s ∧
        s.Quiescent ∧ (∀ i, s.table.Owned i) ∧
        s.table.freeList.length + s.table.live.length = 4 := by
  have hfresh : (start (FlowTable.new 4 true)).AllFresh twoFlows := by decide
  obtain ⟨s, hrun, hpc⟩ : ∃ s, twoFlows.foldlM insertStep (start (FlowTable.new 4 true)) = some s ∧
      ∀ w, s.pc w = .idle (some .kOk) := by
    refine ⟨_, rfl, ?_⟩
    decide
  have hq : s.Quiescent := fun w ↦ ⟨_, hpc w⟩
  exact ⟨hfresh, s, hrun, hq,
    (inserts_conserve_cells_iff (FlowTable.new_owned 4) twoFlows hrun hq).mpr hfresh⟩

/-- Two workers that insert the same flow, step by step in turn: both miss it. -/
def oneFlowTwice : List (InsertAction Bool) :=
  [.call false ⟨{ srcPort := 1 }, 1, .kDrop⟩, .call true ⟨{ srcPort := 1 }, 1, .kDrop⟩] ++
    (List.range 4).flatMap fun _ ↦ [.advance false 10 (some 0), .advance true 10 (some 1)]

/-- Both workers are told that the insertion succeeded, the table has one key and three of four
cells are left somewhere. -/
theorem one_flow_twice_loses_cell :
    ∃ s, oneFlowTwice.foldlM insertStep (start (FlowTable.new 4 true)) = some s ∧
      (∀ w, s.pc w = .idle (some .kOk)) ∧ s.Quiescent ∧ ¬ (∀ i, s.table.Owned i) ∧
        s.table.freeList.length + s.table.live.length = 3 := by
  obtain ⟨s, hrun, hpc, hcells, hlength⟩ : ∃ s,
      oneFlowTwice.foldlM insertStep (start (FlowTable.new 4 true)) = some s ∧
        (∀ w, s.pc w = .idle (some .kOk)) ∧ s.table.cells.count 3 = 0 ∧
        s.table.freeList.length + s.table.live.length = 3 := by
    refine ⟨_, rfl, ?_, ?_, ?_⟩ <;> decide
  refine ⟨s, hrun, hpc, fun w ↦ ⟨_, hpc w⟩, fun hown ↦ ?_, hlength⟩
  rw [FlowTable.owned_iff_count.mp (hown 3)] at hcells
  cases hcells

/-! ## A call that is not interrupted -/

/-- The steps of one call, taken one after the other, compute `Insert`. -/
theorem exists_run_insert (t : FlowTable cap) (w : W) (r : InsertRequest) (now : BitVec 64)
    (slot : Option Nat) : ∃ n, (.call w r :: List.replicate n (.advance w now slot)).foldlM
      insertStep (start t) = some ⟨(t.insert r.key r.matchCount r.action now slot).2,
        Function.update (fun _ ↦ .idle none) w
          (.idle (some (t.insert r.key r.matchCount r.action now slot).1))⟩ := by
  cases hh : t.hash with
  | none =>
      refine ⟨0, ?_⟩
      simp [insertStep, start, FlowTable.isValid, FlowTable.insert, hh, FlowTable.countOverflow]
  | some h =>
      cases hk : h.lookup r.key with
      | some i =>
          refine ⟨2, ?_⟩
          simp [insertStep, start, FlowTable.isValid, FlowTable.insert, hh, hk, List.replicate,
            InsertPc.next, FlowTable.cellOf]
      | none =>
          cases hf : t.freeList with
          | nil =>
              refine ⟨2, ?_⟩
              simp [insertStep, start, FlowTable.isValid, FlowTable.insert, hh, hk, hf,
                List.replicate, InsertPc.next, FlowTable.cellOf, FlowTable.addFlow,
                FlowTable.countOverflow]
          | cons i rest =>
              cases hadd : h.add r.key slot i with
              | none =>
                  refine ⟨5, ?_⟩
                  simp [insertStep, start, FlowTable.isValid, FlowTable.insert, hh, hk, hf, hadd,
                    List.replicate, InsertPc.next, FlowTable.cellOf, FlowTable.addFlow,
                    FlowTable.countOverflow, FlowTable.store]
              | some h' =>
                  refine ⟨4, ?_⟩
                  simp [insertStep, start, FlowTable.isValid, FlowTable.insert, hh, hk, hf, hadd,
                    List.replicate, InsertPc.next, FlowTable.cellOf, FlowTable.addFlow,
                    FlowTable.countOverflow, FlowTable.store]

end ConcurrentTable

end DpdkSpi
