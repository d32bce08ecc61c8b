import Mathlib.Data.List.FinRange
import DpdkSpi.Flow.Key
import DpdkSpi.Lib.SlotMap

/-!
# The flow table

`FlowTable cap` is the per-flow verdict cache of `spi_flow_table.hpp` and
`spi_flow_table.cpp`: `cap` cells (`data_`), a LIFO list of the cells nobody uses
(`free_list_`) and an `rte_hash` whose payloads are pointers to cells.  A pointer
into `data_` is an index below `cap`, so that a dangling one cannot be written
down.

`rte_hash` itself is outside the repository and is modelled by `SlotMap`: a
finite map from keys to a *position* the library picks and a data pointer.  What
the library decides (which free position a new key gets, or that there is none)
and what the clock returns (`rte_rdtsc`) are arguments of the operation.
-/

namespace DpdkSpi

open Lib

/-! ## Cells -/

/-- `kFlowActionMask`. -/
def kFlowActionMask : BitVec 64 := 0xF

/-- `kFlowMatchCountShift`. -/
def kFlowMatchCountShift : Nat := 4

/-- The number behind an action. -/
def Action.toWord : Action → BitVec 64
  | .kForward => 0
  | .kDrop => 1

/-- `static_cast<Action>`: the action behind a number.  No word the table stores
has a number other than 0 or 1 in its action bits. -/
def Action.ofWord (w : BitVec 64) : Action := if w = 1 then .kDrop else .kForward

/-- The packed word `action_and_count`: the action in the lower four bits, the match
count above them. -/
def packAction (matchCount : BitVec 64) (action : Action) : BitVec 64 :=
  (matchCount <<< kFlowMatchCountShift) ||| (action.toWord &&& kFlowActionMask)

/-- `DecodePacked`: the action of a packed word. -/
def decodePacked (packed : BitVec 64) : Action := Action.ofWord (packed &&& kFlowActionMask)

/-- One cached flow entry.  A zero `actionAndCount` is an empty cell. -/
structure FlowData where
  actionAndCount : BitVec 64 := 0
  lastSeenTsc : BitVec 64 := 0
deriving DecidableEq, Repr

/-- What a lookup that lands on this cell answers: an empty cell is a miss. -/
def FlowData.view (d : FlowData) : Option Action :=
  if d.actionAndCount = 0 then none else some (decodePacked d.actionAndCount)

/-! ## The table -/

/-- The hash of a table of `cap` cells: keys with their position and the cell their
data pointer points to. -/
abbrev RteHash (cap : Nat) := SlotMap FlowKey (Fin cap)

/-- The per-flow classification cache.  The head of `freeList` is the back of
`free_list_`, the cell the next insertion takes. -/
structure FlowTable (cap : Nat) where
  /-- `hash_`, null when `rte_hash_create` failed. -/
  hash : Option (RteHash cap)
  /-- `data_`. -/
  data : Fin cap → FlowData
  /-- `free_list_`. -/
  freeList : List (Fin cap)
  /-- `overflow_count_`. -/
  overflowCount : Nat

/-- Outcome of an insertion. -/
inductive FlowInsertResult where
  | kOk
  | kFull
deriving DecidableEq, Repr

/-- Bulk-path snapshot; `valid` tells hits from misses. -/
structure BulkResult where
  action : Action := .kForward
  valid : Bool := false
deriving DecidableEq, Repr

namespace FlowTable

variable {cap : Nat}

/-- The constructor.  `created` says whether `rte_hash_create` succeeded; if not,
the table stays without cells to hand out.  Cells are pushed in index order, so
the last one is taken first. -/
def new (cap : Nat) (created : Bool) : FlowTable cap where
  hash := if created then some SlotMap.empty else none
  data := fun _ ↦ {}
  freeList := if created then (List.finRange cap).reverse else []
  overflowCount := 0

/-- `IsValid`. -/
def isValid (t : FlowTable cap) : Bool := t.hash.isSome

/-- Overwrite one cell. -/
def store (t : FlowTable cap) (i : Fin cap) (d : FlowData) : FlowTable cap :=
  { t with data := Function.update t.data i d }

@[simp] theorem store_hash (t : FlowTable cap) (i : Fin cap) (d : FlowData) :
    (t.store i d).hash = t.hash := rfl

@[simp] theorem store_freeList (t : FlowTable cap) (i : Fin cap) (d : FlowData) :
    (t.store i d).freeList = t.freeList := rfl

/-- `Lookup`: the verdict cached for a key; a hit refreshes the time stamp. -/
def lookup (t : FlowTable cap) (key : FlowKey) (now : BitVec 64) :
    Option Action × FlowTable cap :=
  match t.hash.bind fun h ↦ h.lookup key with
  | none => (none, t)
  | some i =>
      let packed := (t.data i).actionAndCount
      if packed = 0 then (none, t)
      else (some (decodePacked packed), t.store i { t.data i with lastSeenTsc := now })

/-- `RTE_HASH_LOOKUP_BULK_MAX`. -/
def kMaxBulkKeys : Nat := 64

/-- The loop of `LookupBulk` over the hits of `rte_hash_lookup_bulk_data`.  A result
is only written for a hit on a non-empty cell. -/
def lookupBulkLoop (now : BitVec 64) :
    List (Option (Fin cap)) → List BulkResult → FlowTable cap → List BulkResult × FlowTable cap
  | some i :: hits, r :: results, t =>
      let packed := (t.data i).actionAndCount
      if packed = 0 then
        let rest := lookupBulkLoop now hits results t
        (r :: rest.1, rest.2)
      else
        let rest := lookupBulkLoop now hits results
          (t.store i { t.data i with lastSeenTsc := now })
        ({ action := decodePacked packed, valid := true } :: rest.1, rest.2)
  | none :: hits, r :: results, t =>
      let rest := lookupBulkLoop now hits results t
      (r :: rest.1, rest.2)
  | [], results, t => (results, t)
  | _ :: _, [], t => ([], t)

/-- `LookupBulk`: at most 64 keys are looked up, the rest of `results` is left as
it was.  `rte_hash_lookup_bulk_data` resolves all keys before the loop starts. -/
def lookupBulk (t : FlowTable cap) (keys : List FlowKey) (now : BitVec 64)
    (results : List BulkResult) : List BulkResult × FlowTable cap :=
  match t.hash with
  | none => (results.mapIdx fun i r ↦ if i < keys.length then {} else r, t)
  | some h => lookupBulkLoop now ((keys.take kMaxBulkKeys).map h.lookup) results t

/-- The part of `Insert` and `InsertRaw` after a miss: take a cell off the free list,
fill it, and hand it to `rte_hash_add_key_data`.  When the library refuses, the
cell goes back on the free list with its new contents. -/
def addFlow (t : FlowTable cap) (h : RteHash cap) (key : FlowKey) (matchCount : BitVec 64)
    (action : Action) (now : BitVec 64) (slot : Option Nat) :
    FlowInsertResult × FlowTable cap :=
  match t.freeList with
  | [] => (.kFull, t)
  | i :: rest =>
      let t' := t.store i { actionAndCount := packAction matchCount action, lastSeenTsc := now }
      match h.add key slot i with
      | none => (.kFull, t')
      | some h' => (.kOk, { t' with hash := some h', freeList := rest })

/-- Count one failed insertion in `overflow_count_`. -/
def countOverflow : FlowInsertResult × FlowTable cap → FlowInsertResult × FlowTable cap
  | (.kFull, t) => (.kFull, { t with overflowCount := t.overflowCount + 1 })
  | r => r

/-- `Insert`: a live key has its cell overwritten in place, a new key takes a free
cell and the position `slot` the library picks.  The pushed-back cell of a failed
insertion is the one just popped, so the free list is unchanged then. -/
def insert (t : FlowTable cap) (key : FlowKey) (matchCount : BitVec 64) (action : Action)
    (now : BitVec 64) (slot : Option Nat) : FlowInsertResult × FlowTable cap :=
  match t.hash with
  | none => countOverflow (.kFull, t)
  | some h =>
      match h.lookup key with
      | some i =>
          (.kOk, t.store i
            { actionAndCount := packAction matchCount action, lastSeenTsc := now })
      | none => countOverflow (t.addFlow h key matchCount action now slot)

/-- `InsertRaw`: like `insert`, without looking for the key first. -/
def insertRaw (t : FlowTable cap) (key : FlowKey) (matchCount : BitVec 64) (action : Action)
    (now : BitVec 64) (slot : Option Nat) : FlowInsertResult × FlowTable cap :=
  match t.hash with
  | none => (.kFull, t)
  | some h => t.addFlow h key matchCount action now slot

/-! ## Purging -/

/-- `kCancelCheckInterval`. -/
def kCancelCheckInterval : Nat := 1024

/-- The state of the scan of `PurgeExpired`: the hash, the cells, and the cells
released so far (`expired_data`). -/
structure Scan (cap : Nat) where
  hash : RteHash cap
  data : Fin cap → FlowData
  expired : List (Fin cap)

/-- A cell the scan considers: not empty, and last seen before the threshold. -/
def Stale (data : Fin cap → FlowData) (threshold : BitVec 64) (i : Fin cap) : Prop :=
  (data i).actionAndCount ≠ 0 ∧ (data i).lastSeenTsc < threshold

instance (data : Fin cap → FlowData) (threshold : BitVec 64) (i : Fin cap) :
    Decidable (Stale data threshold i) := inferInstanceAs (Decidable (_ ∧ _))

/-- One iteration of the scan.  The age is that of the cell at `i`; the key that is
deleted is the one the hash has at *position* `i`. -/
def purgeSlot (threshold : BitVec 64) (s : Scan cap) (i : Fin cap) : Scan cap :=
  if Stale s.data threshold i then
    match s.hash.keyAt i with
    | none => s
    | some key =>
        { hash := s.hash.erase key
          data := Function.update s.data i {}
          expired := s.expired ++ [i] }
  else s

/-- The scan over the remaining indices.  `untilCancel` is `slots_until_cancel`; the
flag is polled whenever the counter runs out, and `forceQuit i` is the value read
if that happens at index `i`. -/
def purgeLoop (threshold : BitVec 64) (forceQuit : Fin cap → Bool) :
    List (Fin cap) → Nat → Scan cap → Scan cap
  | [], _, s => s
  | i :: rest, untilCancel, s =>
      if untilCancel - 1 = 0 then
        if forceQuit i then s
        else purgeLoop threshold forceQuit rest kCancelCheckInterval (purgeSlot threshold s i)
      else purgeLoop threshold forceQuit rest (untilCancel - 1) (purgeSlot threshold s i)

/-- `PurgeExpired`: remove the entries not seen since `now - ttl` and push their cells
back on the free list. -/
def purgeExpired (t : FlowTable cap) (now ttl : BitVec 64) (forceQuit : Fin cap → Bool) :
    FlowTable cap :=
  match t.hash with
  | none => t
  | some h =>
      if now ≤ ttl then t
      else
        let s := purgeLoop (now - ttl) forceQuit (List.finRange cap) kCancelCheckInterval
          ⟨h, t.data, []⟩
        { t with
          hash := some s.hash
          data := s.data
          freeList := s.expired.reverse ++ t.freeList }

/-! ## Visiting -/

/-- `ForEachOccupied`: what the visitor is called with, in order.  The packed word is
that of the cell at `i`, the key the one the hash has at *position* `i`. -/
def forEachOccupied (t : FlowTable cap) : List (FlowKey × BitVec 64 × Action) :=
  match t.hash with
  | none => []
  | some h => (List.finRange cap).filterMap fun i ↦
      let packed := (t.data i).actionAndCount
      if packed = 0 then none
      else (h.keyAt i).map fun key ↦ (key, packed >>> kFlowMatchCountShift, decodePacked packed)

/-! ## What the table holds -/

/-- The live entries of the hash. -/
def live (t : FlowTable cap) : List (SlotEntry FlowKey (Fin cap)) :=
  match t.hash with
  | none => []
  | some h => h.entries

@[simp] theorem live_store (t : FlowTable cap) (i : Fin cap) (d : FlowData) :
    (t.store i d).live = t.live := rfl

theorem live_nodup (t : FlowTable cap) : t.live.Nodup := by
  unfold live
  split
  · exact List.nodup_nil
  · exact List.Nodup.of_map _ (SlotMap.keys_nodup _)

/-- Two live entries with the same key are the same entry. -/
theorem live_eq_of_key_eq {t : FlowTable cap} {e e' : SlotEntry FlowKey (Fin cap)}
    (he : e ∈ t.live) (he' : e' ∈ t.live) (h : e.key = e'.key) : e = e' := by
  unfold live at he he'
  split at he
  · simp at he
  · rename_i hh
    rw [hh] at he'
    exact SlotMap.eq_of_key_eq _ he he' h

/-- The cell a key's data pointer points to; `none` when the key is not in the hash. -/
def cellOf (t : FlowTable cap) (key : FlowKey) : Option (Fin cap) :=
  t.hash.bind fun h ↦ h.lookup key

theorem cellOf_eq_some_iff {t : FlowTable cap} {key : FlowKey} {i : Fin cap} :
    t.cellOf key = some i ↔ ∃ e ∈ t.live, e.key = key ∧ e.data = i := by
  cases hh : t.hash with
  | none => simp [cellOf, live, hh]
  | some h => simp [cellOf, live, hh, SlotMap.lookup_eq_some_iff]

theorem cellOf_eq_none_iff {t : FlowTable cap} {key : FlowKey} :
    t.cellOf key = none ↔ ∀ e ∈ t.live, e.key ≠ key := by
  cases hh : t.hash with
  | none => simp [cellOf, live, hh]
  | some h => simp [cellOf, live, hh, SlotMap.lookup_eq_none_iff]

/-- The verdict the table holds for a key: the view of the key's own cell. -/
def answer (t : FlowTable cap) (key : FlowKey) : Option Action :=
  (t.cellOf key).bind fun i ↦ (t.data i).view

theorem answer_of_mem {t : FlowTable cap} {e : SlotEntry FlowKey (Fin cap)} (he : e ∈ t.live) :
    t.answer e.key = (t.data e.data).view := by
  rw [answer, cellOf_eq_some_iff.mpr ⟨e, he, rfl, rfl⟩, Option.bind_some]

theorem answer_of_forall_ne {t : FlowTable cap} {key : FlowKey} (h : ∀ e ∈ t.live, e.key ≠ key) :
    t.answer key = none := by
  rw [answer, cellOf_eq_none_iff.mpr h, Option.bind_none]

/-- What a lookup returns, whatever the clock says. -/
theorem lookup_fst (t : FlowTable cap) (key : FlowKey) (now : BitVec 64) :
    (t.lookup key now).1 = t.answer key := by
  unfold lookup answer cellOf
  split
  · rename_i hk
    rw [hk]
    rfl
  · rename_i i hk
    rw [hk, Option.bind_some, FlowData.view]
    dsimp only
    split <;> rfl

end FlowTable

end DpdkSpi
