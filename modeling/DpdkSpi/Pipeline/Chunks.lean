import DpdkSpi.Lib.Loop
import DpdkSpi.Pipeline.Lookup

/-!
# Bulk lookup by hit masks

`BulkFlowLookup` as it runs: it walks the keys of a burst in chunks of 64, hands each chunk to
`rte_hash_lookup_bulk_data`, and `LookupBulk` reads the hit mask bit by bit and writes into the part
of the results that belongs to the chunk.  What comes out is what looking up one key after another
gives (`bulkFlowLookupChunks_eq`).
-/

namespace DpdkSpi

open Lib

variable {cap : Nat}

/-! ## The library -/

/-- What `rte_hash_lookup_bulk_data` writes: `hit_mask`, and `data`, where a pointer that is not
written stays null. -/
structure BulkHits (cap : Nat) where
  hitMask : BitVec 64
  data : Vector (Option (Fin cap)) 64

/-- `rte_hash_lookup_bulk_data`. -/
abbrev RteHashLookupBulkData (cap : Nat) := RteHash cap → List FlowKey → BulkHits cap

/-- For at most 64 keys, a bit of the mask is set and the pointer is filled exactly when the single
lookup of its key succeeds. -/
def RteHashLookupBulkData.Resolves (lib : RteHashLookupBulkData cap) : Prop :=
  ∀ h keys, keys.length ≤ FlowTable.kMaxBulkKeys → ∀ (i : Fin 64) key, keys[i.val]? = some key →
    (lib h keys).hitMask.getLsbD i = (h.lookup key).isSome ∧
      ∀ cell, h.lookup key = some cell → (lib h keys).data[i] = some cell

/-! ## The loops -/

/-- The results and the table, while keys are looked up. -/
abbrev BulkState (cap : Nat) := List BulkResult × FlowTable cap

namespace FlowTable

/-- The body of the loop of `LookupBulk`, at a key of the chunk.  Nothing is left when a null
pointer is followed. -/
def lookupBulkAt (now : BitVec 64) (hits : BulkHits cap) (chunkStart i : Nat) (s : BulkState cap) :
    Option (BulkState cap) :=
  if (hits.hitMask >>> i) &&& 1 = 0 then some s
  else
    match hits.data[i]?.join with
    | none => none
    | some cell =>
        let packed := (s.2.data cell).actionAndCount
        if packed = 0 then some s
        else some (s.1.set (chunkStart + i) { action := decodePacked packed, valid := true },
          s.2.store cell { s.2.data cell with lastSeenTsc := now })

/-- `LookupBulk` on the keys of a chunk, with the results from `chunkStart` on. -/
def lookupBulkChunk (lib : RteHashLookupBulkData cap) (now : BitVec 64) (keys : List FlowKey)
    (numKeys chunkStart : Nat) (s : BulkState cap) : Option (BulkState cap) :=
  match s.2.hash with
  | none =>
      forStride Nat.one_pos numKeys (fun i s ↦ some (s.1.set (chunkStart + i) {}, s.2)) 0 s
  | some h =>
      if numKeys = 0 then some s
      else
        let numKeys := min numKeys kMaxBulkKeys
        forStride Nat.one_pos numKeys (lookupBulkAt now (lib h (keys.take numKeys)) chunkStart) 0 s

end FlowTable

theorem kBulkChunkMax_pos : 0 < kBulkChunkMax := by decide

/-- `BulkFlowLookup`, with the subspans of keys and results as it forms them.  There are at most 256
keys, so that the index of the last chunk does not wrap. -/
def bulkFlowLookupChunks (lib : RteHashLookupBulkData cap) (now : BitVec 64) (keys : List FlowKey)
    (nParsed : Nat) (s : BulkState cap) : Option (BulkState cap) :=
  forStride kBulkChunkMax_pos nParsed (fun chunkStart s ↦
    FlowTable.lookupBulkChunk lib now (keys.drop chunkStart)
      (min kBulkChunkMax (nParsed - chunkStart)) chunkStart s) 0 s

/-! ## One key after another -/

section LookedUp

variable {now : BitVec 64} {t : FlowTable cap} {keys : List FlowKey} {results : List BulkResult}
  {k : Nat} {s s' : BulkState cap} {key : FlowKey}

/-- The first `k` keys have been looked up, and nothing else has happened. -/
structure LookedUp (now : BitVec 64) (t : FlowTable cap) (keys : List FlowKey)
    (results : List BulkResult) (k : Nat) (s : BulkState cap) : Prop where
  table : s.2 = t.lookupAll now (keys.take k)
  before : ∀ i < k, s.1[i]? = keys[i]?.map fun key ↦ .ofAnswer (t.answer key)
  behind : ∀ i, k ≤ i → s.1[i]? = results[i]?

namespace LookedUp

theorem start (now : BitVec 64) (t : FlowTable cap) (keys : List FlowKey)
    (results : List BulkResult) : LookedUp now t keys results 0 (results, t) :=
  ⟨rfl, nofun, fun _ _ ↦ rfl⟩

theorem hash_eq (h : LookedUp now t keys results k s) : s.2.hash = t.hash := by
  rw [h.table, FlowTable.hash_lookupAll]

theorem answer_eq (h : LookedUp now t keys results k s) (key : FlowKey) :
    s.2.answer key = t.answer key := by
  rw [h.table, FlowTable.answer_lookupAll]

/-- The next key: the table is that behind its lookup, and its result is the only one written. -/
theorem succ (h : LookedUp now t keys results k s) (hkey : keys[k]? = some key)
    (htable : s'.2 = (s.2.lookup key now).2)
    (hat : s'.1[k]? = some (.ofAnswer (t.answer key)))
    (hother : ∀ i, i ≠ k → s'.1[i]? = s.1[i]?) : LookedUp now t keys results (k + 1) s' := by
  refine ⟨?_, fun i hi ↦ ?_, fun i hi ↦ ?_⟩
  · rw [htable, h.table, List.take_add_one, hkey, FlowTable.lookupAll, FlowTable.lookupAll,
      List.foldl_append]
    rfl
  · by_cases hik : i = k
    · subst hik
      rw [hat, hkey, Option.map_some]
    · rw [hother i hik]
      exact h.before i (by omega)
  · rw [hother i (by omega)]
    exact h.behind i (by omega)

/-- A key without an answer leaves everything as it is. -/
theorem miss (h : LookedUp now t keys results k s) (hkey : keys[k]? = some key)
    (hzero : results[k]? = some {}) (hnone : t.answer key = none)
    (hsame : (s.2.lookup key now).2 = s.2) : LookedUp now t keys results (k + 1) s := by
  refine h.succ hkey hsame.symm ?_ fun i _ ↦ rfl
  rw [h.behind k le_rfl, hzero, hnone]
  rfl

/-- A key with an answer has it written. -/
theorem hit (h : LookedUp now t keys results k s) (hkey : keys[k]? = some key)
    (hzero : results[k]? = some {}) {action : Action} (hsome : t.answer key = some action) :
    LookedUp now t keys results (k + 1)
      (s.1.set k { action, valid := true }, (s.2.lookup key now).2) := by
  have hlt : k < s.1.length := by
    have hget := (h.behind k le_rfl).trans hzero
    exact (List.getElem?_eq_some_iff.mp hget).1
  refine h.succ hkey rfl ?_ fun i hi ↦ List.getElem?_set_ne (Ne.symm hi)
  rw [List.getElem?_set_self hlt, hsome]
  rfl

end LookedUp

/-! ## The loops keep it -/

/-- The test of a bit of the mask. -/
theorem shift_and_one_eq_zero (mask : BitVec 64) (i : Nat) :
    (mask >>> i) &&& 1 = 0 ↔ mask.getLsbD i = false := by
  have hbit : (mask >>> i).getLsbD 0 = mask.getLsbD i := by
    rw [BitVec.getLsbD_ushiftRight, Nat.add_zero]
  rw [show (1 : BitVec 64) = 1#64 from rfl, BitVec.and_one_eq_setWidth_ofBool_getLsbD, hbit]
  cases mask.getLsbD i <;> decide

namespace LookedUp

variable {lib : RteHashLookupBulkData cap} {chunkStart numKeys : Nat}

/-- A key of a chunk, with the pointer that the library found for it. -/
theorem lookupBulkAt_ok (hlib : lib.Resolves) {h : RteHash cap} (hh : t.hash = some h)
    {chunk : List FlowKey} (hchunk : chunk.length ≤ FlowTable.kMaxBulkKeys) {i : Nat}
    (hi : chunk[i]? = some key) (hkey : keys[chunkStart + i]? = some key)
    (hzero : results[chunkStart + i]? = some {})
    (hs : LookedUp now t keys results (chunkStart + i) s) :
    ∃ s', FlowTable.lookupBulkAt now (lib h chunk) chunkStart i s = some s' ∧
      LookedUp now t keys results (chunkStart + i + 1) s' := by
  have hlt : i < 64 := (List.getElem?_eq_some_iff.mp hi).1.trans_le hchunk
  have hhash : s.2.hash = some h := hs.hash_eq.trans hh
  obtain ⟨hbit, hdata⟩ := hlib h chunk hchunk ⟨i, hlt⟩ key hi
  have hanswer := hs.answer_eq key
  unfold FlowTable.lookupBulkAt
  cases hcell : h.lookup key with
  | none =>
      rw [hcell] at hbit
      rw [FlowTable.answer, FlowTable.cellOf, hhash, Option.bind_some, hcell] at hanswer
      refine ⟨s, if_pos ((shift_and_one_eq_zero _ i).mpr hbit), hs.miss hkey hzero hanswer.symm ?_⟩
      simp [FlowTable.lookup, hhash, hcell]
  | some cell =>
      rw [hcell] at hbit
      have hpointer : ((lib h chunk).data[i]?).join = some cell := by
        rw [Vector.getElem?_eq_getElem hlt]
        exact hdata cell hcell
      rw [FlowTable.answer, FlowTable.cellOf, hhash, Option.bind_some, hcell, Option.bind_some,
        FlowData.view] at hanswer
      have hset : ¬ (lib h chunk).hitMask >>> i &&& 1 = 0 := by
        intro hmiss
        have hclear := ((shift_and_one_eq_zero _ i).mp hmiss).symm.trans hbit
        cases hclear
      rw [if_neg hset, hpointer]
      dsimp only
      by_cases hempty : (s.2.data cell).actionAndCount = 0
      · rw [if_pos hempty] at hanswer ⊢
        refine ⟨s, rfl, hs.miss hkey hzero hanswer.symm ?_⟩
        simp [FlowTable.lookup, hhash, hcell, hempty]
      · rw [if_neg hempty] at hanswer ⊢
        have hstamp : (s.2.lookup key now).2 =
            s.2.store cell { s.2.data cell with lastSeenTsc := now } := by
          simp only [FlowTable.lookup, hhash, Option.bind_some, hcell]
          rw [if_neg hempty]
        refine ⟨_, rfl, ?_⟩
        rw [← hstamp]
        exact hs.hit hkey hzero hanswer.symm

/-- The keys of a chunk, where all its results are as they were initialised. -/
theorem lookupBulkChunk_ok (hlib : lib.Resolves) (hchunk : numKeys ≤ FlowTable.kMaxBulkKeys)
    (hkeys : chunkStart + numKeys ≤ keys.length)
    (hzero : ∀ i < numKeys, results[chunkStart + i]? = some {})
    (hs : LookedUp now t keys results chunkStart s) :
    ∃ s', FlowTable.lookupBulkChunk lib now (keys.drop chunkStart) numKeys chunkStart s = some s' ∧
      LookedUp now t keys results (chunkStart + numKeys) s' := by
  have hkey : ∀ i < numKeys, ∃ key, keys[chunkStart + i]? = some key := fun i hi ↦
    ⟨_, List.getElem?_eq_getElem (by omega)⟩
  unfold FlowTable.lookupBulkChunk
  cases hh : t.hash with
  | none =>
      rw [hs.hash_eq.trans hh]
      refine forStride_ok Nat.one_pos (fun i s ↦ LookedUp now t keys results (chunkStart + i) s)
        (fun i s hi hs ↦ ⟨_, rfl, ?_⟩) (by rw [Nat.zero_min]; exact hs)
      obtain ⟨key, hkey⟩ := hkey i hi
      have hget : s.1[chunkStart + i]? = some {} := (hs.behind _ le_rfl).trans (hzero i hi)
      have hnone : t.answer key = none := by rw [FlowTable.answer, FlowTable.cellOf, hh]; rfl
      rw [Nat.min_eq_left hi]
      refine hs.succ hkey ?_ ?_ fun j hj ↦ List.getElem?_set_ne (Ne.symm hj)
      · simp [FlowTable.lookup, hs.hash_eq.trans hh]
      · rw [List.getElem?_set_self (List.getElem?_eq_some_iff.mp hget).1, hnone]
        rfl
  | some h =>
      rw [hs.hash_eq.trans hh]
      dsimp only
      split
      · rename_i hnil
        subst hnil
        exact ⟨s, rfl, hs⟩
      · rw [Nat.min_eq_left hchunk]
        have hlength : ((keys.drop chunkStart).take numKeys).length = numKeys := by
          rw [List.length_take, List.length_drop]
          omega
        refine forStride_ok Nat.one_pos (fun i s ↦ LookedUp now t keys results (chunkStart + i) s)
          (fun i s hi hs ↦ ?_) (by rw [Nat.zero_min]; exact hs)
        obtain ⟨key, hkey⟩ := hkey i hi
        have hin : ((keys.drop chunkStart).take numKeys)[i]? = some key := by
          rw [List.getElem?_take_of_lt hi, List.getElem?_drop, hkey]
        rw [Nat.min_eq_left hi]
        exact lookupBulkAt_ok hlib hh (hlength.trans_le hchunk) hin hkey (hzero i hi) hs

/-- All keys of a burst. -/
theorem bulkFlowLookupChunks_ok (hlib : lib.Resolves) (now : BitVec 64) (t : FlowTable cap)
    {nParsed : Nat} (hkeys : nParsed ≤ keys.length) (hzero : ∀ i < nParsed, results[i]? = some {}) :
    ∃ s', bulkFlowLookupChunks lib now keys nParsed (results, t) = some s' ∧
      LookedUp now t keys results nParsed s' := by
  refine forStride_ok kBulkChunkMax_pos (fun i s ↦ LookedUp now t keys results i s)
    (fun chunkStart s hi hs ↦ ?_) (by rw [Nat.zero_min]; exact start now t keys results)
  have hsize : chunkStart + min kBulkChunkMax (nParsed - chunkStart) =
      min (chunkStart + kBulkChunkMax) nParsed := by omega
  rw [← hsize]
  refine lookupBulkChunk_ok hlib (Nat.min_le_left _ _) (by omega) (fun i hi ↦ ?_) hs
  exact hzero (chunkStart + i) (by omega)

end LookedUp

/-- **Chunked bulk lookup is single lookups**: each result tells the answer of the lookup of its own
key, which is the same in front of the burst and at its turn, results behind the keys are left
alone, and the table is the one that the lookups leave, one after another. -/
theorem bulkFlowLookupChunks_single {lib : RteHashLookupBulkData cap} (hlib : lib.Resolves)
    (now : BitVec 64) (t : FlowTable cap) (keys : List FlowKey) (results : List BulkResult)
    {nParsed : Nat} (hkeys : nParsed ≤ keys.length)
    (hzero : ∀ i < nParsed, results[i]? = some {}) :
    ∃ results' t', bulkFlowLookupChunks lib now keys nParsed (results, t) = some (results', t') ∧
      (∀ i < nParsed, ∀ key, keys[i]? = some key →
        ((t.lookupAll now (keys.take i)).lookup key now).1 = (t.lookup key now).1 ∧
          ∃ r, results'[i]? = some r ∧ (r.valid = true ↔ (t.lookup key now).1.isSome = true) ∧
            ∀ action, (t.lookup key now).1 = some action → r.action = action) ∧
      (∀ i, nParsed ≤ i → results'[i]? = results[i]?) ∧
      t' = t.lookupAll now (keys.take nParsed) := by
  obtain ⟨s', hrun, hs⟩ := LookedUp.bulkFlowLookupChunks_ok hlib now t hkeys hzero
  refine ⟨s'.1, s'.2, hrun, fun i hi key hkey ↦ ?_, hs.behind, hs.table⟩
  rw [FlowTable.lookup_fst, FlowTable.lookup_fst, FlowTable.answer_lookupAll]
  refine ⟨rfl, BulkResult.ofAnswer (t.answer key), ?_, ?_⟩
  · rw [hs.before i hi, hkey, Option.map_some]
  · cases t.answer key with
    | none => exact ⟨iff_of_false nofun nofun, nofun⟩
    | some action => exact ⟨iff_of_true rfl rfl, fun _ h ↦ Option.some.inj h⟩

/-- The bulk lookup of the pipeline, which takes the chunks off the front of the keys, agrees. -/
theorem bulkFlowLookupChunks_eq {lib : RteHashLookupBulkData cap} (hlib : lib.Resolves)
    (now : BitVec 64) (t : FlowTable cap) (keys : List FlowKey) :
    bulkFlowLookupChunks lib now keys keys.length (List.replicate keys.length {}, t) =
      some (bulkFlowLookup now keys.length t keys (List.replicate keys.length {})) := by
  have hzero : ∀ i < keys.length, (List.replicate keys.length ({} : BulkResult))[i]? = some {} :=
    fun i hi ↦ List.getElem?_replicate_of_lt hi
  obtain ⟨s', hrun, hs⟩ := LookedUp.bulkFlowLookupChunks_ok hlib now t le_rfl hzero
  rw [hrun, bulkFlowLookup_eq now t le_rfl]
  refine congrArg some (Prod.ext (List.ext_getElem? fun i ↦ ?_) ?_)
  · rw [List.getElem?_map]
    by_cases hi : i < keys.length
    · exact hs.before i hi
    · have hle : keys.length ≤ i := Nat.le_of_not_lt hi
      rw [hs.behind i hle, List.getElem?_eq_none hle, List.getElem?_eq_none]
      · rfl
      · rw [List.length_replicate]
        exact hle
  · rw [hs.table, List.take_length]

end LookedUp

/-! ## A library that scans -/

/-- The single lookups of the keys, as a bulk lookup. -/
def scanBulk (cap : Nat) : RteHashLookupBulkData cap := fun h keys ↦
  { hitMask := (BitVec.ofBoolListLE (keys.map fun key ↦ (h.lookup key).isSome)).setWidth 64
    data := Vector.ofFn fun i : Fin 64 ↦ keys[i.val]?.bind h.lookup }

theorem scanBulk_resolves (cap : Nat) : (scanBulk cap).Resolves := by
  intro h keys hlength i key hkey
  constructor
  · show ((BitVec.ofBoolListLE _).setWidth 64).getLsbD i = _
    rw [BitVec.getLsbD_setWidth, BitVec.getLsbD_ofBoolListLE, List.getD_eq_getElem?_getD,
      List.getElem?_map, hkey, decide_eq_true i.isLt]
    rfl
  · intro cell hcell
    show (Vector.ofFn _)[i.val] = _
    rw [Vector.getElem_ofFn, hkey]
    exact hcell

/-- A flow table that knows one flow and drops it. -/
def droppedFlow : FlowTable 1 := ((FlowTable.new 1 true).insert {} 1 .kDrop 0 (some 0)).2

/-- The flow 65 times: its last key is the first one of the second chunk. -/
theorem bulkFlowLookupChunks_single_repeated :
    ∃ results t, bulkFlowLookupChunks (scanBulk 1) 9 (List.replicate 65 {}) 65
        (List.replicate 65 {}, droppedFlow) = some (results, t) ∧
      (∃ r, results[64]? = some r ∧ r.valid = true ∧ r.action = .kDrop) ∧
      t = droppedFlow.lookupAll 9 (List.replicate 65 {}) := by
  have hdrop : (droppedFlow.lookup {} 9).1 = some .kDrop := rfl
  obtain ⟨results, t, hrun, hanswers, -, htable⟩ :=
    bulkFlowLookupChunks_single (scanBulk_resolves 1) 9 droppedFlow (List.replicate 65 {})
      (List.replicate 65 {}) (Nat.le_of_eq List.length_replicate.symm)
      fun i hi ↦ List.getElem?_replicate_of_lt hi
  obtain ⟨-, r, hr, hvalid, haction⟩ := hanswers 64 (by decide) {} rfl
  refine ⟨results, t, hrun, ⟨r, hr, hvalid.mpr ?_, haction _ hdrop⟩, htable⟩
  rw [hdrop]
  rfl

end DpdkSpi
