import DpdkSpi.Flow.Verdict
import DpdkSpi.Pipeline.Effects

/-!
# Looking keys up in bulk

The keys of a burst are looked up in chunks of 64, and all keys of a chunk are resolved before
the first of them is stamped.  Stamping changes no verdict, so that this gives every key what
looking it up alone gives, and leaves the table that the single lookups leave.
-/

namespace DpdkSpi

open Lib

variable {cap : Nat}

/-- The entry of a bulk result for the answer of a lookup. -/
def BulkResult.ofAnswer : Option Action → BulkResult
  | none => {}
  | some action => { action, valid := true }

namespace FlowTable

/-- The table after looking up keys one by one. -/
def lookupAll (now : BitVec 64) (t : FlowTable cap) (keys : List FlowKey) : FlowTable cap :=
  keys.foldl (fun t key ↦ (t.lookup key now).2) t

theorem hash_lookup (t : FlowTable cap) (key : FlowKey) (now : BitVec 64) :
    (t.lookup key now).2.hash = t.hash := by
  unfold lookup
  split
  · rfl
  · dsimp only
    split <;> rfl

theorem answer_lookupAll (now : BitVec 64) (t : FlowTable cap) (keys : List FlowKey)
    (key : FlowKey) : (t.lookupAll now keys).answer key = t.answer key := by
  induction keys generalizing t with
  | nil => rfl
  | cons k keys ih =>
      rw [lookupAll, List.foldl_cons]
      exact (ih (t.lookup k now).2).trans (answer_lookup t k key now)

theorem hash_lookupAll (now : BitVec 64) (t : FlowTable cap) (keys : List FlowKey) :
    (t.lookupAll now keys).hash = t.hash := by
  induction keys generalizing t with
  | nil => rfl
  | cons k keys ih =>
      rw [lookupAll, List.foldl_cons]
      exact (ih (t.lookup k now).2).trans (hash_lookup t k now)

theorem lookupBulkLoop_eq (now : BitVec 64) {h : RteHash cap} (keys : List FlowKey)
    {t : FlowTable cap} (hh : t.hash = some h) :
    lookupBulkLoop now (keys.map h.lookup) (List.replicate keys.length {}) t =
      (keys.map fun key ↦ BulkResult.ofAnswer (t.answer key), t.lookupAll now keys) := by
  induction keys generalizing t with
  | nil => rfl
  | cons key keys ih =>
      have hanswer : t.answer key = (h.lookup key).bind fun i ↦ (t.data i).view := by
        rw [answer, cellOf, hh, Option.bind_some]
      have hrest := ih (t := (t.lookup key now).2) ((hash_lookup t key now).trans hh)
      simp only [answer_lookup] at hrest
      rw [List.map_cons, List.length_cons, List.replicate_succ, List.map_cons, hanswer, lookupAll,
        List.foldl_cons]
      cases hk : h.lookup key with
      | none =>
          have hstep : (t.lookup key now).2 = t := by
            simp [lookup, hh, hk]
          rw [hstep] at hrest ⊢
          simp only [lookupBulkLoop, hrest]
          rfl
      | some i =>
          by_cases hzero : (t.data i).actionAndCount = 0
          · have hstep : (t.lookup key now).2 = t := by
              simp [lookup, hh, hk, hzero]
            rw [hstep] at hrest ⊢
            simp only [lookupBulkLoop, hrest, if_pos hzero, Option.bind_some, FlowData.view]
            rfl
          · have hstep : (t.lookup key now).2 =
                t.store i { t.data i with lastSeenTsc := now } := by
              simp only [lookup, hh, Option.bind_some, hk]
              rw [if_neg hzero]
            rw [hstep] at hrest ⊢
            simp only [lookupBulkLoop, hrest, if_neg hzero, Option.bind_some, FlowData.view]
            rfl

theorem lookupBulk_eq (now : BitVec 64) (t : FlowTable cap) {keys : List FlowKey}
    (hlength : keys.length ≤ kMaxBulkKeys) :
    t.lookupBulk keys now (List.replicate keys.length {}) =
      (keys.map fun key ↦ BulkResult.ofAnswer (t.answer key), t.lookupAll now keys) := by
  unfold lookupBulk
  cases hh : t.hash with
  | none =>
      have hlookup : ∀ key, t.lookup key now = (none, t) := by
        intro key
        simp [lookup, hh]
      have hall : t.lookupAll now keys = t := by
        induction keys with
        | nil => rfl
        | cons key keys ih =>
            rw [lookupAll, List.foldl_cons, hlookup]
            exact ih (by rw [List.length_cons] at hlength; omega)
      have hresults : (List.replicate keys.length ({} : BulkResult)).mapIdx
          (fun i r ↦ if i < keys.length then {} else r) =
            keys.map fun key ↦ BulkResult.ofAnswer (t.answer key) := by
        refine List.ext_getElem (by simp) fun i hi hi' ↦ ?_
        simp [answer, cellOf, hh, BulkResult.ofAnswer]
      rw [hall, hresults]
  | some h =>
      rw [List.take_of_length_le hlength]
      exact lookupBulkLoop_eq now keys hh

end FlowTable

/-- **Bulk lookup is single lookups**, for any number of keys. -/
theorem bulkFlowLookup_eq (now : BitVec 64) {fuel : Nat} (t : FlowTable cap) {keys : List FlowKey}
    (hfuel : keys.length ≤ fuel) :
    bulkFlowLookup now fuel t keys (List.replicate keys.length {}) =
      (keys.map fun key ↦ BulkResult.ofAnswer (t.answer key), t.lookupAll now keys) := by
  induction fuel generalizing t keys with
  | zero =>
      obtain rfl := List.length_eq_zero_iff.mp (Nat.le_zero.mp hfuel)
      rfl
  | succ fuel ih =>
      cases keys with
      | nil => rfl
      | cons key keys =>
          have hchunk : ((key :: keys).take kBulkChunkMax).length ≤ FlowTable.kMaxBulkKeys := by
            rw [List.length_take]
            exact Nat.min_le_left _ _
          have hrest : ((key :: keys).drop kBulkChunkMax).length ≤ fuel := by
            have hpos : 0 < kBulkChunkMax := Nat.succ_pos 63
            rw [List.length_drop]
            omega
          rw [bulkFlowLookup, List.take_replicate, List.drop_replicate, ← List.length_take,
            ← List.length_drop, FlowTable.lookupBulk_eq now t hchunk, ih _ hrest]
          · simp only [FlowTable.answer_lookupAll]
            rw [← List.map_append, FlowTable.lookupAll, FlowTable.lookupAll, ← List.foldl_append,
              List.take_append_drop]
            rfl
          · exact fun h ↦ List.cons_ne_nil key keys h

/-- What the stages before `FinalizePackets` know: the key of every packet that parsed, and the
verdict the flow table held for it before the burst. -/
theorem openBurst_lookup {μ σ : Type} (ctx : WorkerContext) (svc : Services μ σ) (received : List μ)
    (st : BurstState cap μ σ) :
    (openBurst ctx svc received st).1.2.keys =
        (openBurst ctx svc received st).1.2.metadata.map makeCanonicalFromMetadata ∧
      (openBurst ctx svc received st).1.2.bulkResults =
        (openBurst ctx svc received st).1.2.keys.map
          (fun key ↦ BulkResult.ofAnswer (st.flowTable.answer key)) ∧
      (openBurst ctx svc received st).2.flowTable =
        st.flowTable.lookupAll ctx.currentBurstTsc (openBurst ctx svc received st).1.2.keys := by
  obtain ⟨-, counters, world, hst⟩ := parseReceivedPackets_frame ctx svc received 0
    (st.count fun c ↦ { c with received := c.received + received.length })
  refine ⟨rfl, ?_, ?_⟩ <;> simp only [openBurst] <;> rw [bulkFlowLookup_eq _ _ le_rfl, hst] <;> rfl

end DpdkSpi
