import DpdkSpi.Flow.Ownership

/-!
# Which flows a purge removes

A purge is *exact* when it removes the keys whose own cell has not been seen since
the threshold, and no other.  The scan judges a key by the cell that has the
number of the key's position, so a purge is exact when that cell and the key's
own cell are judged alike, for every live key (`purgeExact_iff`).
-/

namespace DpdkSpi.FlowTable

open Lib

variable {cap : Nat}

/-- A purge that is not cancelled keeps the keys whose own cell was seen at or after
`now - ttl`, and lookups of the kept keys answer as before. -/
def PurgeExact (t : FlowTable cap) (now ttl : BitVec 64) : Prop :=
  (∀ key, (∃ i, (t.purgeExpired now ttl fun _ ↦ false).cellOf key = some i) ↔
      ∃ i, t.cellOf key = some i ∧ now - ttl ≤ (t.data i).lastSeenTsc) ∧
    ∀ key, (∃ i, (t.purgeExpired now ttl fun _ ↦ false).cellOf key = some i) →
      ∀ tsc, ((t.purgeExpired now ttl fun _ ↦ false).lookup key tsc).1 = (t.lookup key tsc).1

/-- The cell with the number of the entry's position is one the scan takes for
expired. -/
def PositionStale (t : FlowTable cap) (threshold : BitVec 64)
    (e : SlotEntry FlowKey (Fin cap)) : Prop :=
  ∃ i : Fin cap, i.val = e.pos ∧ Stale t.data threshold i

instance (t : FlowTable cap) (threshold : BitVec 64) (e : SlotEntry FlowKey (Fin cap)) :
    Decidable (t.PositionStale threshold e) := inferInstanceAs (Decidable (∃ _, _))

/-- What a purge that runs to its end reclaims. -/
theorem mem_reclaimed {t : FlowTable cap} {now ttl : BitVec 64} (h : ttl < now) {i : Fin cap} :
    i ∈ t.reclaimed now ttl (fun _ ↦ false) ↔
      Stale t.data (now - ttl) i ∧ ∃ e ∈ t.live, e.pos = i := by
  have hle : ¬ now ≤ ttl := BitVec.not_le.mpr h
  cases hh : t.hash with
  | none => simp [reclaimed, live, hh]
  | some m =>
      simp only [reclaimed, live, hh, if_neg hle, mem_reclaimable,
        scanned_of_not_quit fun _ ↦ rfl, List.mem_finRange, true_and]

/-- A live entry survives a purge unless its position is stale. -/
theorem mem_live_purgeExpired {t : FlowTable cap} {now ttl : BitVec 64} (h : ttl < now)
    {e : SlotEntry FlowKey (Fin cap)} :
    e ∈ (t.purgeExpired now ttl fun _ ↦ false).live ↔
      e ∈ t.live ∧ ¬ t.PositionStale (now - ttl) e := by
  rw [live_purgeExpired, List.mem_filter]
  refine and_congr_right fun he ↦ ?_
  simp only [Bool.not_eq_true', decide_eq_false_iff_not, List.mem_map, PositionStale]
  refine not_congr ⟨?_, ?_⟩
  · rintro ⟨i, hi, hpos⟩
    exact ⟨i, hpos, ((mem_reclaimed h).mp hi).1⟩
  · rintro ⟨i, hpos, hst⟩
    exact ⟨i, (mem_reclaimed h).mpr ⟨hst, e, he, hpos.symm⟩, hpos⟩

theorem cellOf_purgeExpired {t : FlowTable cap} {now ttl : BitVec 64} (h : ttl < now)
    {key : FlowKey} {i : Fin cap} :
    (t.purgeExpired now ttl fun _ ↦ false).cellOf key = some i ↔
      ∃ e ∈ t.live, e.key = key ∧ e.data = i ∧ ¬ t.PositionStale (now - ttl) e := by
  rw [cellOf_eq_some_iff]
  constructor
  · rintro ⟨e, he, hk, hd⟩
    obtain ⟨he, hst⟩ := (mem_live_purgeExpired h).mp he
    exact ⟨e, he, hk, hd, hst⟩
  · rintro ⟨e, he, hk, hd, hst⟩
    exact ⟨e, (mem_live_purgeExpired h).mpr ⟨he, hst⟩, hk, hd⟩

/-- A cell that a purge clears is one the scan took for expired. -/
theorem data_purgeExpired {t : FlowTable cap} {now ttl : BitVec 64} (h : ttl < now) {i : Fin cap}
    (hst : ¬ Stale t.data (now - ttl) i) :
    (t.purgeExpired now ttl fun _ ↦ false).data i = t.data i := by
  rw [purgeExpired_eq]
  exact if_neg fun hi ↦ hst ((mem_reclaimed h).mp hi).1

/-- The scan judges every live key of an exactly purged table as its own cell is
judged. -/
theorem PurgeExact.positionStale_iff {t : FlowTable cap} {now ttl : BitVec 64} (h : ttl < now)
    (hexact : t.PurgeExact now ttl) {e : SlotEntry FlowKey (Fin cap)} (he : e ∈ t.live) :
    t.PositionStale (now - ttl) e ↔ (t.data e.data).lastSeenTsc < now - ttl := by
  have hkey := hexact.1 e.key
  have hafter : (∃ i, (t.purgeExpired now ttl fun _ ↦ false).cellOf e.key = some i) ↔
      ¬ t.PositionStale (now - ttl) e := by
    simp only [cellOf_purgeExpired h]
    constructor
    · rintro ⟨i, e', he', hk, -, hst⟩
      rwa [← live_eq_of_key_eq he' he hk]
    · intro hst
      exact ⟨e.data, e, he, rfl, rfl, hst⟩
  have hbefore : (∃ i, t.cellOf e.key = some i ∧ now - ttl ≤ (t.data i).lastSeenTsc) ↔
      ¬ (t.data e.data).lastSeenTsc < now - ttl := by
    rw [cellOf_eq_some_iff.mpr ⟨e, he, rfl, rfl⟩, BitVec.not_lt]
    simp
  rw [hafter, hbefore] at hkey
  exact not_iff_not.mp hkey

/-- **When a purge is exact.**  For every live key, the cell that has the number of
the key's position is stale exactly when the key's own cell is too old. -/
theorem purgeExact_iff (t : FlowTable cap) {now ttl : BitVec 64} (h : ttl < now) :
    t.PurgeExact now ttl ↔ ∀ e ∈ t.live,
      t.PositionStale (now - ttl) e ↔ (t.data e.data).lastSeenTsc < now - ttl := by
  refine ⟨fun hexact e he ↦ hexact.positionStale_iff h he, fun hal ↦ ⟨fun key ↦ ?_, ?_⟩⟩
  · constructor
    · rintro ⟨i, hi⟩
      obtain ⟨e, he, hk, hd, hst⟩ := (cellOf_purgeExpired h).mp hi
      refine ⟨i, cellOf_eq_some_iff.mpr ⟨e, he, hk, hd⟩, ?_⟩
      rw [← hd, ← BitVec.not_lt, ← hal e he]
      exact hst
    · rintro ⟨i, hi, hage⟩
      obtain ⟨e, he, hk, hd⟩ := cellOf_eq_some_iff.mp hi
      refine ⟨i, (cellOf_purgeExpired h).mpr ⟨e, he, hk, hd, ?_⟩⟩
      rw [hal e he, hd, BitVec.not_lt]
      exact hage
  · rintro key ⟨i, hi⟩ tsc
    obtain ⟨e, he, hk, hd, hst⟩ := (cellOf_purgeExpired h).mp hi
    have hcell := cellOf_eq_some_iff.mpr ⟨e, he, hk, hd⟩
    -- a surviving key's own cell is too young to be cleared
    have hyoung : ¬ Stale t.data (now - ttl) i := by
      rw [hal e he, hd] at hst
      exact fun hs ↦ hst hs.2
    rw [lookup_fst, lookup_fst, answer, answer, hi, hcell, Option.bind_some, Option.bind_some,
      data_purgeExpired h hyoung]

/-- A flow whose cell and position have the same number is purged when it should be. -/
theorem purgeExact_one_flow :
    (100 : BitVec 64) < 150 ∧
      ((new 8 true).apply (.insert {} 1 .kDrop 10 (some 7))).PurgeExact 150 100 :=
  ⟨by decide, (purgeExact_iff _ (by decide)).mpr (by decide)⟩

/-- In the reachable table with crossed flows the purge removes the flow it should
keep. -/
theorem crossed_not_purgeExact :
    (runs 8).Reach crossed ∧ (100 : BitVec 64) < 150 ∧ ¬ crossed.PurgeExact 150 100 := by
  refine ⟨reach_crossed, by decide, fun hexact ↦ ?_⟩
  have hnewer := hexact.positionStale_iff (by decide) (e := ⟨newerKey, 7, 6⟩) (by decide)
  revert hnewer
  decide

end DpdkSpi.FlowTable
