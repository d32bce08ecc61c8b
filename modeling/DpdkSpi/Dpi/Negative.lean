import DpdkSpi.Dpi.Cached

/-!
# Hostnames without a match

`MatchDpi` stores in the cache that a hostname matches nothing, so that the search is not done
again.  But what it stores is the index that `Lookup` also returns for a hostname it does not find,
so that the entry is never taken for one (`negative_never_served`).
-/

namespace DpdkSpi

namespace DpiWorker

variable {hs : Hyperscan} {s s' : DpiWorker} {hostname : List (BitVec 8)}
  {t : DpiRuleTable DpiRules}

/-- A call stores that its hostname matches nothing: the cache does not find it, the active table
does not match it, and one of its slots takes it. -/
structure StoresNoMatch (hs : Hyperscan) (s : DpiWorker) (hostname : List (BitVec 8))
    (t : DpiRuleTable DpiRules) : Prop where
  active : s.manager.active = some t
  unknown : s.cache.lookup hostname t.generation = kNoMatchIdx
  unmatched : (t.rules.matchThread hs hostname s.tlScratch).1.matched = false
  takes : (s.cache.insertSlot hostname).isSome = true
  hash_ne_zero : hash32 hostname ≠ 0

/-- A call is served from the cache: it counts as a hit, and `Match` is not called, which would
count as a miss. -/
def ServedFromCache (hs : Hyperscan) (s : DpiWorker) (hostname : List (BitVec 8)) : Prop :=
  (s.matchDpi hs hostname).2.dpiCacheHits = s.dpiCacheHits + 1 ∧
    (s.matchDpi hs hostname).2.dpiCacheMisses = s.dpiCacheMisses

/-- A call leaves the tables alone. -/
theorem manager_matchDpi (hs : Hyperscan) (s : DpiWorker) (hostname : List (BitVec 8)) :
    (s.matchDpi hs hostname).2.manager = s.manager := by
  unfold matchDpi
  split
  · rfl
  · dsimp only
    split
    · split
      · rfl
      · rfl
    · split
      · rfl
      · rfl

/-- What is behind a call for a hostname that the cache does not find. -/
theorem matchDpi_of_unknown (hactive : s.manager.active = some t)
    (hunknown : s.cache.lookup hostname t.generation = kNoMatchIdx) :
    (s.matchDpi hs hostname).2.dpiCacheHits = s.dpiCacheHits ∧
      (s.matchDpi hs hostname).2.dpiCacheMisses = s.dpiCacheMisses + 1 := by
  unfold matchDpi
  rw [hactive]
  dsimp only
  rw [if_neg (not_not_intro hunknown)]
  split
  · exact ⟨rfl, rfl⟩
  · exact ⟨rfl, rfl⟩

/-- The cache behind a call that stores no match. -/
theorem StoresNoMatch.cache_eq (h : s.StoresNoMatch hs hostname t) :
    (s.matchDpi hs hostname).2.cache = s.cache.insert hostname kNoMatchIdx t.generation := by
  unfold matchDpi
  rw [h.active]
  dsimp only
  rw [if_neg (not_not_intro h.unknown), h.unmatched, if_neg Bool.false_ne_true]

theorem StoresNoMatch.active_next (h : s.StoresNoMatch hs hostname t) :
    (s.matchDpi hs hostname).2.manager.active = some t := by
  rw [manager_matchDpi]
  exact h.active

/-- The entry that was stored is not found. -/
theorem StoresNoMatch.lookup_eq (h : s.StoresNoMatch hs hostname t)
    (hcache : s'.cache = (s.matchDpi hs hostname).2.cache) :
    s'.cache.lookup hostname t.generation = kNoMatchIdx := by
  obtain ⟨slot, hslot⟩ := Option.isSome_iff_exists.mp h.takes
  rw [hcache, h.cache_eq, HostnameCache.lookup_insert_self hslot h.hash_ne_zero]

theorem not_servedFromCache (hactive : s.manager.active = some t)
    (hunknown : s.cache.lookup hostname t.generation = kNoMatchIdx) :
    ¬ s.ServedFromCache hs hostname := by
  rintro ⟨hhits, -⟩
  rw [(matchDpi_of_unknown hactive hunknown).1] at hhits
  exact Nat.succ_ne_self _ hhits.symm

/-- **A result without a match is never served from the cache**: whatever the worker has done since
it was stored, as long as the table is active and nothing has been inserted, the next call counts
as a miss and matches again. -/
theorem negative_never_served (h : s.StoresNoMatch hs hostname t)
    (hactive : s'.manager.active = some t)
    (hcache : s'.cache = (s.matchDpi hs hostname).2.cache) :
    ¬ s'.ServedFromCache hs hostname ∧
      (s'.matchDpi hs hostname).2.dpiCacheHits = s'.dpiCacheHits ∧
      (s'.matchDpi hs hostname).2.dpiCacheMisses = s'.dpiCacheMisses + 1 :=
  ⟨not_servedFromCache hactive (h.lookup_eq hcache),
    matchDpi_of_unknown hactive (h.lookup_eq hcache)⟩

/-- A worker with a table that matches nothing. -/
def emptyTableWorker : DpiWorker := start (some ⟨{}, by decide⟩)

theorem emptyTableWorker_storesNoMatch : ∃ t,
    emptyTableWorker.StoresNoMatch (.reportingFirst 0) (hostBytes ['a', '.', 'c', 'o']) t := by
  refine ⟨_, rfl, ?_, rfl, ?_, ?_⟩ <;> decide +kernel

theorem negative_never_served_twice :
    ¬ (emptyTableWorker.matchDpi (.reportingFirst 0)
      (hostBytes ['a', '.', 'c', 'o'])).2.ServedFromCache (.reportingFirst 0)
        (hostBytes ['a', '.', 'c', 'o']) := by
  obtain ⟨t, h⟩ := emptyTableWorker_storesNoMatch
  exact (negative_never_served h h.active_next rfl).1

/-- The second call for `a.co` searches the table again. -/
theorem second_search_for_unmatched : ∃ t,
    emptyTableWorker.StoresNoMatch (.reportingFirst 0) (hostBytes ['a', '.', 'c', 'o']) t ∧
      ¬ (emptyTableWorker.matchDpi (.reportingFirst 0)
        (hostBytes ['a', '.', 'c', 'o'])).2.ServedFromCache (.reportingFirst 0)
          (hostBytes ['a', '.', 'c', 'o']) := by
  obtain ⟨t, h⟩ := emptyTableWorker_storesNoMatch
  exact ⟨t, h, not_servedFromCache h.active_next (h.lookup_eq rfl)⟩

end DpiWorker

end DpdkSpi
