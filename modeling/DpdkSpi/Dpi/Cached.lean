import DpdkSpi.Dpi.Generations
import DpdkSpi.Pipeline.Context

/-!
# Matching through the cache

`MatchDpi`, after `spi_pipeline.cpp`: a hostname is looked up in the cache of the worker under
the generation of the active table, and matched and cached when it is not found.  As long as
the hostnames have different hashes, the answer is the one that the active table gives
(`cache_transparent`): a slot with a hash belongs to one hostname, and what it holds under the
active generation is what a match would return.
-/

namespace DpdkSpi

open Lib

/-! ## The worker -/

/-- What a worker matches hostnames with. -/
structure DpiWorker where
  manager : DpiRuleTableManager DpiRules
  cache : HostnameCache := {}
  tlScratch : Option HsScratch := none
  dpiCacheHits : Nat := 0
  dpiCacheMisses : Nat := 0

/-- The answer for a filter that matched. -/
def DpiResult.asMatch (r : DpiResult) : DpiMatch where
  filterGroup := r.filterGroup
  label := r.label
  priority := r.priority

/-- What a result says, with no match for one that is not matched. -/
def DpiResult.toMatch (r : DpiResult) : Option DpiMatch :=
  if r.matched then some r.asMatch else none

/-- The comparison of the linear search. -/
def DpiResult.sameFilter (probe r : DpiResult) : Bool :=
  probe.filterGroup = r.filterGroup && probe.label = r.label && probe.priority = r.priority

theorem DpiResult.toMatch_eq {r r' : DpiResult} (h : r.matched = true) (h' : r'.matched = true)
    (hsame : r.sameFilter r' = true) : r.toMatch = r'.toMatch := by
  simp only [sameFilter, Bool.and_eq_true, decide_eq_true_eq] at hsame
  rw [toMatch, toMatch, if_pos h, if_pos h', asMatch, asMatch, hsame.1.1, hsame.1.2, hsame.2]

/-- The linear search of `MatchDpi` for the filter of a result, over some positions. -/
def DpiRules.indexOf (t : DpiRules) (r : DpiResult) : List Nat → BitVec 16 → BitVec 16
  | [], idx => idx
  | i :: is, _ =>
      let idx := BitVec.ofNat 16 i
      if (t.resultAt idx).sameFilter r then idx else t.indexOf r is idx

namespace DpiWorker

/-- `MatchDpi` for a hostname. -/
def matchDpi (hs : Hyperscan) (s : DpiWorker) (hostname : List (BitVec 8)) :
    Option DpiMatch × DpiWorker :=
  match s.manager.active with
  | none => (none, s)
  | some t =>
      let filterCount := t.rules.filters.length
      let cachedIdx := s.cache.lookup hostname t.generation
      if cachedIdx ≠ kNoMatchIdx then
        let s := { s with dpiCacheHits := s.dpiCacheHits + 1 }
        if cachedIdx.toNat < filterCount then (some (t.rules.resultAt cachedIdx).asMatch, s)
        else (none, s)
      else
        let m := t.rules.matchThread hs hostname s.tlScratch
        let s := { s with dpiCacheMisses := s.dpiCacheMisses + 1, tlScratch := m.2 }
        if m.1.matched then
          let idx := t.rules.indexOf m.1 (List.range filterCount) 0
          (some m.1.asMatch, { s with cache := s.cache.insert hostname idx t.generation })
        else (none, { s with cache := s.cache.insert hostname kNoMatchIdx t.generation })

/-- A table whose indices fit beside the mark of no match. -/
structure SmallRules where
  rules : DpiRules
  length_le : rules.filters.length ≤ 65535

/-- What can happen. -/
inductive Action where
  | swap (newTable : SmallRules)
  | call (hostname : List (BitVec 8))

/-- The action is a swap. -/
def Action.isSwap : Action → Bool
  | .swap _ => true
  | .call _ => false

/-- The hostname of a call. -/
def Action.hostname? : Action → Option (List (BitVec 8))
  | .swap _ => none
  | .call hostname => some hostname

/-- After `Init`. -/
def start (table : Option SmallRules) : DpiWorker where
  manager := .start (table.map SmallRules.rules)

/-- One action. -/
def step (hs : Hyperscan) (s : DpiWorker) : Action → DpiWorker
  | .swap newTable => { s with manager := s.manager.swap (some newTable.rules) }
  | .call hostname => (s.matchDpi hs hostname).2

/-- A call answers as a match against the active table does. -/
def Transparent (hs : Hyperscan) (s : DpiWorker) : Action → Prop
  | .swap _ => True
  | .call hostname => ∀ t, s.manager.active = some t →
      (s.matchDpi hs hostname).1 = (t.rules.matchThread hs hostname s.tlScratch).1.toMatch

end DpiWorker

/-! ## Matches and indices -/

namespace DpiRules

variable {t : DpiRules} {hs : Hyperscan}

/-- A match does not depend on the matches before it on the same table. -/
theorem matchThread_stable (h h' : List (BitVec 8)) (tl : Option HsScratch) :
    (t.matchThread hs h (t.matchThread hs h' tl).2).1 = (t.matchThread hs h tl).1 := by
  by_cases hempty : h' = []
  · subst hempty
    rfl
  cases hdb : t.hsDb with
  | none => simp only [matchThread, hdb, if_neg hempty]
  | some db =>
      cases tl with
      | some scratch => simp only [matchThread, hdb, if_neg hempty]
      | none =>
          cases halloc : hs.allocScratch db with
          | none => simp only [matchThread, hdb, if_neg hempty, halloc]
          | some scratch =>
              have hkept : (t.matchThread hs h' none).2 = some scratch := by
                simp only [matchThread, hdb, if_neg hempty, halloc]
              rw [hkept]
              simp only [matchThread, hdb, halloc]
              split
              · rfl
              · rfl

/-- An index of the table is the index of a match. -/
theorem toMatch_resultAt {idx : BitVec 16} (h : idx.toNat < t.filters.length) :
    (t.resultAt idx).toMatch = some (t.resultAt idx).asMatch := by
  have hresult : t.resultAt idx = resultOf t.filters[idx.toNat] := by
    rw [resultAt, List.getElem?_eq_getElem h]
    rfl
  rw [hresult]
  rfl

/-- The result is that of a filter of the table, if it is one. -/
def Owns (t : DpiRules) (r : DpiResult) : Prop := r.matched = true → ∃ f ∈ t.filters, r = resultOf f

theorem owns_empty : t.Owns {} := fun h ↦ by cases h

theorem owns_elim (f : Option CompiledDpiFilter) (h : ∀ g, f = some g → g ∈ t.filters) :
    t.Owns (f.elim {} resultOf) := by
  cases f with
  | none => exact owns_empty
  | some g => exact fun _ ↦ ⟨g, h g rfl, rfl⟩

theorem owns_resultAt (idx : BitVec 16) : t.Owns (t.resultAt idx) :=
  owns_elim _ fun _ hg ↦ List.mem_of_getElem? hg

theorem owns_matchFallback (h : List (BitVec 8)) : t.Owns (t.matchFallback h) := by
  unfold matchFallback
  split
  · exact owns_empty
  · split
    · exact owns_resultAt _
    · split
      · exact owns_resultAt _
      · split
        · exact owns_resultAt _
        · exact owns_empty

theorem owns_matchScratch (h : List (BitVec 8)) (scratch : Option HsScratch) :
    t.Owns (t.matchScratch hs h scratch) := by
  unfold matchScratch
  split
  · exact owns_empty
  · split
    · split
      · refine owns_elim _ fun g hg ↦ ?_
        obtain ⟨i, -, hi⟩ := Option.bind_eq_some_iff.mp hg
        exact List.mem_of_getElem? hi
      · exact owns_empty
    · exact owns_matchFallback h

/-- **A match is that of a filter of the table.** -/
theorem owns_matchThread (h : List (BitVec 8)) (tl : Option HsScratch) :
    t.Owns (t.matchThread hs h tl).1 := by
  unfold matchThread
  split
  · exact owns_empty
  · split
    · exact owns_matchFallback h
    · split
      · exact owns_matchScratch h _
      · split
        · exact owns_matchFallback h
        · exact owns_matchScratch h _

/-- The linear search stops at a filter of the result, when there is one. -/
theorem indexOf_spec {r : DpiResult} {is : List Nat}
    (h : ∃ i ∈ is, (t.resultAt (BitVec.ofNat 16 i)).sameFilter r = true) (idx : BitVec 16) :
    ∃ i ∈ is, t.indexOf r is idx = BitVec.ofNat 16 i ∧
      (t.resultAt (BitVec.ofNat 16 i)).sameFilter r = true := by
  induction is generalizing idx with
  | nil =>
      obtain ⟨i, hi, -⟩ := h
      cases hi
  | cons i is ih =>
      rw [indexOf]
      by_cases hsame : (t.resultAt (BitVec.ofNat 16 i)).sameFilter r = true
      · exact ⟨i, List.mem_cons_self, if_pos hsame, hsame⟩
      · rw [if_neg hsame]
        obtain ⟨j, hj, hjsame⟩ := h
        have hrest : ∃ i ∈ is, (t.resultAt (BitVec.ofNat 16 i)).sameFilter r = true := by
          rcases List.mem_cons.mp hj with rfl | hj
          · exact absurd hjsame hsame
          · exact ⟨j, hj, hjsame⟩
        obtain ⟨k, hk, hidx, hksame⟩ := ih hrest (BitVec.ofNat 16 i)
        exact ⟨k, List.mem_cons_of_mem _ hk, hidx, hksame⟩

/-- **The index that is cached for a match** is one of the table, and answers the same. -/
theorem indexOf_range (hlen : t.filters.length ≤ 65535) {r : DpiResult} (howns : t.Owns r)
    (hmatched : r.matched = true) :
    (t.indexOf r (List.range t.filters.length) 0).toNat < t.filters.length ∧
      (t.resultAt (t.indexOf r (List.range t.filters.length) 0)).toMatch = r.toMatch := by
  have hresult : ∀ i, (hi : i < t.filters.length) →
      t.resultAt (BitVec.ofNat 16 i) = resultOf t.filters[i] := by
    intro i hi
    rw [resultAt, BitVec.toNat_ofNat, Nat.mod_eq_of_lt (by omega), List.getElem?_eq_getElem hi]
    rfl
  obtain ⟨f, hf, rfl⟩ := howns hmatched
  obtain ⟨i, hi, rfl⟩ := List.getElem_of_mem hf
  have hexists : ∃ j ∈ List.range t.filters.length,
      (t.resultAt (BitVec.ofNat 16 j)).sameFilter (resultOf t.filters[i]) = true := by
    refine ⟨i, List.mem_range.mpr hi, ?_⟩
    rw [hresult i hi]
    simp [DpiResult.sameFilter]
  obtain ⟨j, hj, hidx, hsame⟩ := indexOf_spec hexists 0
  rw [List.mem_range] at hj
  rw [hidx, hresult j hj] at *
  refine ⟨?_, ?_⟩
  · rw [BitVec.toNat_ofNat, Nat.mod_eq_of_lt (by omega)]
    exact hj
  · exact DpiResult.toMatch_eq rfl rfl hsame

end DpiRules

/-! ## What the cache holds -/

namespace DpiWorker

variable {hs : Hyperscan} {names : List (List (BitVec 8))}

/-- An entry is empty, or it is for one of the hostnames: it is not newer than the active table,
and an index of that table is what a match would give. -/
def EntryRight (hs : Hyperscan) (names : List (List (BitVec 8))) (t : DpiRuleTable DpiRules)
    (tl : Option HsScratch) (e : CacheEntry) : Prop :=
  e.hash = 0 ∨ ∃ h ∈ names, e.hash = hash32 h ∧ e.generation.toNat ≤ t.generation.toNat ∧
    (e.generation = t.generation → e.filterIndex ≠ kNoMatchIdx →
      e.filterIndex.toNat < t.rules.filters.length ∧
        (t.rules.resultAt e.filterIndex).toMatch = (t.rules.matchThread hs h tl).1.toMatch)

/-- What holds after a number of swaps. -/
structure Consistent (hs : Hyperscan) (names : List (List (BitVec 8))) (n : Nat) (s : DpiWorker) :
    Prop where
  small : ∀ t, s.manager.active = some t → t.rules.filters.length ≤ 65535
  bounded : ∀ t, s.manager.active = some t → t.generation.toNat ≤ n
  /-- Without a table nothing has been cached. -/
  fresh : s.manager.active = none → ∀ i, (s.cache.slots i).hash = 0
  entries : ∀ t, s.manager.active = some t → ∀ i,
    EntryRight hs names t s.tlScratch (s.cache.slots i)

theorem consistent_start (hs : Hyperscan) (names : List (List (BitVec 8)))
    (table : Option SmallRules) : Consistent hs names 0 (start table) where
  small t ht := by
    cases table with
    | none => cases ht
    | some rules =>
        cases ht
        exact rules.length_le
  bounded t ht := by
    cases table with
    | none => cases ht
    | some rules =>
        cases ht
        exact Nat.le_refl 0
  fresh _ _ := rfl
  entries _ _ _ := .inl rfl

/-- A swap makes everything that is cached old. -/
theorem Consistent.swap {n : Nat} {s : DpiWorker} (h : Consistent hs names n s)
    (newTable : SmallRules) (hbound : n + 1 < 2 ^ 32) :
    Consistent hs names (n + 1) (s.step hs (.swap newTable)) := by
  cases hactive : s.manager.active with
  | none =>
      have hgen : s.manager.nextGen = 1 := by rw [DpiRuleTableManager.nextGen, hactive]
      refine ⟨fun t ht ↦ ?_, fun t ht ↦ ?_, fun hnone ↦ (by cases hnone), fun t ht i ↦ ?_⟩
      · cases ht
        exact newTable.length_le
      · cases ht
        dsimp only
        rw [hgen]
        exact Nat.le_add_left 1 n
      · exact .inl (h.fresh hactive i)
  | some old =>
      have hle := h.bounded old hactive
      have hgen : s.manager.nextGen.toNat = old.generation.toNat + 1 := by
        rw [DpiRuleTableManager.nextGen, hactive]
        dsimp only
        rw [BitVec.toNat_add]
        exact Nat.mod_eq_of_lt (by change old.generation.toNat + 1 < 2 ^ 32; omega)
      refine ⟨fun t ht ↦ ?_, fun t ht ↦ ?_, fun hnone ↦ (by cases hnone), fun t ht i ↦ ?_⟩
      · cases ht
        exact newTable.length_le
      · cases ht
        dsimp only
        omega
      · cases ht
        refine (h.entries old hactive i).imp_right ?_
        rintro ⟨name, hname, hhash, hold, -⟩
        refine ⟨name, hname, hhash, ?_, fun hsame ↦ ?_⟩
        · change (s.cache.slots i).generation.toNat ≤ s.manager.nextGen.toNat
          omega
        · have hsame' := congrArg BitVec.toNat hsame
          dsimp only at hsame'
          change (s.cache.slots i).generation.toNat = _ at hsame'
          omega

/-- What is found under the active generation is right. -/
theorem Consistent.lookup {n : Nat} {s : DpiWorker} (h : Consistent hs names n s)
    (hinj : ∀ a ∈ names, ∀ b ∈ names, hash32 a = hash32 b → a = b) {hostname : List (BitVec 8)}
    (hmem : hostname ∈ names) {t : DpiRuleTable DpiRules} (ht : s.manager.active = some t)
    (hfound : s.cache.lookup hostname t.generation ≠ kNoMatchIdx) :
    (s.cache.lookup hostname t.generation).toNat < t.rules.filters.length ∧
      (t.rules.resultAt (s.cache.lookup hostname t.generation)).toMatch =
        (t.rules.matchThread hs hostname s.tlScratch).1.toMatch := by
  obtain ⟨slot, hslot⟩ := TaggedCache.exists_lookupSlot hfound
  have hidx : s.cache.lookup hostname t.generation = (s.cache.slots slot).filterIndex := by
    rw [HostnameCache.lookup, hslot]
    rfl
  obtain ⟨hne, hhash, hgen, -⟩ :=
    CacheEntry.answers_iff.mp (HostnameCache.answers_of_lookupSlot hslot)
  obtain ⟨name, hname, hhash', -, hright⟩ := (h.entries t ht slot).resolve_left hne
  obtain rfl := hinj name hname hostname hmem (hhash'.symm.trans hhash)
  rw [hidx] at hfound ⊢
  exact hright hgen hfound

/-- An insertion of what a match gives. -/
theorem Consistent.insert {n : Nat} {s s' : DpiWorker} (h : Consistent hs names n s)
    {t : DpiRuleTable DpiRules} (ht : s.manager.active = some t) {hostname : List (BitVec 8)}
    (hmem : hostname ∈ names) {idx : BitVec 16}
    (hright : idx ≠ kNoMatchIdx → idx.toNat < t.rules.filters.length ∧
      (t.rules.resultAt idx).toMatch = (t.rules.matchThread hs hostname s.tlScratch).1.toMatch)
    (hmanager : s'.manager = s.manager)
    (hscratch : s'.tlScratch = (t.rules.matchThread hs hostname s.tlScratch).2)
    (hcache : s'.cache = s.cache.insert hostname idx t.generation) :
    Consistent hs names n s' := by
  refine ⟨?_, ?_, ?_, ?_⟩
  · rw [hmanager]
    exact h.small
  · rw [hmanager]
    exact h.bounded
  · rw [hmanager, ht]
    intro hnone
    cases hnone
  · rw [hmanager, hscratch, hcache]
    intro t' ht' i
    cases ht.symm.trans ht'
    have hkept : EntryRight hs names t (t.rules.matchThread hs hostname s.tlScratch).2
        (s.cache.slots i) := by
      refine (h.entries t ht i).imp_right ?_
      rintro ⟨name, hname, hhash, hgen, hindex⟩
      refine ⟨name, hname, hhash, hgen, ?_⟩
      rw [DpiRules.matchThread_stable]
      exact hindex
    unfold HostnameCache.insert
    cases hslot : s.cache.insertSlot hostname with
    | none => exact hkept
    | some slot =>
        dsimp only
        by_cases hi : i = slot
        · subst hi
          rw [Function.update_self]
          obtain ⟨hhash, hidx, hgen, -⟩ := CacheEntry.written_spec
            (HostnameCache.takes_of_insertSlot hslot) idx t.generation
          refine .inr ⟨hostname, hmem, hhash, ?_, fun _ ↦ ?_⟩
          · rw [hgen]
          · rw [hidx, DpiRules.matchThread_stable]
            exact hright
        · rw [Function.update_of_ne hi]
          exact hkept

/-- A call answers right, and keeps what the cache holds. -/
theorem Consistent.call {n : Nat} {s : DpiWorker} (h : Consistent hs names n s)
    (hinj : ∀ a ∈ names, ∀ b ∈ names, hash32 a = hash32 b → a = b) {hostname : List (BitVec 8)}
    (hmem : hostname ∈ names) :
    Transparent hs s (.call hostname) ∧ Consistent hs names n (s.step hs (.call hostname)) := by
  unfold Transparent step matchDpi
  cases ht : s.manager.active with
  | none =>
      refine ⟨fun t ht' ↦ ?_, h⟩
      cases ht'
  | some t =>
      dsimp only
      by_cases hfound : s.cache.lookup hostname t.generation ≠ kNoMatchIdx
      · obtain ⟨hlt, hanswer⟩ := h.lookup hinj hmem ht hfound
        rw [if_pos hfound, if_pos hlt]
        refine ⟨fun t' ht' ↦ ?_, h.small, h.bounded, h.fresh, h.entries⟩
        cases ht'
        rw [← hanswer, DpiRules.toMatch_resultAt hlt]
      · rw [if_neg hfound]
        by_cases hmatched : (t.rules.matchThread hs hostname s.tlScratch).1.matched = true
        · rw [if_pos hmatched]
          refine ⟨fun t' ht' ↦ ?_, ?_⟩
          · cases ht'
            rw [DpiResult.toMatch, if_pos hmatched]
          · refine h.insert ht hmem (fun _ ↦ ?_) rfl rfl rfl
            exact DpiRules.indexOf_range (h.small t ht) (DpiRules.owns_matchThread _ _) hmatched
        · rw [if_neg hmatched]
          refine ⟨fun t' ht' ↦ ?_, ?_⟩
          · cases ht'
            rw [DpiResult.toMatch, if_neg hmatched]
          · exact h.insert ht hmem (fun hne ↦ absurd rfl hne) rfl rfl rfl

/-- The calls from a state on. -/
theorem Consistent.transparent {n : Nat} {s : DpiWorker} (h : Consistent hs names n s)
    (hinj : ∀ a ∈ names, ∀ b ∈ names, hash32 a = hash32 b → a = b) (actions : List Action)
    (hnames : ∀ a ∈ actions, ∀ name, a.hostname? = some name → name ∈ names)
    (hbound : n + actions.countP Action.isSwap < 2 ^ 32) :
    System.Meets (Transparent hs) (step hs) s actions := by
  induction actions generalizing s n with
  | nil => trivial
  | cons a actions ih =>
      obtain ⟨hname, hrest⟩ := List.forall_mem_cons.mp hnames
      rw [List.countP_cons] at hbound
      cases a with
      | swap newTable =>
          have hone : n + 1 + actions.countP Action.isSwap < 2 ^ 32 := by
            have hswap : (Action.swap newTable).isSwap = true := rfl
            rw [hswap] at hbound
            simp only [if_true] at hbound
            omega
          exact ⟨trivial, ih (h.swap newTable (by omega)) hrest hone⟩
      | call hostname =>
          obtain ⟨hnow, hnext⟩ := h.call hinj (hname hostname rfl)
          exact ⟨hnow, ih hnext hrest (by omega)⟩

/-- **The hostname cache is transparent**: over hostnames with different hashes, every call
answers as a match against the active table would. -/
theorem cache_transparent (hs : Hyperscan) (table : Option SmallRules) (actions : List Action)
    (hfew : actions.countP Action.isSwap < 2 ^ 32)
    (hdistinct : ∀ a ∈ actions.filterMap Action.hostname?,
      ∀ b ∈ actions.filterMap Action.hostname?, hash32 a = hash32 b → a = b) :
    System.Meets (Transparent hs) (step hs) (start table) actions := by
  refine (consistent_start hs (actions.filterMap Action.hostname?) table).transparent hdistinct
    actions (fun a ha name hname ↦ List.mem_filterMap.mpr ⟨a, ha, hname⟩) ?_
  rw [Nat.zero_add]
  exact hfew

/-- A hostname before and after a swap, and another one. -/
theorem cache_transparent_swapped : ∃ t,
    compileDpiRuleTable (.reportingFirst 0) plainSorts socialConfig = .ok t ∧
      ∃ hsmall : t.filters.length ≤ 65535,
        System.Meets (Transparent (.reportingFirst 0)) (step (.reportingFirst 0))
          (start (some ⟨t, hsmall⟩))
          [.call (hostBytes ['a']), .call (hostBytes ['a']), .swap ⟨{}, by decide⟩,
            .call (hostBytes ['a']), .call (hostBytes ['b'])] := by
  obtain ⟨t, ht⟩ := compile_social 0 plainSorts
  have hlength : t.filters.length = 2 := by
    rw [filters_of_compile ht, SortBy.length_sort, registered, SortBy.length_sort]
    rfl
  refine ⟨t, ht, by omega, cache_transparent _ _ _ ?_ ?_⟩
  · exact (by decide : 1 < 2 ^ 32)
  · exact (by decide : ∀ a ∈ [hostBytes ['a'], hostBytes ['a'], hostBytes ['a'], hostBytes ['b']],
      ∀ b ∈ [hostBytes ['a'], hostBytes ['a'], hostBytes ['a'], hostBytes ['b']],
        hash32 a = hash32 b → a = b)

end DpiWorker

end DpdkSpi
