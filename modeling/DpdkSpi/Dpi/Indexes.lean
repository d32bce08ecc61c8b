import DpdkSpi.Dpi.Fallback

/-!
# Maps and lists of the fallback

`MatchFallback` looks into its maps when there are more than 16 keys and scans its lists
otherwise.  For exact matches the two always agree.  The list of suffix matches is sorted by
domain alone, so that filters of one domain are in any order there, while the map holds the
first one in the order of priority: the two agree, whatever the sort does, exactly when no
filters of the domain have different results (`indexesAgree_iff`).
-/

namespace DpdkSpi

open Lib

namespace DpiRules

/-- The index of the exact match, from the map or from the list. -/
def exactIndexBy (t : DpiRules) (byMap : Bool) (hostname : List (BitVec 8)) : Option (BitVec 16) :=
  if byMap then t.exactMap.lookup hostname
  else (t.exactList.find? fun e ↦ hostname = e.1).map Prod.snd

/-- The index of the suffix match, from the map or from the list. -/
def suffixIndexBy (t : DpiRules) (byMap : Bool) (hostname : List (BitVec 8)) :
    Option (BitVec 16) :=
  let domain := extractDomainKey hostname
  if domain = [] then none
  else if byMap then t.suffixMap.lookup domain
  else findSuffix domain t.suffixList

/-- `MatchFallback` with the choice between maps and lists made beforehand. -/
def matchFallbackBy (t : DpiRules) (exactByMap suffixByMap : Bool) (hostname : List (BitVec 8)) :
    DpiResult :=
  if hostname = [] then {}
  else
    match t.exactIndexBy exactByMap hostname with
    | some idx => t.resultAt idx
    | none =>
        match t.suffixIndexBy suffixByMap hostname with
        | some idx => t.resultAt idx
        | none => if t.catchAllIdx ≠ kNoMatchIdx then t.resultAt t.catchAllIdx else {}

/-- Scanning the lists answers as looking into the maps does. -/
def IndexesAgree (t : DpiRules) (hostname : List (BitVec 8)) : Prop :=
  t.matchFallbackBy false false hostname = t.matchFallbackBy true true hostname

/-- The choices that `MatchFallback` makes. -/
theorem matchFallback_eq_by (t : DpiRules) (hostname : List (BitVec 8)) :
    t.matchFallback hostname =
      t.matchFallbackBy (16 < t.exactMap.keys.length) (16 < t.suffixMap.keys.length) hostname := by
  have hexact : t.exactIndexBy (16 < t.exactMap.keys.length) hostname = t.exactIndex hostname := by
    unfold exactIndexBy exactIndex
    simp only [decide_eq_true_eq]
  have hsuffix :
      t.suffixIndexBy (16 < t.suffixMap.keys.length) hostname = t.suffixIndex hostname := by
    unfold suffixIndexBy suffixIndex
    simp only [decide_eq_true_eq]
  unfold matchFallbackBy
  rw [hexact, hsuffix]
  rfl

theorem matchFallbackBy_eq {t : DpiRules} {exactByMap suffixByMap : Bool}
    {hostname : List (BitVec 8)} (hne : hostname ≠ []) :
    t.matchFallbackBy exactByMap suffixByMap hostname =
      (((t.exactIndexBy exactByMap hostname).or (t.suffixIndexBy suffixByMap hostname)).or
        (if t.catchAllIdx ≠ kNoMatchIdx then some t.catchAllIdx else none)).elim {} t.resultAt := by
  unfold matchFallbackBy
  rw [if_neg hne]
  cases t.exactIndexBy exactByMap hostname with
  | some idx => rfl
  | none =>
      cases t.suffixIndexBy suffixByMap hostname with
      | some idx => rfl
      | none =>
          dsimp only
          split
          · rfl
          · rfl

end DpiRules

/-! ## What the structures of a table answer -/

/-- The result of the filter that is indexed under 16 bits. -/
def indexedResult (fs : List CompiledDpiFilter) (idx : BitVec 16) : DpiResult :=
  (fs[idx.toNat]?).elim {} DpiRules.resultOf

/-- The suffix filters of a domain give one result. -/
def OneResult (fs : List CompiledDpiFilter) (domain : List (BitVec 8)) : Prop :=
  ∀ e ∈ entriesOf suffixKey fs 0, ∀ e' ∈ entriesOf suffixKey fs 0,
    e.1 = domain → e'.1 = domain → indexedResult fs e.2 = indexedResult fs e'.2

instance (fs : List CompiledDpiFilter) (domain : List (BitVec 8)) :
    Decidable (OneResult fs domain) :=
  inferInstanceAs (Decidable (∀ _ ∈ _, ∀ _ ∈ _, _ → _ → _ = _))

/-- As long as 16 bits hold every position, these are the results of the filters themselves. -/
theorem oneResult_iff {fs : List CompiledDpiFilter} (hlen : fs.length ≤ 65536)
    {domain : List (BitVec 8)} : OneResult fs domain ↔
      ∀ f ∈ fs, ∀ g ∈ fs, suffixKey f = some domain → suffixKey g = some domain →
        DpiRules.resultOf f = DpiRules.resultOf g := by
  have hindexed : ∀ (i : Nat) f, fs[i]? = some f →
      indexedResult fs (BitVec.ofNat 16 (i + 0)) = DpiRules.resultOf f := by
    intro i f hf
    have hi : i < 65536 := (List.getElem?_eq_some_iff.mp hf).1.trans_le hlen
    rw [indexedResult, BitVec.toNat_ofNat, Nat.add_zero, Nat.mod_eq_of_lt hi, hf]
    rfl
  constructor
  · intro h f hf g hg hfkey hgkey
    obtain ⟨i, hi⟩ := List.getElem?_of_mem hf
    obtain ⟨j, hj⟩ := List.getElem?_of_mem hg
    have hentry : ∀ (i : Nat) f, fs[i]? = some f → suffixKey f = some domain →
        (domain, BitVec.ofNat 16 (i + 0)) ∈ entriesOf suffixKey fs 0 :=
      fun i f hf hkey ↦ mem_entriesOf.mpr ⟨i, f, hf, hkey, rfl⟩
    have hresult := h _ (hentry i f hi hfkey) _ (hentry j g hj hgkey) rfl rfl
    dsimp only at hresult
    rwa [hindexed i f hi, hindexed j g hj] at hresult
  · rintro h ⟨k, idx⟩ he ⟨k', idx'⟩ he' rfl rfl
    obtain ⟨i, f, hi, hfkey, rfl⟩ := mem_entriesOf.mp he
    obtain ⟨j, g, hj, hgkey, rfl⟩ := mem_entriesOf.mp he'
    rw [hindexed i f hi, hindexed j g hj]
    exact h f (List.mem_of_getElem? hi) g (List.mem_of_getElem? hj) hfkey hgkey

section Constructed

variable {sorts : DpiSorts} {filters : List CompiledDpiFilter} {hsDb : Option HsDatabase}
  {hostname : List (BitVec 8)}

theorem resultAt_ofFilters (idx : BitVec 16) :
    (DpiRules.ofFilters sorts filters hsDb).resultAt idx =
      indexedResult (sorts.byPriority.sort filters) idx := by
  rw [DpiRules.resultAt, DpiRules.ofFilters_filters, indexedResult]

/-- An exact match is found in the map as in the list. -/
theorem exactIndexBy_ofFilters (byMap : Bool) :
    (DpiRules.ofFilters sorts filters hsDb).exactIndexBy byMap hostname =
      ((sorts.byPriority.sort filters).findIdx? (exactKey · = some hostname)).map
        (BitVec.ofNat 16) := by
  have hfind := find_entriesOf exactKey hostname (sorts.byPriority.sort filters) 0
  simp only [Nat.add_zero] at hfind
  rw [ofFilters_eq rfl, DpiRules.exactIndexBy]
  split
  · rw [lookup_emplaceAll, AList.lookup_empty, Option.none_or]
    exact hfind
  · simp only [eq_comm (a := hostname)]
    exact hfind

theorem exactIndexBy_eq_none (byMap : Bool) :
    (DpiRules.ofFilters sorts filters hsDb).exactIndexBy byMap hostname = none ↔
      ∀ f ∈ sorts.byPriority.sort filters, exactKey f ≠ some hostname := by
  rw [exactIndexBy_ofFilters, Option.map_eq_none_iff, List.findIdx?_eq_none_iff]
  simp

/-- The map of suffix matches answers with the first entry. -/
theorem suffixIndexBy_map (hdomain : extractDomainKey hostname ≠ []) :
    (DpiRules.ofFilters sorts filters hsDb).suffixIndexBy true hostname =
      ((entriesOf suffixKey (sorts.byPriority.sort filters) 0).find?
        fun e ↦ e.1 = extractDomainKey hostname).map Prod.snd := by
  rw [ofFilters_eq rfl, DpiRules.suffixIndexBy]
  dsimp only
  rw [if_neg hdomain, if_pos rfl, lookup_emplaceAll, AList.lookup_empty, Option.none_or]

/-- Their list answers with the entry that its sort puts first. -/
theorem suffixIndexBy_list (hdomain : extractDomainKey hostname ≠ []) :
    (DpiRules.ofFilters sorts filters hsDb).suffixIndexBy false hostname =
      ((sorts.byDomain.sort ((entriesOf suffixKey (sorts.byPriority.sort filters) 0).map
        suffixEntry)).find? fun e ↦ e.domain = extractDomainKey hostname).map
          DpiSuffixEntry.filterIndex := by
  rw [ofFilters_eq rfl, DpiRules.suffixIndexBy]
  dsimp only
  rw [if_neg hdomain, if_neg Bool.false_ne_true, findSuffix_eq (sorts.byDomain.sorted _)]

/-- Either way a suffix match is an entry of the domain, and it is missed only if there is
none. -/
theorem suffixIndexBy_cases (sorts : DpiSorts) (filters : List CompiledDpiFilter)
    (hsDb : Option HsDatabase) (byMap : Bool) (hdomain : extractDomainKey hostname ≠ []) :
    (∃ e ∈ entriesOf suffixKey (sorts.byPriority.sort filters) 0,
        e.1 = extractDomainKey hostname ∧
        (DpiRules.ofFilters sorts filters hsDb).suffixIndexBy byMap hostname = some e.2) ∨
      (∀ e ∈ entriesOf suffixKey (sorts.byPriority.sort filters) 0,
          e.1 ≠ extractDomainKey hostname) ∧
        (DpiRules.ofFilters sorts filters hsDb).suffixIndexBy byMap hostname = none := by
  generalize hentries : entriesOf suffixKey (sorts.byPriority.sort filters) 0 = entries
  cases byMap with
  | true =>
      rw [suffixIndexBy_map hdomain, hentries]
      cases hfind : entries.find? fun e ↦ e.1 = extractDomainKey hostname with
      | some e =>
          exact .inl ⟨e, List.mem_of_find?_eq_some hfind, by simpa using List.find?_some hfind, rfl⟩
      | none => exact .inr ⟨by simpa using hfind, rfl⟩
  | false =>
      rw [suffixIndexBy_list hdomain, hentries]
      cases hfind : (sorts.byDomain.sort (entries.map suffixEntry)).find?
          fun e ↦ e.domain = extractDomainKey hostname with
      | some e =>
          obtain ⟨p, hp, rfl⟩ :=
            List.mem_map.mp (sorts.byDomain.mem_sort.mp (List.mem_of_find?_eq_some hfind))
          have hkey := List.find?_some hfind
          rw [decide_eq_true_eq] at hkey
          exact .inl ⟨p, hp, hkey, rfl⟩
      | none =>
          refine .inr ⟨fun p hp hkey ↦ ?_, rfl⟩
          exact List.find?_eq_none.mp hfind (suffixEntry p)
            (sorts.byDomain.mem_sort.mpr (List.mem_map_of_mem hp)) (decide_eq_true hkey)

/-- Where the filters of the domain give one result, the suffix match is the same one. -/
theorem suffixResult_eq (hsDb : Option HsDatabase)
    (hone : OneResult (sorts.byPriority.sort filters) (extractDomainKey hostname))
    (byMap byMap' : Bool) :
    ((DpiRules.ofFilters sorts filters hsDb).suffixIndexBy byMap hostname).map
        (DpiRules.ofFilters sorts filters hsDb).resultAt =
      ((DpiRules.ofFilters sorts filters hsDb).suffixIndexBy byMap' hostname).map
        (DpiRules.ofFilters sorts filters hsDb).resultAt := by
  by_cases hdomain : extractDomainKey hostname = []
  · simp [DpiRules.suffixIndexBy, hdomain]
  rcases suffixIndexBy_cases sorts filters hsDb byMap hdomain with
    ⟨e, he, hkey, hidx⟩ | ⟨hnone, hidx⟩
  · rcases suffixIndexBy_cases sorts filters hsDb byMap' hdomain with
      ⟨e', he', hkey', hidx'⟩ | ⟨hnone', -⟩
    · rw [hidx, hidx', Option.map_some, Option.map_some, resultAt_ofFilters, resultAt_ofFilters,
        hone e he e' he' hkey hkey']
    · exact absurd hkey (hnone' e he)
  · rcases suffixIndexBy_cases sorts filters hsDb byMap' hdomain with
      ⟨e', he', hkey', -⟩ | ⟨-, hidx'⟩
    · exact absurd hkey' (hnone e' he')
    · rw [hidx, hidx']

end Constructed

/-! ## When maps and lists agree -/

/-- Where the filters of the domain give one result, the choice between maps and lists does not
matter. -/
theorem matchFallbackBy_congr {sorts : DpiSorts} {filters : List CompiledDpiFilter}
    {hostname : List (BitVec 8)} (hsDb : Option HsDatabase)
    (h : (∃ f ∈ sorts.byPriority.sort filters, exactKey f = some hostname) ∨
      OneResult (sorts.byPriority.sort filters) (extractDomainKey hostname))
    (exactByMap suffixByMap exactByMap' suffixByMap' : Bool) :
    (DpiRules.ofFilters sorts filters hsDb).matchFallbackBy exactByMap suffixByMap hostname =
      (DpiRules.ofFilters sorts filters hsDb).matchFallbackBy exactByMap' suffixByMap'
        hostname := by
  by_cases hne : hostname = []
  · subst hne
    rfl
  rw [DpiRules.matchFallbackBy_eq hne, DpiRules.matchFallbackBy_eq hne,
    exactIndexBy_ofFilters exactByMap, ← exactIndexBy_ofFilters exactByMap']
  cases hexact : (DpiRules.ofFilters sorts filters hsDb).exactIndexBy exactByMap' hostname with
  | some idx => rfl
  | none =>
      have hone := h.resolve_left fun ⟨f, hf, hkey⟩ ↦
        (exactIndexBy_eq_none exactByMap').mp hexact f hf hkey
      have hresult := suffixResult_eq hsDb hone suffixByMap suffixByMap'
      rw [Option.none_or, Option.none_or]
      generalize (DpiRules.ofFilters sorts filters hsDb).suffixIndexBy suffixByMap hostname = a,
        (DpiRules.ofFilters sorts filters hsDb).suffixIndexBy suffixByMap' hostname = b at hresult ⊢
      cases a with
      | none =>
          cases b with
          | none => rfl
          | some idx' => cases hresult
      | some idx =>
          cases b with
          | none => cases hresult
          | some idx' => exact Option.some.inj hresult

/-- **When the lists answer as the maps do**, whatever the sort by domain makes of ties: the
hostname has an exact match, or the suffix filters of its domain give one result. -/
theorem indexesAgree_iff (byPriority : SortBy priorityKey) (filters : List CompiledDpiFilter)
    (hsDb : Option HsDatabase) (hostname : List (BitVec 8)) :
    (∀ byDomain, (DpiRules.ofFilters ⟨byPriority, byDomain⟩ filters hsDb).IndexesAgree hostname) ↔
      (∃ f ∈ byPriority.sort filters, exactKey f = some hostname) ∨
        OneResult (byPriority.sort filters) (extractDomainKey hostname) := by
  constructor
  · intro h
    by_cases hexact : ∃ f ∈ byPriority.sort filters, exactKey f = some hostname
    · exact .inl hexact
    refine .inr ?_
    by_cases hdomain : extractDomainKey hostname = []
    · -- no filter has the empty domain
      intro e he _ _ hkey _
      obtain ⟨i, f, -, hf, -⟩ := mem_entriesOf.mp he
      exact absurd (hkey.trans hdomain) (suffixKey_ne_nil hf)
    have hne : hostname ≠ [] := by
      rintro rfl
      exact hdomain rfl
    have hnone : ∀ byDomain byMap, (DpiRules.ofFilters ⟨byPriority, byDomain⟩ filters
        hsDb).exactIndexBy byMap hostname = none :=
      fun byDomain byMap ↦ (exactIndexBy_eq_none byMap).mpr fun f hf hkey ↦ hexact ⟨f, hf, hkey⟩
    -- each entry comes first in some order, and the map does not see the order
    have hmap : ∀ e ∈ entriesOf suffixKey (byPriority.sort filters) 0,
        e.1 = extractDomainKey hostname → ∃ idx,
          ((entriesOf suffixKey (byPriority.sort filters) 0).find?
            fun e ↦ e.1 = extractDomainKey hostname).map Prod.snd = some idx ∧
          indexedResult (byPriority.sort filters) e.2 =
            indexedResult (byPriority.sort filters) idx := by
      intro e he hkey
      obtain ⟨byDomain, hfirst⟩ := exists_entry_first he
      have hagree := h byDomain
      rw [DpiRules.IndexesAgree, DpiRules.matchFallbackBy_eq hne, DpiRules.matchFallbackBy_eq hne,
        hnone, hnone, suffixIndexBy_list hdomain, suffixIndexBy_map hdomain] at hagree
      rw [hkey] at hfirst
      dsimp only at hagree
      rw [hfirst] at hagree
      cases hfind : (entriesOf suffixKey (byPriority.sort filters) 0).find?
          fun e ↦ e.1 = extractDomainKey hostname with
      | none => exact absurd hkey (by simpa using List.find?_eq_none.mp hfind e he)
      | some e' =>
          rw [hfind] at hagree
          refine ⟨e'.2, rfl, ?_⟩
          simp only [Option.map_some, Option.none_or, Option.some_or, Option.elim_some] at hagree
          exact (resultAt_ofFilters e.2).symm.trans (hagree.trans (resultAt_ofFilters e'.2))
    intro e he e' he' hkey hkey'
    obtain ⟨idx, hidx, hresult⟩ := hmap e he hkey
    obtain ⟨idx', hidx', hresult'⟩ := hmap e' he' hkey'
    cases hidx.symm.trans hidx'
    exact hresult.trans hresult'.symm
  · intro h byDomain
    exact matchFallbackBy_congr hsDb h false false true true

/-- With few domains or many, `MatchFallback` is then the match by maps. -/
theorem matchFallback_eq_maps {sorts : DpiSorts} {filters : List CompiledDpiFilter}
    {hostname : List (BitVec 8)} (hsDb : Option HsDatabase)
    (h : (∃ f ∈ sorts.byPriority.sort filters, exactKey f = some hostname) ∨
      OneResult (sorts.byPriority.sort filters) (extractDomainKey hostname)) :
    (DpiRules.ofFilters sorts filters hsDb).matchFallback hostname =
      (DpiRules.ofFilters sorts filters hsDb).matchFallbackBy true true hostname := by
  rw [DpiRules.matchFallback_eq_by]
  exact matchFallbackBy_congr hsDb h _ _ true true

/-! ### Two filters of one domain -/

/-- A sort that turns ties round. -/
def turningDomains : SortBy domainKey where
  sort l := (SortBy.insertion domainKey).sort l.reverse
  perm l := ((SortBy.insertion domainKey).perm _).trans l.reverse_perm
  sorted _ := (SortBy.insertion domainKey).sorted _

/-- Two filters of one domain. -/
def twinConfig : DpiConfig where
  enabled := true
  filters :=
    [{ hostnamePattern := hostBytes ['*', '.', 'a', '.', 'c'], filterGroup := "fg_l7_first"
       priority := 10, label := "first" },
     { hostnamePattern := hostBytes ['*', '.', 'a', '.', 'c'], filterGroup := "fg_l7_second"
       priority := 20, label := "second" }]

/-- The table of the two filters. -/
def twinRules : DpiRules :=
  .ofFilters ⟨SortBy.insertion priorityKey, turningDomains⟩
    (twinConfig.filters.map compileDpiFilter) none

/-- The map has the first filter, and the list the second one. -/
theorem twin_indexes_differ :
    ¬ twinRules.IndexesAgree (hostBytes ['w', '.', 'a', '.', 'c']) ∧
      (twinRules.matchFallback (hostBytes ['w', '.', 'a', '.', 'c'])).label = "second" := by
  have hlist : (twinRules.matchFallbackBy false false
      (hostBytes ['w', '.', 'a', '.', 'c'])).label = "second" := by decide +kernel
  have hmap : (twinRules.matchFallbackBy true true
      (hostBytes ['w', '.', 'a', '.', 'c'])).label = "first" := by decide +kernel
  constructor
  · intro h
    rw [h, hmap] at hlist
    revert hlist
    decide
  · decide +kernel

end DpdkSpi
