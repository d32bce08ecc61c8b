import Mathlib.Data.Finset.Max
import DpdkSpi.Dpi.Table

/-!
# Matching by priority

A table is built with two sorts: one before the expressions get their identifiers, and one in
the constructor, which the identifiers then index.  With an unstable sort the two orders agree
on the priorities only, so that filters of one priority may stand in for each other
(`idsNameFilters_iff`), and the match of a hostname is one of least priority exactly when no
harm can come of that and the priority is not the one that stands for none
(`matchesByPriority_iff`).
-/

namespace DpdkSpi

open Lib

/-! ## Identifiers and filters -/

/-- The filters in the order in which their expressions get their identifiers. -/
def registered (sorts : DpiSorts) (config : DpiConfig) : List CompiledDpiFilter :=
  sorts.byPriority.sort (config.filters.map compileDpiFilter)

/-- Each identifier is the position of the filter whose expression it was given to. -/
def IdsNameFilters (sorts : DpiSorts) (config : DpiConfig) (t : DpiRules) : Prop :=
  ∀ (id : Nat) (f : CompiledDpiFilter),
    (registered sorts config)[id]? = some f → t.filters[id]? = some f

theorem filters_of_compile {hs : Hyperscan} {sorts : DpiSorts} {config : DpiConfig} {t : DpiRules}
    (h : compileDpiRuleTable hs sorts config = .ok t) :
    t.filters = sorts.byPriority.sort (registered sorts config) := by
  obtain ⟨hsDb, rfl, -⟩ := compileDpiRuleTable_ok h
  exact DpiRules.ofFilters_filters _ _ _

/-- A pair of sorts with a given one for the filters. -/
def DpiSorts.insertionWith (byPriority : SortBy priorityKey) : DpiSorts where
  byPriority
  byDomain := SortBy.insertion domainKey

/-- **When identifiers name the right filters**, whatever the sort does with ties: no two
different filters share a priority. -/
theorem idsNameFilters_iff (hs : Hyperscan) (config : DpiConfig)
    (haccepted : ∀ sorts, ∃ t, compileDpiRuleTable hs sorts config = .ok t) :
    (∀ sorts t, compileDpiRuleTable hs sorts config = .ok t → IdsNameFilters sorts config t) ↔
      ∀ c ∈ config.filters, ∀ c' ∈ config.filters, c.priority = c'.priority →
        compileDpiFilter c = compileDpiFilter c' := by
  constructor
  · intro h c hc c' hc' hprio
    obtain ⟨s, i, hi, hi'⟩ := (SortBy.insertion priorityKey).exists_exchange
      (List.mem_map_of_mem (f := compileDpiFilter) hc) (List.mem_map_of_mem hc')
      (congrArg BitVec.toNat hprio)
    obtain ⟨t, ht⟩ := haccepted (.insertionWith s)
    have hsame := h _ t ht i _ hi
    rw [filters_of_compile ht] at hsame
    exact Option.some.inj (hsame.symm.trans hi')
  · intro h sorts t ht id f hf
    rw [filters_of_compile ht]
    have hsort : sorts.byPriority.sort (registered sorts config) = registered sorts config := by
      refine sorts.byPriority.sort_sort fun x hx y hy hkey ↦ ?_
      obtain ⟨c, hc, rfl⟩ := List.mem_map.mp hx
      obtain ⟨c', hc', rfl⟩ := List.mem_map.mp hy
      exact h c hc c' hc' (BitVec.eq_of_toNat_eq hkey)
    rw [hsort]
    exact hf

/-! ## The callbacks of a scan -/

namespace DpiRules

variable {filters : List CompiledDpiFilter}

/-- What the callbacks of a scan leave in the context: a lower bound of the priorities, which is
that of a filter or the initial one. -/
def BestOf (filters : List CompiledDpiFilter) (ids : List Nat) (context : HsMatchContext) : Prop :=
  (∀ id ∈ ids, ∀ f, filters[id]? = some f → context.bestPriority ≤ f.priority) ∧
    (context = {} ∨ ∃ id ∈ ids, ∃ f, filters[id]? = some f ∧
      context = { matchedFilterIdx := some id, bestPriority := f.priority } ∧
      f.priority < BitVec.allOnes 32)

theorem le_allOnes {w : Nat} (x : BitVec w) : x ≤ BitVec.allOnes w := by
  rw [BitVec.le_def, BitVec.toNat_allOnes]
  exact Nat.le_sub_one_of_lt x.isLt

/-- One more identifier. -/
theorem BestOf.step {ids : List Nat} {context : HsMatchContext} (h : BestOf filters ids context)
    (id : Nat) : BestOf filters (ids ++ [id]) (onHyperscanMatch filters context id) := by
  obtain ⟨hle, hctx⟩ := h
  have hkept : (∀ f, filters[id]? = some f → context.bestPriority ≤ f.priority) →
      BestOf filters (ids ++ [id]) context := by
    intro hid
    refine ⟨fun id' hid' f hf ↦ ?_, hctx.imp_right ?_⟩
    · rcases List.mem_append.mp hid' with h | h
      · exact hle id' h f hf
      · rw [List.mem_singleton.mp h] at hf
        exact hid f hf
    · rintro ⟨best, hbest, h⟩
      exact ⟨best, List.mem_append_left _ hbest, h⟩
  unfold onHyperscanMatch
  cases hid : filters[id]? with
  | none => exact hkept fun f hf ↦ absurd (hid.symm.trans hf) (by simp)
  | some g =>
      dsimp only
      split
      · rename_i hlt
        have hbest : context.bestPriority ≤ BitVec.allOnes 32 := le_allOnes _
        refine ⟨fun id' hid' f hf ↦ ?_, .inr ⟨id, by simp, g, hid, rfl, by bv_omega⟩⟩
        rcases List.mem_append.mp hid' with h | h
        · have := hle id' h f hf
          dsimp only
          bv_omega
        · rw [List.mem_singleton.mp h, hid] at hf
          cases hf
          exact BitVec.le_refl _
      · rename_i hlt
        refine hkept fun f hf ↦ ?_
        cases hid.symm.trans hf
        exact BitVec.not_lt.mp hlt

/-- **The callbacks keep the best filter**, in any order and with any repetition. -/
theorem bestOf_foldl (filters : List CompiledDpiFilter) (ids : List Nat) :
    BestOf filters ids (ids.foldl (onHyperscanMatch filters) {}) := by
  induction ids using List.reverseRecOn with
  | nil => exact ⟨fun _ h ↦ absurd h List.not_mem_nil, .inl rfl⟩
  | append_singleton ids id ih =>
      rw [List.foldl_append, List.foldl_cons, List.foldl_nil]
      exact ih.step id

/-- What a scan comes to. -/
theorem scanResult_cases (filters : List CompiledDpiFilter) (ids : List Nat) :
    (scanResult filters ids = {} ∧
        ∀ id ∈ ids, ∀ f, filters[id]? = some f → f.priority = BitVec.allOnes 32) ∨
      ∃ id ∈ ids, ∃ f, filters[id]? = some f ∧ scanResult filters ids = resultOf f ∧
        f.priority < BitVec.allOnes 32 ∧
        ∀ id' ∈ ids, ∀ g, filters[id']? = some g → f.priority ≤ g.priority := by
  obtain ⟨hle, hctx⟩ := bestOf_foldl filters ids
  unfold scanResult
  rcases hctx with hctx | ⟨id, hid, f, hf, hctx, hlt⟩
  · rw [hctx] at hle ⊢
    exact .inl ⟨rfl, fun id hid f hf ↦ BitVec.le_antisymm (le_allOnes _) (hle id hid f hf)⟩
  · rw [hctx] at hle ⊢
    refine .inr ⟨id, hid, f, hf, ?_, hlt, hle⟩
    simp [hf]

/-- The callback for a best filter settles the scan. -/
theorem scanResult_of_first {ids : List Nat} {id : Nat} {f : CompiledDpiFilter}
    (hf : filters[id]? = some f) (hlt : f.priority < BitVec.allOnes 32)
    (hle : ∀ id' ∈ ids, ∀ g, filters[id']? = some g → f.priority ≤ g.priority) :
    scanResult filters (id :: ids) = resultOf f := by
  have hkept : ∀ ids : List Nat,
      (∀ id' ∈ ids, ∀ g, filters[id']? = some g → f.priority ≤ g.priority) →
      ids.foldl (onHyperscanMatch filters)
          { matchedFilterIdx := some id, bestPriority := f.priority } =
        { matchedFilterIdx := some id, bestPriority := f.priority } := by
    intro ids hle
    induction ids with
    | nil => rfl
    | cons id' ids ih =>
        rw [List.foldl_cons, onHyperscanMatch]
        cases hid' : filters[id']? with
        | none => exact ih fun id'' hid'' ↦ hle id'' (List.mem_cons_of_mem _ hid'')
        | some g =>
            dsimp only
            rw [if_neg (BitVec.not_lt.mpr (hle id' List.mem_cons_self g hid'))]
            exact ih fun id'' hid'' ↦ hle id'' (List.mem_cons_of_mem _ hid'')
  have hfirst : onHyperscanMatch filters {} id =
      { matchedFilterIdx := some id, bestPriority := f.priority } := by
    rw [onHyperscanMatch, hf]
    exact if_pos hlt
  rw [scanResult, List.foldl_cons, hfirst, hkept ids hle]
  simp [hf]

end DpiRules

/-! ## What a table reports -/

/-- The pattern of a filter matches a hostname, or it without a final newline. -/
def filterMatches (c : DpiFilterConfig) (hostname : List (BitVec 8)) : Bool :=
  (readings hostname).any (patternMatches c.hostnamePattern)

theorem filterMatches_of_noNewline {c : DpiFilterConfig} {hostname : List (BitVec 8)}
    (h : Regex.ascii '\n' ∉ hostname) :
    filterMatches c hostname = patternMatches c.hostnamePattern hostname := by
  rw [filterMatches, readings_of_noNewline h]
  simp

theorem mem_hsExpressions {fs : List CompiledDpiFilter} {e : HsExpression} :
    e ∈ hsExpressions fs ↔ ∃ f, fs[e.id]? = some f ∧ e = {
      pattern := cStr (regexOf f)
      flags := { caseless := true, dotAll := true, allowEmpty := true }
      id := e.id } := by
  rw [hsExpressions, List.mem_mapIdx]
  constructor
  · rintro ⟨i, hi, rfl⟩
    exact ⟨fs[i], List.getElem?_eq_getElem hi, rfl⟩
  · rintro ⟨f, hf, he⟩
    obtain ⟨hi, rfl⟩ := List.getElem?_eq_some_iff.mp hf
    exact ⟨e.id, hi, he.symm⟩

/-- The expression of a filter, as the library sees it. -/
theorem parse_compiled {c : DpiFilterConfig} (h : 0 ∉ c.hostnamePattern) :
    Regex.parse (cStr (regexOf (compileDpiFilter c))) = some (regexTree (compileDpiFilter c)) := by
  have hpattern : 0 ∉ (compileDpiFilter c).hostnamePattern := by
    change 0 ∉ strncpy c.hostnamePattern
    rw [strncpy_of_noZero h]
    exact h
  rw [cStr_regexOf hpattern, parse_regexOf]

/-- What the library finds with it. -/
theorem finds_compiled {c : DpiFilterConfig} (h : 0 ∉ c.hostnamePattern) (id : Nat)
    (hostname : List (BitVec 8)) :
    HsExpression.Finds
        { pattern := cStr (regexOf (compileDpiFilter c))
          flags := { caseless := true, dotAll := true, allowEmpty := true }
          id := id } hostname ↔ filterMatches c hostname = true := by
  rw [filterMatches, List.any_eq_true, ← finds_regexTree h]
  constructor
  · rintro ⟨r, hr, hfound⟩
    dsimp only at hr
    rw [parse_compiled h] at hr
    cases hr
    exact hfound
  · intro hfound
    exact ⟨_, parse_compiled h, hfound⟩

variable {hs : Hyperscan} {sorts : DpiSorts} {config : DpiConfig} {t : DpiRules}

theorem mem_registered {f : CompiledDpiFilter} :
    f ∈ registered sorts config ↔ ∃ c ∈ config.filters, compileDpiFilter c = f := by
  rw [registered, sorts.byPriority.mem_sort, List.mem_map]

/-- The identifiers of a hostname: those of the filters that match it. -/
def Reported (sorts : DpiSorts) (config : DpiConfig) (hostname : List (BitVec 8)) (id : Nat) :
    Prop :=
  ∃ c ∈ config.filters, (registered sorts config)[id]? = some (compileDpiFilter c) ∧
    filterMatches c hostname = true

/-- **A scan reports the filters that match.** -/
theorem scan_compiled (hdoc : hs.Documented) (hzero : ∀ c ∈ config.filters, 0 ∉ c.hostnamePattern)
    {db : HsDatabase} (hdb : db.expressions = hsExpressions (registered sorts config))
    (hostname : List (BitVec 8)) :
    ∃ ids, hs.scan db hostname ⟨db⟩ = some ids ∧
      ∀ id, id ∈ ids ↔ Reported sorts config hostname id := by
  have hparse : ∀ e ∈ db.expressions, (Regex.parse e.pattern).isSome := by
    intro e he
    rw [hdb] at he
    obtain ⟨f, hf, he⟩ := mem_hsExpressions.mp he
    obtain ⟨c, hc, rfl⟩ := mem_registered.mp (List.mem_of_getElem? hf)
    rw [he]
    dsimp only
    rw [parse_compiled (hzero c hc)]
    rfl
  obtain ⟨ids, hscan, hids⟩ := hdoc.reported hostname hparse
  refine ⟨ids, hscan, fun id ↦ (hids id).trans ?_⟩
  constructor
  · rintro ⟨e, he, rfl, hfound⟩
    rw [hdb] at he
    obtain ⟨f, hf, he⟩ := mem_hsExpressions.mp he
    obtain ⟨c, hc, rfl⟩ := mem_registered.mp (List.mem_of_getElem? hf)
    rw [he] at hfound
    exact ⟨c, hc, hf, (finds_compiled (hzero c hc) _ hostname).mp hfound⟩
  · rintro ⟨c, hc, hget, hmatch⟩
    refine ⟨_, ?_, rfl, (finds_compiled (hzero c hc) id hostname).mpr hmatch⟩
    rw [hdb]
    exact mem_hsExpressions.mpr ⟨_, hget, rfl⟩

/-- A table without filters. -/
theorem matchFallback_of_nil (sorts : DpiSorts) {hsDb : Option HsDatabase}
    (hostname : List (BitVec 8)) :
    (DpiRules.ofFilters sorts [] hsDb).matchFallback hostname = {} := by
  have hfilters : sorts.byPriority.sort [] = [] := (sorts.byPriority.perm []).eq_nil
  have hsuffix : sorts.byDomain.sort [] = [] := (sorts.byDomain.perm []).eq_nil
  unfold DpiRules.ofFilters
  dsimp only
  rw [hfilters, DpiRules.indexFilters, hsuffix]
  simp [DpiRules.matchFallback, DpiRules.exactIndex, DpiRules.suffixIndex, DpiRules.findSuffix]

/-- **A match with a scratch of the table's own**: the result of the identifiers of the
hostname. -/
theorem matchOwn_compiled (hdoc : hs.Documented) (h : compileDpiRuleTable hs sorts config = .ok t)
    {hostname : List (BitVec 8)} (hne : hostname ≠ []) :
    ∃ ids, t.matchOwn hs hostname = DpiRules.scanResult t.filters ids ∧
      ∀ id, id ∈ ids ↔ Reported sorts config hostname id := by
  have hzero := compileDpiRuleTable_noZero hdoc h
  obtain ⟨hsDb, rfl, ⟨rfl, hempty⟩ | ⟨db, rfl, hdb⟩⟩ := compileDpiRuleTable_ok h
  · have hnil : sorts.byPriority.sort (config.filters.map compileDpiFilter) = [] := by
      rw [hempty]
      exact (sorts.byPriority.perm []).eq_nil
    refine ⟨[], ?_, fun id ↦ ⟨fun h ↦ absurd h List.not_mem_nil, ?_⟩⟩
    · rw [hnil, DpiRules.matchOwn_of_none (DpiRules.ofFilters_hsDb _ _ _)]
      exact matchFallback_of_nil sorts hostname
    · rintro ⟨c, hc, -⟩
      rw [hempty] at hc
      cases hc
  · obtain ⟨ids, hscan, hids⟩ := scan_compiled hdoc hzero (hdoc.compiled hdb) hostname
    refine ⟨ids, ?_, hids⟩
    rw [DpiRules.matchOwn_of_db (DpiRules.ofFilters_hsDb _ _ _) hne, hscan]
    rfl

/-! ## Priority semantics -/

/-- The result is that of a filter of least priority among those that match, if there is
one. -/
def MatchesByPriority (config : DpiConfig) (hostname : List (BitVec 8)) (r : DpiResult) : Prop :=
  (r.matched = true ↔ ∃ c ∈ config.filters, patternMatches c.hostnamePattern hostname = true) ∧
    (r.matched = true → ∃ c ∈ config.filters, patternMatches c.hostnamePattern hostname = true ∧
      (∀ c' ∈ config.filters, patternMatches c'.hostnamePattern hostname = true →
        c.priority ≤ c'.priority) ∧
      r.filterGroup = c.filterGroup ∧ r.label = c.label ∧ r.priority = c.priority)

/-- A filter of least priority among those that match. -/
def IsBest (config : DpiConfig) (hostname : List (BitVec 8)) (m : DpiFilterConfig) : Prop :=
  m ∈ config.filters ∧ filterMatches m hostname = true ∧
    ∀ c ∈ config.filters, filterMatches c hostname = true → m.priority ≤ c.priority

/-- Some filter that matches has least priority. -/
theorem exists_isBest {hostname : List (BitVec 8)}
    (h : ∃ c ∈ config.filters, filterMatches c hostname = true) :
    ∃ m, IsBest config hostname m := by
  obtain ⟨c, hc, hmatch⟩ := h
  have hmem : ∀ c, c ∈ (config.filters.filter (filterMatches · hostname)).toFinset ↔
      c ∈ config.filters ∧ filterMatches c hostname = true := by
    intro c
    rw [List.mem_toFinset, List.mem_filter]
  obtain ⟨m, hm, hmin⟩ := Finset.exists_min_image _ (fun c ↦ c.priority.toNat)
    ⟨c, (hmem c).mpr ⟨hc, hmatch⟩⟩
  refine ⟨m, ((hmem m).mp hm).1, ((hmem m).mp hm).2, fun c' hc' hmatch' ↦ ?_⟩
  exact hmin c' ((hmem c').mpr ⟨hc', hmatch'⟩)

/-- The filter at the position of an identifier has the priority of the filter it was given
to. -/
theorem priority_at (h : compileDpiRuleTable hs sorts config = .ok t) {id : Nat}
    {f : CompiledDpiFilter} (hf : (registered sorts config)[id]? = some f) :
    ∃ g, t.filters[id]? = some g ∧ g.priority = f.priority := by
  have hfilters := filters_of_compile h
  have hlt : id < t.filters.length := by
    obtain ⟨hlt, -⟩ := List.getElem?_eq_some_iff.mp hf
    rw [hfilters, SortBy.length_sort]
    exact hlt
  obtain ⟨g, hg⟩ : ∃ g, t.filters[id]? = some g := ⟨_, List.getElem?_eq_getElem hlt⟩
  refine ⟨g, hg, BitVec.eq_of_toNat_eq ?_⟩
  rw [hfilters] at hg
  exact sorts.byPriority.key_getElem? sorts.byPriority (sorts.byPriority.perm _) hg hf

/-- **What a match comes to**: a filter that has the priority of a best match, or nothing when
all matches have the priority that stands for none. -/
theorem matchOwn_cases (hdoc : hs.Documented) (h : compileDpiRuleTable hs sorts config = .ok t)
    {hostname : List (BitVec 8)} (hne : hostname ≠ []) :
    (t.matchOwn hs hostname = {} ∧ ∀ c ∈ config.filters, filterMatches c hostname = true →
        c.priority = BitVec.allOnes 32) ∨
      ∃ m c, IsBest config hostname m ∧ m.priority < BitVec.allOnes 32 ∧ c ∈ config.filters ∧
        c.priority = m.priority ∧
          t.matchOwn hs hostname = DpiRules.resultOf (compileDpiFilter c) := by
  obtain ⟨ids, hmatch, hids⟩ := matchOwn_compiled hdoc h hne
  have hreported : ∀ c ∈ config.filters, filterMatches c hostname = true →
      ∃ id ∈ ids, ∃ g, t.filters[id]? = some g ∧ g.priority = c.priority := by
    intro c hc hfound
    obtain ⟨id, hid⟩ := List.getElem?_of_mem (mem_registered.mpr ⟨c, hc, rfl⟩ :
      compileDpiFilter c ∈ registered sorts config)
    obtain ⟨g, hg, hprio⟩ := priority_at h hid
    exact ⟨id, (hids id).mpr ⟨c, hc, hid, hfound⟩, g, hg, hprio⟩
  rcases DpiRules.scanResult_cases t.filters ids with
    ⟨hempty, hall⟩ | ⟨id, hid, f, hf, hresult, hlt, hle⟩
  · refine .inl ⟨hmatch.trans hempty, fun c hc hfound ↦ ?_⟩
    obtain ⟨id, hid, g, hg, hprio⟩ := hreported c hc hfound
    rw [← hprio]
    exact hall id hid g hg
  · obtain ⟨m, hm, hget, hfound⟩ := (hids id).mp hid
    obtain ⟨g, hg, hprio⟩ := priority_at h hget
    obtain rfl : f = g := Option.some.inj (hf.symm.trans hg)
    have hmem : f ∈ registered sorts config := by
      rw [← sorts.byPriority.mem_sort, ← filters_of_compile h]
      exact List.mem_of_getElem? hf
    obtain ⟨c, hc, rfl⟩ := mem_registered.mp hmem
    have hprio : c.priority = m.priority := hprio
    refine .inr ⟨m, c, ⟨hm, hfound, fun c' hc' hfound' ↦ ?_⟩, ?_, hc, hprio, hmatch.trans hresult⟩
    · obtain ⟨id', hid', g', hg', hprio'⟩ := hreported c' hc' hfound'
      rw [← hprio', ← hprio]
      exact hle id' hid' g' hg'
    · rw [← hprio]
      exact hlt

/-! ## A library that reports one identifier first -/

open Classical in
/-- The identifiers of the expressions that are found. -/
noncomputable def HsDatabase.foundIds (db : HsDatabase) (subject : List (BitVec 8)) : List Nat :=
  (db.expressions.filter (·.Finds subject)).map HsExpression.id

theorem HsDatabase.mem_foundIds {db : HsDatabase} {subject : List (BitVec 8)} {id : Nat} :
    id ∈ db.foundIds subject ↔ ∃ e ∈ db.expressions, e.id = id ∧ e.Finds subject := by
  simp only [foundIds, List.mem_map, List.mem_filter, decide_eq_true_eq]
  constructor
  · rintro ⟨e, ⟨he, hfound⟩, hid⟩
    exact ⟨e, he, hid, hfound⟩
  · rintro ⟨e, he, hid, hfound⟩
    exact ⟨e, ⟨he, hfound⟩, hid⟩

open Classical in
/-- A library as it is documented, which reports a given identifier first if it reports it at
all. -/
noncomputable def Hyperscan.reportingFirst (first : Nat) : Hyperscan where
  compileMulti es := if ∃ e ∈ es, Unclosed e.pattern then .error none else .ok ⟨0, es⟩
  allocScratch db := some ⟨db⟩
  scan db subject scratch :=
    if scratch.db = db then
      some (if first ∈ db.foundIds subject then first :: db.foundIds subject
        else db.foundIds subject)
    else none

theorem Hyperscan.reportingFirst_documented (first : Nat) : (reportingFirst first).Documented where
  compiled {es db} h := by
    unfold reportingFirst at h
    dsimp only at h
    split at h
    · cases h
    · cases h
      rfl
  refused {es db} h e he hopen := by
    have herror : (reportingFirst first).compileMulti es = .error none := if_pos ⟨e, he, hopen⟩
    cases herror.symm.trans h
  allocated h := by
    cases h
    rfl
  foreign subject h := if_neg h
  reported {db} subject _ := by
    refine ⟨_, if_pos rfl, fun id ↦ ?_⟩
    rw [← HsDatabase.mem_foundIds]
    split
    · rename_i hfirst
      rw [List.mem_cons]
      refine ⟨?_, .inr⟩
      rintro (rfl | h)
      · exact hfirst
      · exact h
    · rfl

/-- It accepts every list of patterns that fit and have no zero byte. -/
theorem compile_reportingFirst (config : DpiConfig) (first : Nat) (sorts : DpiSorts)
    (hshort : ∀ c ∈ config.filters, c.hostnamePattern.length < 64)
    (hzero : ∀ c ∈ config.filters, 0 ∉ c.hostnamePattern) :
    ∃ t, compileDpiRuleTable (.reportingFirst first) sorts config = .ok t := by
  unfold compileDpiRuleTable
  rw [compileDpiFilters_ok_iff.mpr hshort]
  dsimp only
  split
  · exact ⟨_, rfl⟩
  · have hclosed : ¬ ∃ e ∈ hsExpressions (registered sorts config), Unclosed e.pattern := by
      rintro ⟨e, he, hopen⟩
      obtain ⟨f, hf, he⟩ := mem_hsExpressions.mp he
      obtain ⟨c, hc, rfl⟩ := mem_registered.mp (List.mem_of_getElem? hf)
      rw [he] at hopen
      refine not_unclosed_regexOf ?_ hopen
      change 0 ∉ strncpy c.hostnamePattern
      rw [strncpy_of_noZero (hzero c hc)]
      exact hzero c hc
    have hcompiled : (Hyperscan.reportingFirst first).compileMulti
        (hsExpressions (registered sorts config)) =
          .ok ⟨0, hsExpressions (registered sorts config)⟩ :=
      if_neg hclosed
    rw [registered] at hcompiled
    rw [hcompiled]
    exact ⟨_, rfl⟩

/-- A scan of that library starts with the given identifier. -/
theorem Hyperscan.scan_reportingFirst {first : Nat} {db : HsDatabase} {subject : List (BitVec 8)}
    {ids : List Nat} (hscan : (reportingFirst first).scan db subject ⟨db⟩ = some ids)
    (hfirst : first ∈ ids) : ∃ rest, ids = first :: rest := by
  have hids : (reportingFirst first).scan db subject ⟨db⟩ =
      some (if first ∈ db.foundIds subject then first :: db.foundIds subject
        else db.foundIds subject) := if_pos rfl
  cases Option.some.inj (hids.symm.trans hscan)
  split at hfirst
  · rename_i hfound
    exact ⟨_, if_pos hfound⟩
  · rename_i hfound
    exact absurd hfirst hfound

/-- **A filter with the priority of a best match can be reported in its place.** -/
theorem exists_match_of_tie (hshort : ∀ c ∈ config.filters, c.hostnamePattern.length < 64)
    (hzero : ∀ c ∈ config.filters, 0 ∉ c.hostnamePattern) {hostname : List (BitVec 8)}
    (hne : hostname ≠ []) {m c : DpiFilterConfig} (hm : IsBest config hostname m)
    (hlt : m.priority < BitVec.allOnes 32) (hc : c ∈ config.filters)
    (hprio : m.priority = c.priority) :
    ∃ hs sorts t, Hyperscan.Documented hs ∧ compileDpiRuleTable hs sorts config = .ok t ∧
      t.matchOwn hs hostname = DpiRules.resultOf (compileDpiFilter c) := by
  obtain ⟨s, i, hi, hi'⟩ := (SortBy.insertion priorityKey).exists_exchange
    (List.mem_map_of_mem (f := compileDpiFilter) hm.1) (List.mem_map_of_mem hc)
    (congrArg BitVec.toNat hprio)
  obtain ⟨t, ht⟩ := compile_reportingFirst config i (.insertionWith s) hshort hzero
  have hdoc := Hyperscan.reportingFirst_documented i
  refine ⟨_, _, t, hdoc, ht, ?_⟩
  have hget : t.filters[i]? = some (compileDpiFilter c) := by
    rw [filters_of_compile ht]
    exact hi'
  obtain ⟨hsDb, heq, ⟨-, hempty⟩ | ⟨db, rfl, hdb⟩⟩ := compileDpiRuleTable_ok ht
  · rw [hempty] at hc
    cases hc
  · have hexpressions : db.expressions =
        hsExpressions (registered (.insertionWith s) config) := hdoc.compiled hdb
    obtain ⟨ids, hscan, hids⟩ := scan_compiled hdoc hzero hexpressions hostname
    obtain ⟨rest, rfl⟩ :=
      Hyperscan.scan_reportingFirst hscan ((hids i).mpr ⟨m, hm.1, hi, hm.2.1⟩)
    have hown : t.hsDb = some db := by
      rw [heq]
      exact DpiRules.ofFilters_hsDb _ _ _
    rw [DpiRules.matchOwn_of_db hown hne, hscan]
    have hkey : (compileDpiFilter c).priority = m.priority := hprio.symm
    refine DpiRules.scanResult_of_first hget (hkey ▸ hlt) fun id' hid' g hg ↦ ?_
    obtain ⟨c', hc', hget', hfound⟩ := (hids id').mp (List.mem_cons_of_mem _ hid')
    obtain ⟨g', hg', hprio'⟩ := priority_at ht hget'
    obtain rfl : g = g' := Option.some.inj (hg.symm.trans hg')
    rw [hprio', hkey]
    exact hm.2.2 c' hc' hfound

/-! ## When priority semantics holds -/

/-- No filter matches; or the least priority of the filters that match is not the one that
stands for none, and every filter of that priority has the group and the label of one that
matches. -/
def TiesHarmless (config : DpiConfig) (hostname : List (BitVec 8)) : Prop :=
  (∀ c ∈ config.filters, patternMatches c.hostnamePattern hostname = false) ∨
    ∃ m ∈ config.filters, patternMatches m.hostnamePattern hostname = true ∧
      (∀ c ∈ config.filters, patternMatches c.hostnamePattern hostname = true →
        m.priority ≤ c.priority) ∧
      m.priority ≠ BitVec.allOnes 32 ∧
      ∀ c ∈ config.filters, c.priority = m.priority →
        ∃ m' ∈ config.filters, patternMatches m'.hostnamePattern hostname = true ∧
          m'.priority = c.priority ∧ m'.filterGroup = c.filterGroup ∧ m'.label = c.label

theorem matchesByPriority_of_tiesHarmless (hdoc : hs.Documented)
    (h : compileDpiRuleTable hs sorts config = .ok t) {hostname : List (BitVec 8)}
    (hne : hostname ≠ []) (hnewline : Regex.ascii '\n' ∉ hostname)
    (hties : TiesHarmless config hostname) :
    MatchesByPriority config hostname (t.matchOwn hs hostname) := by
  have hcases := matchOwn_cases hdoc h hne
  simp only [IsBest, filterMatches_of_noNewline hnewline] at hcases
  rcases hcases with ⟨hempty, hall⟩ | ⟨m, c, ⟨hm, hfound, hmin⟩, hlt, hc, hprio, hresult⟩
  · -- a match that is not reported has the priority that stands for none
    have hnone : ¬ ∃ c ∈ config.filters, patternMatches c.hostnamePattern hostname = true := by
      rintro ⟨c, hc, hfound⟩
      rcases hties with hno | ⟨m, hm, hmatch, -, hne, -⟩
      · rw [hno c hc] at hfound
        cases hfound
      · exact hne (hall m hm hmatch)
    rw [hempty]
    refine ⟨⟨fun h ↦ ?_, fun h ↦ absurd h hnone⟩, fun h ↦ ?_⟩
    · cases h
    · cases h
  · rcases hties with hno | ⟨m', hm', hfound', hmin', -, hsame⟩
    · rw [hno m hm] at hfound
      cases hfound
    · have hle : m'.priority = m.priority :=
        BitVec.le_antisymm (hmin' m hm hfound) (hmin m' hm' hfound')
      obtain ⟨m'', hm'', hfound'', hprio'', hgroup, hlabel⟩ := hsame c hc (hprio.trans hle.symm)
      rw [hresult]
      refine ⟨⟨fun _ ↦ ⟨m, hm, hfound⟩, fun _ ↦ rfl⟩, fun _ ↦ ⟨m'', hm'', hfound'', ?_, ?_⟩⟩
      · intro c' hc' hc'found
        rw [hprio'', hprio]
        exact hmin c' hc' hc'found
      · exact ⟨hgroup.symm, hlabel.symm, hprio''.symm⟩

/-- **DPI matching is by priority exactly when ties are harmless.** -/
theorem matchesByPriority_iff (config : DpiConfig)
    (haccepted : ∃ hs sorts t, Hyperscan.Documented hs ∧
      compileDpiRuleTable hs sorts config = .ok t)
    {hostname : List (BitVec 8)} (hne : hostname ≠ []) (hnewline : Regex.ascii '\n' ∉ hostname) :
    (∀ hs sorts t, Hyperscan.Documented hs → compileDpiRuleTable hs sorts config = .ok t →
        MatchesByPriority config hostname (t.matchOwn hs hostname)) ↔
      TiesHarmless config hostname := by
  refine ⟨fun h ↦ ?_, fun hties hs sorts t hdoc ht ↦
    matchesByPriority_of_tiesHarmless hdoc ht hne hnewline hties⟩
  obtain ⟨hs, sorts, t, hdoc, ht⟩ := haccepted
  have hshort := compileDpiRuleTable_short ht
  have hzero := compileDpiRuleTable_noZero hdoc ht
  by_cases hsome : ∃ c ∈ config.filters, filterMatches c hostname = true
  · obtain ⟨m, hm⟩ := exists_isBest hsome
    have hbest := hm
    simp only [IsBest, filterMatches_of_noNewline hnewline] at hbest
    obtain ⟨hmem, hfound, hmin⟩ := hbest
    -- a match of the greatest priority would not be reported
    have hpriority : m.priority ≠ BitVec.allOnes 32 := by
      intro htop
      have hmatched := ((h hs sorts t hdoc ht).1).mpr ⟨m, hmem, hfound⟩
      rcases matchOwn_cases hdoc ht hne with ⟨hempty, -⟩ | ⟨m', -, ⟨hm', hfound', -⟩, hlt, -⟩
      · rw [hempty] at hmatched
        cases hmatched
      · have hle := hm.2.2 m' hm' hfound'
        rw [htop] at hle
        exact absurd hlt (BitVec.not_lt.mpr hle)
    refine .inr ⟨m, hmem, hfound, hmin, hpriority, fun c hc hprio ↦ ?_⟩
    have hlt : m.priority < BitVec.allOnes 32 := by
      rw [← BitVec.not_le]
      exact fun hle ↦ hpriority (BitVec.le_antisymm (DpiRules.le_allOnes _) hle)
    obtain ⟨hs', sorts', t', hdoc', ht', hresult⟩ :=
      exists_match_of_tie hshort hzero hne hm hlt hc hprio.symm
    obtain ⟨m', hm', hfound', -, hgroup, hlabel, hprio'⟩ :=
      (h hs' sorts' t' hdoc' ht').2 (by rw [hresult]; rfl)
    rw [hresult] at hgroup hlabel hprio'
    exact ⟨m', hm', hfound', hprio'.symm, hgroup.symm, hlabel.symm⟩
  · left
    intro c hc
    rw [← filterMatches_of_noNewline hnewline, ← Bool.not_eq_true]
    exact fun hfound ↦ hsome ⟨c, hc, hfound⟩

/-! ### Distinct priorities -/

/-- A domain, and a catch-all behind it. -/
def socialConfig : DpiConfig where
  enabled := true
  filters :=
    [{ hostnamePattern := hostBytes ['*', '.', 'f', 'b', '.', 'c', 'o'], filterGroup := "fg_l7_fb"
       priority := 10, label := "fb" },
     { hostnamePattern := hostBytes ['*'], filterGroup := "fg_l7_other", priority := 999
       label := "other" }]

/-- The sorts of the examples. -/
def plainSorts : DpiSorts := .insertionWith (SortBy.insertion priorityKey)

theorem compile_social (first : Nat) (sorts : DpiSorts) :
    ∃ t, compileDpiRuleTable (.reportingFirst first) sorts socialConfig = .ok t :=
  compile_reportingFirst socialConfig first sorts (by decide) (by decide)

theorem matchesByPriority_social : ∃ t,
    compileDpiRuleTable (.reportingFirst 0) plainSorts socialConfig = .ok t ∧
      MatchesByPriority socialConfig (hostBytes ['M', '.', 'F', 'B', '.', 'c', 'o'])
        (t.matchOwn (.reportingFirst 0) (hostBytes ['M', '.', 'F', 'B', '.', 'c', 'o'])) := by
  obtain ⟨t, ht⟩ := compile_social 0 plainSorts
  have hdoc := Hyperscan.reportingFirst_documented 0
  refine ⟨t, ht, (matchesByPriority_iff socialConfig ⟨_, _, t, hdoc, ht⟩ (by decide)
    (by decide)).mpr ?_ _ _ t hdoc ht⟩
  unfold TiesHarmless
  decide

theorem idsNameFilters_social : ∃ t,
    compileDpiRuleTable (.reportingFirst 0) plainSorts socialConfig = .ok t ∧
      IdsNameFilters plainSorts socialConfig t := by
  obtain ⟨t, ht⟩ := compile_social 0 plainSorts
  exact ⟨t, ht, (idsNameFilters_iff (.reportingFirst 0) socialConfig (compile_social 0)).mpr
    (by decide) _ t ht⟩

/-! ### Ties, and the last priority -/

/-- A sort that turns ties round. -/
def turningTies : SortBy priorityKey where
  sort l := (SortBy.insertion priorityKey).sort l.reverse
  perm l := ((SortBy.insertion priorityKey).perm _).trans l.reverse_perm
  sorted _ := (SortBy.insertion priorityKey).sorted _

/-- Two hosts of one priority. -/
def tiedConfig : DpiConfig where
  enabled := true
  filters :=
    [{ hostnamePattern := hostBytes ['a'], filterGroup := "fg_a", priority := 10 },
     { hostnamePattern := hostBytes ['b'], filterGroup := "fg_b", priority := 10 }]

/-- The identifier of one host is the position of the other. -/
theorem tied_ids_exchanged : ∃ t,
    compileDpiRuleTable (.reportingFirst 0) (.insertionWith turningTies) tiedConfig = .ok t ∧
      ¬ IdsNameFilters (.insertionWith turningTies) tiedConfig t := by
  obtain ⟨t, ht⟩ := compile_reportingFirst tiedConfig 0 (.insertionWith turningTies)
    (by decide) (by decide)
  refine ⟨t, ht, fun h ↦ ?_⟩
  have hfirst := h 0 (compileDpiFilter
    { hostnamePattern := hostBytes ['b'], filterGroup := "fg_b", priority := 10 }) (by decide)
  rw [filters_of_compile ht] at hfirst
  revert hfirst
  decide

/-- A catch-all of the last priority. -/
def lastPriorityConfig : DpiConfig where
  enabled := true
  filters := [{ hostnamePattern := hostBytes ['*'], filterGroup := "fg_l7_other"
                priority := 4294967295 }]

/-- A catch-all of the last priority catches nothing. -/
theorem last_priority_unmatched : ∃ t,
    compileDpiRuleTable (.reportingFirst 0) (.insertionWith (SortBy.insertion priorityKey))
        lastPriorityConfig = .ok t ∧
      ¬ MatchesByPriority lastPriorityConfig (hostBytes ['a'])
        (t.matchOwn (.reportingFirst 0) (hostBytes ['a'])) := by
  obtain ⟨t, ht⟩ := compile_reportingFirst lastPriorityConfig 0
    (.insertionWith (SortBy.insertion priorityKey)) (by decide) (by decide)
  refine ⟨t, ht, fun h ↦ ?_⟩
  have hmatched := h.1.mpr (by decide)
  rcases matchOwn_cases (Hyperscan.reportingFirst_documented 0) ht
      (by decide : hostBytes ['a'] ≠ []) with ⟨hempty, -⟩ | ⟨m, -, hm, hlt, -⟩
  · rw [hempty] at hmatched
    cases hmatched
  · obtain rfl := List.mem_singleton.mp hm.1
    revert hlt
    decide

end DpdkSpi
