import Mathlib.Data.List.Lex
import DpdkSpi.Dpi.Pattern
import DpdkSpi.Lib.FinMap
import DpdkSpi.Lib.Sorting

/-!
# DPI rule tables

`DpiRuleTable`, its constructor, its two matchers and `CompileDpiRuleTable`, after
`dpi_rule_engine.hpp` and `dpi_rule_engine.cpp`.

The pattern library answers through `Hyperscan`, a parameter of what calls it.  What it
promises is `Hyperscan.Documented`: it refuses an expression with an open group, it works only
with a scratch that was allocated for the database, and then it reports exactly the
identifiers of the expressions it finds, in any order and any number of times.  `std::ranges::sort`
is a parameter too, since it leaves open in which order equal elements come.
-/

namespace DpdkSpi

open Lib

/-! ## The pattern library -/

/-- The flags of an expression that the code sets. -/
structure HsFlags where
  caseless : Bool
  dotAll : Bool
  allowEmpty : Bool
deriving DecidableEq, Repr

/-- What the flags mean for a match. -/
def HsFlags.mode (flags : HsFlags) : Regex.Mode (BitVec 8) :=
  if flags.caseless then Regex.caseless flags.dotAll
  else { eqv := Eq, newline := Regex.ascii '\n', dotAll := flags.dotAll }

/-- An expression for `hs_compile_multi`. -/
structure HsExpression where
  pattern : List (BitVec 8)
  flags : HsFlags
  id : Nat
deriving DecidableEq, Repr

/-- The expression is found in a subject. -/
def HsExpression.Finds (e : HsExpression) (subject : List (BitVec 8)) : Prop :=
  ∃ r, Regex.parse e.pattern = some r ∧ r.Finds e.flags.mode subject

/-- `hs_database_t`. -/
structure HsDatabase where
  handle : Nat
  expressions : List HsExpression
deriving DecidableEq, Repr

/-- `hs_scratch_t`, known by the database it was allocated for. -/
structure HsScratch where
  db : HsDatabase
deriving DecidableEq, Repr

/-- The pattern library. -/
structure Hyperscan where
  /-- `hs_compile_multi`: a database, or an error with or without a message. -/
  compileMulti : List HsExpression → Except (Option String) HsDatabase
  /-- `hs_alloc_scratch` on a null pointer. -/
  allocScratch : HsDatabase → Option HsScratch
  /-- `hs_scan`: the identifiers it calls back with, when it succeeds. -/
  scan : HsDatabase → List (BitVec 8) → HsScratch → Option (List Nat)

/-- What the library promises. -/
structure Hyperscan.Documented (hs : Hyperscan) : Prop where
  compiled : ∀ {es db}, hs.compileMulti es = .ok db → db.expressions = es
  refused : ∀ {es db}, hs.compileMulti es = .ok db → ∀ e ∈ es, ¬ Unclosed e.pattern
  allocated : ∀ {db scratch}, hs.allocScratch db = some scratch → scratch.db = db
  foreign : ∀ {db scratch} subject, scratch.db ≠ db → hs.scan db subject scratch = none
  reported : ∀ {db} subject, (∀ e ∈ db.expressions, (Regex.parse e.pattern).isSome) →
    ∃ ids, hs.scan db subject ⟨db⟩ = some ids ∧
      ∀ id, id ∈ ids ↔ ∃ e ∈ db.expressions, e.id = id ∧ e.Finds subject

/-! ## Keys of the fallback -/

/-- `hostname.rfind('.')`, from a length on downwards. -/
def rfindDot (hostname : List (BitVec 8)) : Nat → Option Nat
  | 0 => none
  | i + 1 => if hostname[i]? = some (Regex.ascii '.') then some i else rfindDot hostname i

/-- The loop of `ExtractDomainKey`. -/
def domainStart (hostname : List (BitVec 8)) : Nat → Nat
  | 0 => 0
  | i + 1 => if hostname[i]? = some (Regex.ascii '.') then i + 1 else domainStart hostname i

/-- `ExtractDomainKey`: the last two components of a hostname. -/
def extractDomainKey (hostname : List (BitVec 8)) : List (BitVec 8) :=
  match rfindDot hostname hostname.length with
  | none => []
  | some 0 => []
  | some (lastDot + 1) => hostname.drop (domainStart hostname (lastDot + 1))

/-- `SuffixKeyOf`. -/
def suffixKeyOf (pattern : List (BitVec 8)) : List (BitVec 8) :=
  if suffixMark.isPrefixOf pattern then pattern.drop 2 else []

/-! ## The table -/

/-- `DpiResult`. -/
structure DpiResult where
  filterGroup : String := ""
  label : String := ""
  priority : BitVec 32 := 0
  matched : Bool := false
deriving DecidableEq, Repr

/-- `DpiSuffixEntry`. -/
structure DpiSuffixEntry where
  domain : List (BitVec 8)
  filterIndex : BitVec 16
deriving DecidableEq, Repr

/-- `kNoMatchIdx`, and the mark of a table without a catch-all. -/
def kNoMatchIdx : BitVec 16 := BitVec.allOnes 16

/-- The members of `DpiRuleTable` but for its generation. -/
structure DpiRules where
  filters : List CompiledDpiFilter := []
  exactMap : FinMap (List (BitVec 8)) (BitVec 16) := ∅
  suffixMap : FinMap (List (BitVec 8)) (BitVec 16) := ∅
  exactList : List (List (BitVec 8) × BitVec 16) := []
  suffixList : List DpiSuffixEntry := []
  catchAllIdx : BitVec 16 := kNoMatchIdx
  hsDb : Option HsDatabase := none

/-- `unordered_map::try_emplace`. -/
def tryEmplace (m : FinMap (List (BitVec 8)) (BitVec 16)) (key : List (BitVec 8))
    (idx : BitVec 16) : FinMap (List (BitVec 8)) (BitVec 16) :=
  match m.lookup key with
  | some _ => m
  | none => m.insert key idx

/-- The key of the sort of filters. -/
def priorityKey (f : CompiledDpiFilter) : Nat := f.priority.toNat

/-- The key of the sort of suffix entries. -/
def domainKey (e : DpiSuffixEntry) : List Nat := e.domain.map BitVec.toNat

/-- `std::ranges::sort` at its two uses. -/
structure DpiSorts where
  byPriority : SortBy priorityKey
  byDomain : SortBy domainKey

namespace DpiRules

/-- The body of the loop of the constructor. -/
def indexFilter (t : DpiRules) (f : CompiledDpiFilter) (i : Nat) : DpiRules :=
  let idx := BitVec.ofNat 16 i
  if f.isCatchAll then { t with catchAllIdx := idx }
  else if f.isSuffixMatch then
    let key := suffixKeyOf f.hostnamePattern
    if key = [] then t
    else
      { t with
        suffixList := t.suffixList ++ [{ domain := key, filterIndex := idx }]
        suffixMap := tryEmplace t.suffixMap key idx }
  else
    { t with
      exactList := t.exactList ++ [(f.hostnamePattern, idx)]
      exactMap := tryEmplace t.exactMap f.hostnamePattern idx }

/-- The loop of the constructor, from a position on. -/
def indexFilters : DpiRules → List CompiledDpiFilter → Nat → DpiRules
  | t, [], _ => t
  | t, f :: fs, i => indexFilters (t.indexFilter f i) fs (i + 1)

/-- The constructor. -/
def ofFilters (sorts : DpiSorts) (filters : List CompiledDpiFilter) (hsDb : Option HsDatabase) :
    DpiRules :=
  let sorted := sorts.byPriority.sort filters
  let t := indexFilters { filters := sorted, hsDb } sorted 0
  { t with suffixList := sorts.byDomain.sort t.suffixList }

/-! ## Matching -/

/-- The result for a filter. -/
def resultOf (f : CompiledDpiFilter) : DpiResult where
  filterGroup := f.filterGroup
  label := f.label
  priority := f.priority
  matched := true

/-- `ResultAt`. -/
def resultAt (t : DpiRules) (index : BitVec 16) : DpiResult :=
  (t.filters[index.toNat]?).elim {} resultOf

/-- The linear scan of the suffix entries, which are sorted by domain. -/
def findSuffix (domain : List (BitVec 8)) : List DpiSuffixEntry → Option (BitVec 16)
  | [] => none
  | e :: es =>
      if domain.map BitVec.toNat < domainKey e then none
      else if e.domain = domain then some e.filterIndex
      else findSuffix domain es

/-- The index of the exact match. -/
def exactIndex (t : DpiRules) (hostname : List (BitVec 8)) : Option (BitVec 16) :=
  if 16 < t.exactMap.keys.length then t.exactMap.lookup hostname
  else (t.exactList.find? fun e ↦ hostname = e.1).map Prod.snd

/-- The index of the suffix match. -/
def suffixIndex (t : DpiRules) (hostname : List (BitVec 8)) : Option (BitVec 16) :=
  let domain := extractDomainKey hostname
  if domain = [] then none
  else if 16 < t.suffixMap.keys.length then t.suffixMap.lookup domain
  else findSuffix domain t.suffixList

/-- `MatchFallback`. -/
def matchFallback (t : DpiRules) (hostname : List (BitVec 8)) : DpiResult :=
  if hostname = [] then {}
  else
    match t.exactIndex hostname with
    | some idx => t.resultAt idx
    | none =>
        match t.suffixIndex hostname with
        | some idx => t.resultAt idx
        | none => if t.catchAllIdx ≠ kNoMatchIdx then t.resultAt t.catchAllIdx else {}

/-- `HsMatchContext`.  No filter has the position that stands for none. -/
structure HsMatchContext where
  matchedFilterIdx : Option Nat := none
  bestPriority : BitVec 32 := BitVec.allOnes 32

/-- `OnHyperscanMatch`. -/
def onHyperscanMatch (filters : List CompiledDpiFilter) (context : HsMatchContext) (id : Nat) :
    HsMatchContext :=
  match filters[id]? with
  | none => context
  | some f =>
      if f.priority < context.bestPriority then
        { bestPriority := f.priority, matchedFilterIdx := some id }
      else context

/-- The result of a scan that called back with some identifiers. -/
def scanResult (filters : List CompiledDpiFilter) (ids : List Nat) : DpiResult :=
  ((ids.foldl (onHyperscanMatch filters) {}).matchedFilterIdx.bind (filters[·]?)).elim {} resultOf

/-- `Match` with a scratch. -/
def matchScratch (t : DpiRules) (hs : Hyperscan) (hostname : List (BitVec 8))
    (scratch : Option HsScratch) : DpiResult :=
  if hostname = [] then {}
  else
    match t.hsDb, scratch with
    | some db, some scratch =>
        match hs.scan db hostname scratch with
        | some ids => scanResult t.filters ids
        | none => {}
    | _, _ => t.matchFallback hostname

/-- `Match`, with the scratch of the thread. -/
def matchThread (t : DpiRules) (hs : Hyperscan) (hostname : List (BitVec 8))
    (tlScratch : Option HsScratch) : DpiResult × Option HsScratch :=
  if hostname = [] then ({}, tlScratch)
  else
    match t.hsDb with
    | none => (t.matchFallback hostname, tlScratch)
    | some db =>
        match tlScratch with
        | some scratch => (t.matchScratch hs hostname (some scratch), some scratch)
        | none =>
            match hs.allocScratch db with
            | none => (t.matchFallback hostname, none)
            | some scratch => (t.matchScratch hs hostname (some scratch), some scratch)

/-- `Match` with a scratch of the table's own. -/
def matchOwn (t : DpiRules) (hs : Hyperscan) (hostname : List (BitVec 8)) : DpiResult :=
  t.matchScratch hs hostname (t.hsDb.map HsScratch.mk)

/-- The loop of `FindByFilterGroup`. -/
def findByFilterGroup (t : DpiRules) (name : String) : Option (BitVec 32) :=
  if name = "" then none
  else (t.filters.findIdx? fun f ↦ f.filterGroup = name).map (BitVec.ofNat 32)

end DpiRules

/-! ## Compilation -/

/-- The first loop of `CompileDpiRuleTable`, from a position on. -/
def compileDpiFilters : List DpiFilterConfig → Nat → Except String (List CompiledDpiFilter)
  | [], _ => .ok []
  | config :: configs, i =>
      if 64 ≤ config.hostnamePattern.length then
        .error ("dpi.filters[" ++ Nat.repr i ++ "].hostname_pattern too long")
      else
        match compileDpiFilters configs (i + 1) with
        | .error e => .error e
        | .ok filters => .ok (compileDpiFilter config :: filters)

/-- The expressions of the sorted filters, each under its position. -/
def hsExpressions (filters : List CompiledDpiFilter) : List HsExpression :=
  filters.mapIdx fun i f ↦
    { pattern := cStr (regexOf f)
      flags := { caseless := true, dotAll := true, allowEmpty := true }
      id := i }

/-- `CompileDpiRuleTable`. -/
def compileDpiRuleTable (hs : Hyperscan) (sorts : DpiSorts) (config : DpiConfig) :
    Except String DpiRules :=
  match compileDpiFilters config.filters 0 with
  | .error e => .error e
  | .ok filters =>
      let sorted := sorts.byPriority.sort filters
      if sorted = [] then .ok (DpiRules.ofFilters sorts sorted none)
      else
        match hs.compileMulti (hsExpressions sorted) with
        | .error message =>
            .error ("Hyperscan compilation failed: " ++
              message.getD "Unknown Hyperscan compile error")
        | .ok db => .ok (DpiRules.ofFilters sorts sorted (some db))

/-! ## What is compiled -/

theorem compileDpiFilters_ok {configs : List DpiFilterConfig} {i : Nat}
    {filters : List CompiledDpiFilter} (h : compileDpiFilters configs i = .ok filters) :
    filters = configs.map compileDpiFilter := by
  induction configs generalizing i filters with
  | nil =>
      cases h
      rfl
  | cons config configs ih =>
      rw [compileDpiFilters] at h
      split at h
      · cases h
      · split at h
        · cases h
        · rename_i rest hrest
          cases h
          rw [List.map_cons, ih hrest]

/-- The first loop accepts patterns that fit into their array. -/
theorem compileDpiFilters_ok_iff {configs : List DpiFilterConfig} {i : Nat} :
    compileDpiFilters configs i = .ok (configs.map compileDpiFilter) ↔
      ∀ c ∈ configs, c.hostnamePattern.length < 64 := by
  induction configs generalizing i with
  | nil => simp [compileDpiFilters]
  | cons config configs ih =>
      rw [compileDpiFilters, List.forall_mem_cons, List.map_cons]
      by_cases hlong : 64 ≤ config.hostnamePattern.length
      · rw [if_pos hlong]
        refine ⟨?_, fun h ↦ absurd h.1 (Nat.not_lt.mpr hlong)⟩
        intro h
        cases h
      · rw [if_neg hlong, ← ih (i := i + 1)]
        cases hrest : compileDpiFilters configs (i + 1) with
        | error e => simp
        | ok filters => simp [compileDpiFilters_ok hrest, Nat.not_le.mp hlong]

/-- What the constructor is given when a list of filters is accepted. -/
theorem compileDpiRuleTable_ok {hs : Hyperscan} {sorts : DpiSorts} {config : DpiConfig}
    {t : DpiRules} (h : compileDpiRuleTable hs sorts config = .ok t) :
    ∃ hsDb, t = DpiRules.ofFilters sorts
        (sorts.byPriority.sort (config.filters.map compileDpiFilter)) hsDb ∧
      ((hsDb = none ∧ config.filters = []) ∨ ∃ db, hsDb = some db ∧
        hs.compileMulti
          (hsExpressions (sorts.byPriority.sort (config.filters.map compileDpiFilter))) =
            .ok db) := by
  unfold compileDpiRuleTable at h
  split at h
  · cases h
  · rename_i filters hfilters
    rw [compileDpiFilters_ok hfilters] at h
    dsimp only at h
    split at h
    · rename_i hnil
      have hempty : config.filters = [] := by
        have hlen := sorts.byPriority.length_sort (config.filters.map compileDpiFilter)
        rw [hnil, List.length_map] at hlen
        exact List.length_eq_zero_iff.mp hlen.symm
      cases h
      exact ⟨none, rfl, .inl ⟨rfl, hempty⟩⟩
    · split at h
      · cases h
      · rename_i db hdb
        cases h
        exact ⟨some db, rfl, .inr ⟨db, rfl, hdb⟩⟩

/-- **Every pattern of an accepted list fits into its array.** -/
theorem compileDpiRuleTable_short {hs : Hyperscan} {sorts : DpiSorts} {config : DpiConfig}
    {t : DpiRules} (h : compileDpiRuleTable hs sorts config = .ok t) :
    ∀ c ∈ config.filters, c.hostnamePattern.length < 64 := by
  unfold compileDpiRuleTable at h
  split at h
  · cases h
  · rename_i filters hfilters
    rw [compileDpiFilters_ok hfilters] at hfilters
    exact compileDpiFilters_ok_iff.mp hfilters

/-- **No pattern of an accepted list has a zero byte.** -/
theorem compileDpiRuleTable_noZero {hs : Hyperscan} (hdoc : hs.Documented) {sorts : DpiSorts}
    {config : DpiConfig} {t : DpiRules} (h : compileDpiRuleTable hs sorts config = .ok t) :
    ∀ c ∈ config.filters, 0 ∉ c.hostnamePattern := by
  intro c hc hzero
  obtain ⟨hsDb, -, ⟨-, hempty⟩ | ⟨db, -, hdb⟩⟩ := compileDpiRuleTable_ok h
  · rw [hempty] at hc
    cases hc
  · have hmem : compileDpiFilter c ∈
        sorts.byPriority.sort (config.filters.map compileDpiFilter) :=
      sorts.byPriority.mem_sort.mpr (List.mem_map_of_mem hc)
    obtain ⟨i, hi, hget⟩ := List.getElem_of_mem hmem
    refine hdoc.refused hdb _ (List.mem_mapIdx.mpr ⟨i, hi, rfl⟩) ?_
    rw [hget]
    exact unclosed_of_zero hzero

namespace DpiRules

/-! ## What the constructor keeps -/

theorem indexFilter_frame (t : DpiRules) (f : CompiledDpiFilter) (i : Nat) :
    (t.indexFilter f i).filters = t.filters ∧ (t.indexFilter f i).hsDb = t.hsDb := by
  unfold indexFilter
  dsimp only
  split
  · exact ⟨rfl, rfl⟩
  · split
    · split
      · exact ⟨rfl, rfl⟩
      · exact ⟨rfl, rfl⟩
    · exact ⟨rfl, rfl⟩

theorem indexFilters_frame (t : DpiRules) (fs : List CompiledDpiFilter) (i : Nat) :
    (t.indexFilters fs i).filters = t.filters ∧ (t.indexFilters fs i).hsDb = t.hsDb := by
  induction fs generalizing t i with
  | nil => exact ⟨rfl, rfl⟩
  | cons f fs ih =>
      obtain ⟨hfilters, hdb⟩ := t.indexFilter_frame f i
      obtain ⟨hfilters', hdb'⟩ := ih (t.indexFilter f i) (i + 1)
      exact ⟨hfilters'.trans hfilters, hdb'.trans hdb⟩

@[simp] theorem ofFilters_filters (sorts : DpiSorts) (filters : List CompiledDpiFilter)
    (hsDb : Option HsDatabase) :
    (ofFilters sorts filters hsDb).filters = sorts.byPriority.sort filters :=
  (indexFilters_frame _ _ _).1

@[simp] theorem ofFilters_hsDb (sorts : DpiSorts) (filters : List CompiledDpiFilter)
    (hsDb : Option HsDatabase) : (ofFilters sorts filters hsDb).hsDb = hsDb :=
  (indexFilters_frame _ _ _).2

/-! ## Where a match goes -/

variable {t : DpiRules} {hs : Hyperscan} {hostname : List (BitVec 8)}

theorem matchScratch_of_db {db : HsDatabase} (hdb : t.hsDb = some db) (hne : hostname ≠ [])
    (scratch : HsScratch) :
    t.matchScratch hs hostname (some scratch) =
      (hs.scan db hostname scratch).elim {} (scanResult t.filters) := by
  unfold matchScratch
  simp only [if_neg hne, hdb]
  cases hs.scan db hostname scratch with
  | none => rfl
  | some ids => rfl

theorem matchScratch_of_none (hdb : t.hsDb = none) (scratch : Option HsScratch) :
    t.matchScratch hs hostname scratch = t.matchFallback hostname := by
  unfold matchScratch
  rw [hdb]
  split
  · rename_i hempty
    rw [matchFallback, if_pos hempty]
  · rfl

@[simp] theorem matchFallback_nil : t.matchFallback [] = {} := rfl

@[simp] theorem matchScratch_nil (scratch : Option HsScratch) :
    t.matchScratch hs [] scratch = {} := by
  unfold matchScratch
  rw [if_pos rfl]

@[simp] theorem matchOwn_nil : t.matchOwn hs [] = {} := matchScratch_nil _

theorem matchOwn_of_db {db : HsDatabase} (hdb : t.hsDb = some db) (hne : hostname ≠ []) :
    t.matchOwn hs hostname = (hs.scan db hostname ⟨db⟩).elim {} (scanResult t.filters) := by
  rw [matchOwn, hdb]
  exact matchScratch_of_db hdb hne ⟨db⟩

theorem matchOwn_of_none (hdb : t.hsDb = none) :
    t.matchOwn hs hostname = t.matchFallback hostname :=
  matchScratch_of_none hdb _

end DpiRules

end DpdkSpi
