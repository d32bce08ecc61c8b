import DpdkSpi.Dpi.Match

/-!
# The fallback matcher

`MatchFallback` looks for an exact match, then for the entry of the last two labels of the
hostname, then for a catch-all, each through an index of 16 bits.  The other matcher takes the
least priority of all filters that match.  The two agree exactly when the filter of least
priority is the one that the fallback comes to (`fallbackAgrees_iff`).

The indexes of the constructor are described first: the hash maps and the lists hold the same
entries (`indexFilters_eq`), so that an exact match does not depend on which of them is used,
and a suffix match does only when two filters have one domain.
-/

namespace DpdkSpi

open Lib

/-! ## What the constructor indexes -/

/-- The key of an exact match. -/
def exactKey (f : CompiledDpiFilter) : Option (List (BitVec 8)) :=
  if f.isCatchAll || f.isSuffixMatch then none else some f.hostnamePattern

/-- The key of a suffix match. -/
def suffixKey (f : CompiledDpiFilter) : Option (List (BitVec 8)) :=
  if f.isCatchAll || !f.isSuffixMatch || suffixKeyOf f.hostnamePattern = [] then none
  else some (suffixKeyOf f.hostnamePattern)

/-- The entries of the filters that have a key, from a position on. -/
def entriesOf (key : CompiledDpiFilter → Option (List (BitVec 8))) :
    List CompiledDpiFilter → Nat → List (List (BitVec 8) × BitVec 16)
  | [], _ => []
  | f :: fs, i =>
      match key f with
      | some k => (k, BitVec.ofNat 16 i) :: entriesOf key fs (i + 1)
      | none => entriesOf key fs (i + 1)

/-- An entry of the list of suffix matches. -/
def suffixEntry (e : List (BitVec 8) × BitVec 16) : DpiSuffixEntry where
  domain := e.1
  filterIndex := e.2

/-- The index of the last catch-all, from a position on. -/
def lastCatchAll : BitVec 16 → List CompiledDpiFilter → Nat → BitVec 16
  | idx, [], _ => idx
  | idx, f :: fs, i => lastCatchAll (if f.isCatchAll then BitVec.ofNat 16 i else idx) fs (i + 1)

/-- One `try_emplace` after the other. -/
def emplaceAll (m : FinMap (List (BitVec 8)) (BitVec 16))
    (entries : List (List (BitVec 8) × BitVec 16)) : FinMap (List (BitVec 8)) (BitVec 16) :=
  entries.foldl (fun m e ↦ tryEmplace m e.1 e.2) m

/-- **What the loop of the constructor builds.** -/
theorem indexFilters_eq (t : DpiRules) (fs : List CompiledDpiFilter) (i : Nat) :
    t.indexFilters fs i =
      { t with
        exactList := t.exactList ++ entriesOf exactKey fs i
        exactMap := emplaceAll t.exactMap (entriesOf exactKey fs i)
        suffixList := t.suffixList ++ (entriesOf suffixKey fs i).map suffixEntry
        suffixMap := emplaceAll t.suffixMap (entriesOf suffixKey fs i)
        catchAllIdx := lastCatchAll t.catchAllIdx fs i } := by
  induction fs generalizing t i with
  | nil => simp [DpiRules.indexFilters, entriesOf, lastCatchAll, emplaceAll]
  | cons f fs ih =>
      rw [DpiRules.indexFilters, ih, DpiRules.indexFilter, entriesOf, entriesOf, lastCatchAll]
      by_cases hcatch : f.isCatchAll = true
      · simp [hcatch, exactKey, suffixKey]
      · by_cases hsuffix : f.isSuffixMatch = true
        · by_cases hkey : suffixKeyOf f.hostnamePattern = []
          · simp [hcatch, hsuffix, hkey, exactKey, suffixKey]
          · simp [hcatch, hsuffix, hkey, exactKey, suffixKey, emplaceAll, suffixEntry]
        · simp [hcatch, hsuffix, exactKey, suffixKey, emplaceAll]

/-! ## Maps and lists -/

theorem lookup_tryEmplace (m : FinMap (List (BitVec 8)) (BitVec 16)) (key : List (BitVec 8))
    (idx : BitVec 16) (k : List (BitVec 8)) :
    (tryEmplace m key idx).lookup k = (m.lookup k).or (if key = k then some idx else none) := by
  unfold tryEmplace
  cases hkey : m.lookup key with
  | some old =>
      by_cases hk : key = k
      · subst hk
        simp [hkey]
      · simp [hk]
  | none =>
      by_cases hk : key = k
      · subst hk
        simp [hkey]
      · rw [AList.lookup_insert_ne (Ne.symm hk)]
        simp [hk]

/-- A map that is filled with `try_emplace` answers with the first entry. -/
theorem lookup_emplaceAll (m : FinMap (List (BitVec 8)) (BitVec 16))
    (entries : List (List (BitVec 8) × BitVec 16)) (k : List (BitVec 8)) :
    (emplaceAll m entries).lookup k =
      (m.lookup k).or ((entries.find? fun e ↦ e.1 = k).map Prod.snd) := by
  induction entries generalizing m with
  | nil => simp [emplaceAll]
  | cons e entries ih =>
      have hstep : emplaceAll m (e :: entries) = emplaceAll (tryEmplace m e.1 e.2) entries := rfl
      rw [hstep, ih, lookup_tryEmplace, Option.or_assoc]
      by_cases hk : e.1 = k
      · simp [hk]
      · simp [hk]

/-- The number of its keys. -/
theorem length_keys_emplaceAll (entries : List (List (BitVec 8) × BitVec 16)) :
    (emplaceAll ∅ entries).keys.length = (entries.map Prod.fst).toFinset.card := by
  have hkeys : (emplaceAll ∅ entries).keys.toFinset = (entries.map Prod.fst).toFinset := by
    ext k
    rw [List.mem_toFinset, List.mem_toFinset, ← AList.mem_keys, ← AList.lookup_isSome,
      lookup_emplaceAll, AList.lookup_empty, Option.none_or, Option.isSome_map,
      List.find?_isSome, List.mem_map]
    simp
  rw [← hkeys, List.toFinset_card_of_nodup (AList.keys_nodup _)]

/-- The linear scan of sorted entries finds the first one of the domain. -/
theorem findSuffix_eq {entries : List DpiSuffixEntry} {domain : List (BitVec 8)}
    (h : entries.Pairwise fun e e' ↦ domainKey e ≤ domainKey e') :
    DpiRules.findSuffix domain entries =
      (entries.find? fun e ↦ e.domain = domain).map DpiSuffixEntry.filterIndex := by
  induction entries with
  | nil => rfl
  | cons e entries ih =>
      obtain ⟨hle, hrest⟩ := List.pairwise_cons.mp h
      rw [DpiRules.findSuffix]
      by_cases hlt : domain.map BitVec.toNat < domainKey e
      · -- the entries behind are greater still
        rw [if_pos hlt, List.find?_eq_none.mpr]
        · rfl
        · intro e' he' hdomain
          have hkey : domainKey e' = domain.map BitVec.toNat := by
            rw [domainKey, of_decide_eq_true hdomain]
          rcases List.mem_cons.mp he' with rfl | he'
          · exact absurd hkey.symm (ne_of_lt hlt)
          · exact absurd hkey.symm (ne_of_lt (lt_of_lt_of_le hlt (hle e' he')))
      · rw [if_neg hlt]
        by_cases hdomain : e.domain = domain
        · simp [hdomain]
        · simp [hdomain, ih hrest]

/-! ## Positions of entries -/

section Entries

variable {key : CompiledDpiFilter → Option (List (BitVec 8))}

/-- The first entry with a key is that of the first filter with it. -/
theorem find_entriesOf (key : CompiledDpiFilter → Option (List (BitVec 8))) (k : List (BitVec 8))
    (fs : List CompiledDpiFilter) (i : Nat) :
    ((entriesOf key fs i).find? fun e ↦ e.1 = k).map Prod.snd =
      (fs.findIdx? (key · = some k)).map fun j ↦ BitVec.ofNat 16 (j + i) := by
  induction fs generalizing i with
  | nil => rfl
  | cons f fs ih =>
      have hrest : ((entriesOf key fs (i + 1)).find? fun e ↦ e.1 = k).map Prod.snd =
          Option.map ((fun j ↦ BitVec.ofNat 16 (j + i)) ∘ fun j ↦ j + 1)
            (fs.findIdx? (key · = some k)) := by
        rw [ih]
        congr 1
        funext j
        simp [Nat.add_comm 1, Nat.add_assoc]
      rw [entriesOf, List.findIdx?_cons]
      cases hkey : key f with
      | none => simpa using hrest
      | some k' =>
          by_cases hk : k' = k
          · subst hk
            simp
          · simpa [hk] using hrest

/-- The entries. -/
theorem mem_entriesOf {fs : List CompiledDpiFilter} {i : Nat} {e : List (BitVec 8) × BitVec 16} :
    e ∈ entriesOf key fs i ↔
      ∃ j f, fs[j]? = some f ∧ key f = some e.1 ∧ e.2 = BitVec.ofNat 16 (j + i) := by
  induction fs generalizing i with
  | nil => simp [entriesOf]
  | cons f fs ih =>
      have hcons : (∃ j g, (f :: fs)[j]? = some g ∧ key g = some e.1 ∧
          e.2 = BitVec.ofNat 16 (j + i)) ↔
          (key f = some e.1 ∧ e.2 = BitVec.ofNat 16 i) ∨ e ∈ entriesOf key fs (i + 1) := by
        rw [ih]
        constructor
        · rintro ⟨_ | j, g, hg, hkey, hidx⟩
          · cases hg
            exact .inl ⟨hkey, by simpa using hidx⟩
          · exact .inr ⟨j, g, hg, hkey, by rw [hidx]; congr 1; omega⟩
        · rintro (⟨hkey, hidx⟩ | ⟨j, g, hg, hkey, hidx⟩)
          · exact ⟨0, f, rfl, hkey, by simpa using hidx⟩
          · exact ⟨j + 1, g, hg, hkey, by rw [hidx]; congr 1; omega⟩
      rw [hcons, entriesOf]
      cases hkey : key f with
      | none => simp
      | some k' =>
          rw [List.mem_cons, Option.some.injEq, Prod.ext_iff, eq_comm (a := k')]

end Entries

/-- Without a catch-all nothing is kept. -/
theorem lastCatchAll_of_none {fs : List CompiledDpiFilter} (h : ∀ f ∈ fs, f.isCatchAll = false)
    (idx : BitVec 16) (i : Nat) : lastCatchAll idx fs i = idx := by
  induction fs generalizing idx i with
  | nil => rfl
  | cons f fs ih =>
      obtain ⟨hf, hfs⟩ := List.forall_mem_cons.mp h
      rw [lastCatchAll, ih hfs, hf]
      rfl

/-- The position of the last catch-all. -/
def IsLastCatchAll (fs : List CompiledDpiFilter) (j : Nat) : Prop :=
  (∃ f, fs[j]? = some f ∧ f.isCatchAll = true) ∧
    ∀ j' f, j < j' → fs[j']? = some f → f.isCatchAll = false

theorem lastCatchAll_eq {fs : List CompiledDpiFilter} {j : Nat} (h : IsLastCatchAll fs j)
    (idx : BitVec 16) (i : Nat) : lastCatchAll idx fs i = BitVec.ofNat 16 (j + i) := by
  induction fs generalizing idx i j with
  | nil =>
      obtain ⟨⟨f, hf, -⟩, -⟩ := h
      cases hf
  | cons f fs ih =>
      rw [lastCatchAll]
      obtain ⟨⟨g, hg, hcatch⟩, hlast⟩ := h
      cases j with
      | zero =>
          cases hg
          rw [lastCatchAll_of_none, if_pos hcatch, Nat.zero_add]
          intro g hg
          obtain ⟨j', hj'⟩ := List.getElem?_of_mem hg
          exact hlast (j' + 1) g (Nat.succ_pos _) hj'
      | succ j =>
          rw [ih (j := j) ⟨⟨g, hg, hcatch⟩, fun j' g' hlt hg' ↦
            hlast (j' + 1) g' (Nat.succ_lt_succ hlt) hg'⟩]
          congr 1
          omega

theorem exists_isLastCatchAll {fs : List CompiledDpiFilter} (h : ∃ f ∈ fs, f.isCatchAll = true) :
    ∃ j, IsLastCatchAll fs j := by
  induction fs with
  | nil =>
      obtain ⟨f, hf, -⟩ := h
      cases hf
  | cons f fs ih =>
      by_cases hrest : ∃ g ∈ fs, g.isCatchAll = true
      · obtain ⟨j, ⟨g, hg, hcatch⟩, hlast⟩ := ih hrest
        refine ⟨j + 1, ⟨g, hg, hcatch⟩, ?_⟩
        rintro (_ | j') g' hlt hg'
        · cases hlt
        · exact hlast j' g' (Nat.lt_of_succ_lt_succ hlt) hg'
      · obtain ⟨g, hg, hcatch⟩ := h
        rcases List.mem_cons.mp hg with rfl | hg
        · refine ⟨0, ⟨g, rfl, hcatch⟩, ?_⟩
          rintro (_ | j') g' hlt hg'
          · cases hlt
          · rw [← Bool.not_eq_true]
            exact fun htrue ↦ hrest ⟨g', List.mem_of_getElem? hg', htrue⟩
        · exact absurd ⟨g, hg, hcatch⟩ hrest

/-! ## Where the fallback comes to -/

/-- The number of domains of suffix matches. -/
def domainCount (fs : List CompiledDpiFilter) : Nat :=
  ((entriesOf suffixKey fs 0).map Prod.fst).toFinset.card

/-- The positions of filters, in the order of priority, that the fallback can come to. -/
inductive FallbackAt (fs : List CompiledDpiFilter) (hostname : List (BitVec 8)) : Nat → Prop
  /-- The first exact match. -/
  | exact {i : Nat} (h : fs.findIdx? (exactKey · = some hostname) = some i) :
      FallbackAt fs hostname i
  /-- Without one and with many domains, the first filter of the domain. -/
  | firstSuffix {i : Nat} (hexact : fs.findIdx? (exactKey · = some hostname) = none)
      (hmany : 16 < domainCount fs)
      (h : fs.findIdx? (suffixKey · = some (extractDomainKey hostname)) = some i) :
      FallbackAt fs hostname i
  /-- With few domains, any filter of the domain. -/
  | anySuffix {i : Nat} {f : CompiledDpiFilter}
      (hexact : fs.findIdx? (exactKey · = some hostname) = none) (hfew : domainCount fs ≤ 16)
      (hf : fs[i]? = some f) (h : suffixKey f = some (extractDomainKey hostname)) :
      FallbackAt fs hostname i
  /-- Without a filter of the domain, the last catch-all, if its index is not the mark of
  none. -/
  | catchAll {i : Nat} (hexact : fs.findIdx? (exactKey · = some hostname) = none)
      (hsuffix : ∀ f ∈ fs, suffixKey f ≠ some (extractDomainKey hostname))
      (h : IsLastCatchAll fs i) (hmark : BitVec.ofNat 16 i ≠ kNoMatchIdx) :
      FallbackAt fs hostname i

section Constructed

variable {sorts : DpiSorts} {filters : List CompiledDpiFilter} {hsDb : Option HsDatabase}
  {hostname : List (BitVec 8)}

theorem suffixKey_ne_nil {f : CompiledDpiFilter} {k : List (BitVec 8)} (h : suffixKey f = some k) :
    k ≠ [] := by
  unfold suffixKey at h
  split at h
  · cases h
  · rename_i hkey
    cases h
    simp only [Bool.or_eq_true, decide_eq_true_eq, not_or] at hkey
    exact hkey.2

/-- The table that is constructed. -/
theorem ofFilters_eq {fs : List CompiledDpiFilter} (hfs : sorts.byPriority.sort filters = fs) :
    DpiRules.ofFilters sorts filters hsDb =
      { filters := fs
        exactList := entriesOf exactKey fs 0
        exactMap := emplaceAll ∅ (entriesOf exactKey fs 0)
        suffixList := sorts.byDomain.sort ((entriesOf suffixKey fs 0).map suffixEntry)
        suffixMap := emplaceAll ∅ (entriesOf suffixKey fs 0)
        catchAllIdx := lastCatchAll kNoMatchIdx fs 0
        hsDb := hsDb } := by
  subst hfs
  unfold DpiRules.ofFilters
  dsimp only
  rw [indexFilters_eq]
  simp only [List.nil_append]

theorem exactIndex_ofFilters : (DpiRules.ofFilters sorts filters hsDb).exactIndex hostname =
    ((sorts.byPriority.sort filters).findIdx? (exactKey · = some hostname)).map
      (BitVec.ofNat 16) := by
  have hfind := find_entriesOf exactKey hostname (sorts.byPriority.sort filters) 0
  simp only [Nat.add_zero] at hfind
  rw [ofFilters_eq rfl, DpiRules.exactIndex]
  split
  · rw [lookup_emplaceAll, AList.lookup_empty, Option.none_or]
    exact hfind
  · simp only [eq_comm (a := hostname)]
    exact hfind

theorem suffixIndex_ofFilters : (DpiRules.ofFilters sorts filters hsDb).suffixIndex hostname =
    if 16 < domainCount (sorts.byPriority.sort filters) then
      ((sorts.byPriority.sort filters).findIdx?
        (suffixKey · = some (extractDomainKey hostname))).map (BitVec.ofNat 16)
    else
      ((sorts.byDomain.sort ((entriesOf suffixKey (sorts.byPriority.sort filters) 0).map
        suffixEntry)).find? fun e ↦ e.domain = extractDomainKey hostname).map
          DpiSuffixEntry.filterIndex := by
  generalize hfs : sorts.byPriority.sort filters = fs
  have hfind := find_entriesOf suffixKey (extractDomainKey hostname) fs 0
  simp only [Nat.add_zero] at hfind
  rw [ofFilters_eq hfs, DpiRules.suffixIndex]
  dsimp only
  rw [length_keys_emplaceAll, ← domainCount, lookup_emplaceAll, AList.lookup_empty,
    Option.none_or, hfind, findSuffix_eq (sorts.byDomain.sorted _)]
  split
  · -- a hostname without a domain is not looked up, and nothing has the empty domain
    rename_i hempty
    have hnone : fs.findIdx? (suffixKey · = some (extractDomainKey hostname)) = none := by
      rw [List.findIdx?_eq_none_iff]
      intro f _
      rw [decide_eq_false_iff_not, hempty]
      exact fun h ↦ suffixKey_ne_nil h rfl
    have hnone' : (sorts.byDomain.sort ((entriesOf suffixKey fs 0).map suffixEntry)).find?
        (fun e ↦ e.domain = extractDomainKey hostname) = none := by
      rw [List.find?_eq_none]
      intro e he
      obtain ⟨p, hp, rfl⟩ := List.mem_map.mp (sorts.byDomain.mem_sort.mp he)
      obtain ⟨j, f, -, hkey, -⟩ := mem_entriesOf.mp hp
      rw [decide_eq_true_eq, hempty]
      exact suffixKey_ne_nil hkey
    rw [hnone, hnone']
    simp
  · rfl

theorem catchAllIdx_ofFilters : (DpiRules.ofFilters sorts filters hsDb).catchAllIdx =
    lastCatchAll kNoMatchIdx (sorts.byPriority.sort filters) 0 := by
  rw [ofFilters_eq rfl]

/-- The outcome, when there is a hostname. -/
theorem matchFallback_eq {t : DpiRules} (hne : hostname ≠ []) :
    t.matchFallback hostname =
      (((t.exactIndex hostname).or (t.suffixIndex hostname)).or
        (if t.catchAllIdx ≠ kNoMatchIdx then some t.catchAllIdx else none)).elim {} t.resultAt := by
  unfold DpiRules.matchFallback
  rw [if_neg hne]
  cases t.exactIndex hostname with
  | some idx => rfl
  | none =>
      cases t.suffixIndex hostname with
      | some idx => rfl
      | none =>
          dsimp only
          split
          · rfl
          · rfl

theorem findIdx?_suffix_eq_none {fs : List CompiledDpiFilter} {k : List (BitVec 8)} :
    fs.findIdx? (suffixKey · = some k) = none ↔ ∀ f ∈ fs, suffixKey f ≠ some k := by
  rw [List.findIdx?_eq_none_iff]
  simp

/-- An entry that is found in the list is that of a filter. -/
theorem entry_of_find {fs : List CompiledDpiFilter} {k : List (BitVec 8)} {e : DpiSuffixEntry}
    (h : (sorts.byDomain.sort ((entriesOf suffixKey fs 0).map suffixEntry)).find?
      (fun e ↦ e.domain = k) = some e) :
    ∃ i f, fs[i]? = some f ∧ suffixKey f = some k ∧ e.filterIndex = BitVec.ofNat 16 i := by
  obtain ⟨p, hp, rfl⟩ :=
    List.mem_map.mp (sorts.byDomain.mem_sort.mp (List.mem_of_find?_eq_some h))
  obtain ⟨i, f, hf, hkey, hidx⟩ := mem_entriesOf.mp hp
  have hdomain := List.find?_some h
  rw [decide_eq_true_eq] at hdomain
  exact ⟨i, f, hf, by rw [hkey]; exact congrArg some hdomain, hidx⟩

theorem find_eq_none_of_suffix (sorts : DpiSorts) {fs : List CompiledDpiFilter}
    {k : List (BitVec 8)} :
    (sorts.byDomain.sort ((entriesOf suffixKey fs 0).map suffixEntry)).find?
      (fun e ↦ e.domain = k) = none ↔ ∀ f ∈ fs, suffixKey f ≠ some k := by
  rw [List.find?_eq_none]
  constructor
  · intro h f hf hkey
    obtain ⟨i, hi⟩ := List.getElem?_of_mem hf
    refine h (suffixEntry (k, BitVec.ofNat 16 i)) ?_ (by simp [suffixEntry])
    exact sorts.byDomain.mem_sort.mpr
      (List.mem_map_of_mem (mem_entriesOf.mpr ⟨i, f, hi, hkey, rfl⟩))
  · intro h e he hdomain
    obtain ⟨p, hp, rfl⟩ := List.mem_map.mp (sorts.byDomain.mem_sort.mp he)
    obtain ⟨i, f, hf, hkey, -⟩ := mem_entriesOf.mp hp
    rw [decide_eq_true_eq] at hdomain
    exact h f (List.mem_of_getElem? hf) (hkey.trans (congrArg some hdomain))

/-- The entry that a table finds for the domain of a hostname. -/
theorem suffixIndex_cases (sorts : DpiSorts) (filters : List CompiledDpiFilter)
    (hsDb : Option HsDatabase) (hostname : List (BitVec 8)) :
    (∃ i, (DpiRules.ofFilters sorts filters hsDb).suffixIndex hostname = some (BitVec.ofNat 16 i) ∧
        ((16 < domainCount (sorts.byPriority.sort filters) ∧
            (sorts.byPriority.sort filters).findIdx?
              (suffixKey · = some (extractDomainKey hostname)) = some i) ∨
          domainCount (sorts.byPriority.sort filters) ≤ 16 ∧
            ∃ f, (sorts.byPriority.sort filters)[i]? = some f ∧
              suffixKey f = some (extractDomainKey hostname))) ∨
      (DpiRules.ofFilters sorts filters hsDb).suffixIndex hostname = none ∧
        ∀ f ∈ sorts.byPriority.sort filters, suffixKey f ≠ some (extractDomainKey hostname) := by
  rw [suffixIndex_ofFilters]
  generalize sorts.byPriority.sort filters = fs
  by_cases hmany : 16 < domainCount fs
  · rw [if_pos hmany]
    cases hfind : fs.findIdx? (suffixKey · = some (extractDomainKey hostname)) with
    | some i => exact .inl ⟨i, rfl, .inl ⟨hmany, rfl⟩⟩
    | none => exact .inr ⟨rfl, findIdx?_suffix_eq_none.mp hfind⟩
  · rw [if_neg hmany]
    cases hfind : (sorts.byDomain.sort ((entriesOf suffixKey fs 0).map suffixEntry)).find?
        fun e ↦ e.domain = extractDomainKey hostname with
    | some e =>
        obtain ⟨i, f, hf, hkey, hidx⟩ := entry_of_find hfind
        exact .inl ⟨i, congrArg some hidx, .inr ⟨Nat.not_lt.mp hmany, f, hf, hkey⟩⟩
    | none => exact .inr ⟨rfl, (find_eq_none_of_suffix sorts).mp hfind⟩

/-- **Where the fallback comes to**, in a table of any sorts. -/
theorem matchFallback_cases (sorts : DpiSorts) (filters : List CompiledDpiFilter)
    (hsDb : Option HsDatabase) (hne : hostname ≠ []) :
    (∃ i, FallbackAt (sorts.byPriority.sort filters) hostname i ∧
        (DpiRules.ofFilters sorts filters hsDb).matchFallback hostname =
          (DpiRules.ofFilters sorts filters hsDb).resultAt (BitVec.ofNat 16 i)) ∨
      (∀ i, ¬ FallbackAt (sorts.byPriority.sort filters) hostname i) ∧
        (DpiRules.ofFilters sorts filters hsDb).matchFallback hostname = {} := by
  rw [matchFallback_eq hne, exactIndex_ofFilters, catchAllIdx_ofFilters]
  have hsuffixes := suffixIndex_cases sorts filters hsDb hostname
  generalize hfs : sorts.byPriority.sort filters = fs at hsuffixes ⊢
  cases hexact : fs.findIdx? (exactKey · = some hostname) with
  | some i => exact .inl ⟨i, .exact hexact, rfl⟩
  | none =>
      rcases hsuffixes with ⟨i, hidx, ⟨hmany, hfind⟩ | ⟨hfew, f, hf, hkey⟩⟩ | ⟨hidx, hsuffix⟩
      · rw [hidx]
        exact .inl ⟨i, .firstSuffix hexact hmany hfind, rfl⟩
      · rw [hidx]
        exact .inl ⟨i, .anySuffix hexact hfew hf hkey, rfl⟩
      · rw [hidx]
        -- only a catch-all is left
        have hcatch : ∀ i, FallbackAt fs hostname i →
            IsLastCatchAll fs i ∧ BitVec.ofNat 16 i ≠ kNoMatchIdx := by
          intro i hi
          cases hi with
          | exact h => cases hexact.symm.trans h
          | firstSuffix _ _ h =>
              rw [findIdx?_suffix_eq_none.mpr hsuffix] at h
              cases h
          | anySuffix _ _ hf h => exact absurd h (hsuffix _ (List.mem_of_getElem? hf))
          | catchAll _ _ h hmark => exact ⟨h, hmark⟩
        by_cases hsome : ∃ f ∈ fs, f.isCatchAll = true
        · obtain ⟨j, hj⟩ := exists_isLastCatchAll hsome
          have hlast : ∀ i, IsLastCatchAll fs i →
              lastCatchAll kNoMatchIdx fs 0 = BitVec.ofNat 16 i :=
            fun i hi ↦ lastCatchAll_eq hi kNoMatchIdx 0
          by_cases hmark : BitVec.ofNat 16 j = kNoMatchIdx
          · refine .inr ⟨fun i hi ↦ (hcatch i hi).2 ?_, ?_⟩
            · rw [← hlast i (hcatch i hi).1, hlast j hj, hmark]
            · rw [hlast j hj, hmark]
              rfl
          · refine .inl ⟨j, .catchAll hexact hsuffix hj hmark, ?_⟩
            rw [hlast j hj, if_pos hmark]
            rfl
        · have hnone : ∀ f ∈ fs, f.isCatchAll = false := by
            intro f hf
            rw [← Bool.not_eq_true]
            exact fun h ↦ hsome ⟨f, hf, h⟩
          refine .inr ⟨fun i hi ↦ ?_, ?_⟩
          · obtain ⟨⟨f, hf, hcatch⟩, -⟩ := (hcatch i hi).1
            exact hsome ⟨f, List.mem_of_getElem? hf, hcatch⟩
          · rw [lastCatchAll_of_none hnone]
            rfl

end Constructed

/-- Any entry of a domain can come first. -/
theorem exists_entry_first {entries : List (List (BitVec 8) × BitVec 16)}
    {p : List (BitVec 8) × BitVec 16} (hp : p ∈ entries) :
    ∃ byDomain : SortBy domainKey,
      (byDomain.sort (entries.map suffixEntry)).find? (fun e ↦ e.domain = p.1) =
        some (suffixEntry p) := by
  obtain ⟨byDomain, hfirst⟩ := (SortBy.insertion domainKey).exists_first
    (List.mem_map_of_mem (f := suffixEntry) hp)
  have hkey : ∀ e : DpiSuffixEntry, domainKey e = domainKey (suffixEntry p) ↔ e.domain = p.1 := by
    intro e
    unfold domainKey suffixEntry
    exact List.map_inj_right fun _ _ h ↦ BitVec.eq_of_toNat_eq h
  simp only [hkey] at hfirst
  exact ⟨byDomain, hfirst⟩

/-- **Every position it can come to is reached** with some order of the ties between
domains. -/
theorem exists_matchFallback (byPriority : SortBy priorityKey) (filters : List CompiledDpiFilter)
    {hostname : List (BitVec 8)} (hne : hostname ≠ []) {i : Nat}
    (h : FallbackAt (byPriority.sort filters) hostname i) :
    ∃ byDomain, ∀ hsDb,
      (DpiRules.ofFilters ⟨byPriority, byDomain⟩ filters hsDb).matchFallback hostname =
        (DpiRules.ofFilters ⟨byPriority, byDomain⟩ filters hsDb).resultAt (BitVec.ofNat 16 i) := by
  cases h with
  | exact h =>
      refine ⟨SortBy.insertion domainKey, fun hsDb ↦ ?_⟩
      rw [matchFallback_eq hne, exactIndex_ofFilters]
      dsimp only
      rw [h]
      rfl
  | firstSuffix hexact hmany h =>
      refine ⟨SortBy.insertion domainKey, fun hsDb ↦ ?_⟩
      rw [matchFallback_eq hne, exactIndex_ofFilters, suffixIndex_ofFilters]
      dsimp only
      rw [hexact, if_pos hmany, h]
      rfl
  | anySuffix hexact hfew hf h =>
      have hmem : (extractDomainKey hostname, BitVec.ofNat 16 (i + 0)) ∈
          entriesOf suffixKey (byPriority.sort filters) 0 := mem_entriesOf.mpr ⟨i, _, hf, h, rfl⟩
      obtain ⟨byDomain, hfirst⟩ := exists_entry_first hmem
      refine ⟨byDomain, fun hsDb ↦ ?_⟩
      rw [matchFallback_eq hne, exactIndex_ofFilters, suffixIndex_ofFilters]
      dsimp only at hfirst ⊢
      rw [hexact, if_neg (Nat.not_lt.mpr hfew), hfirst]
      rfl
  | catchAll hexact hsuffix h hmark =>
      refine ⟨SortBy.insertion domainKey, fun hsDb ↦ ?_⟩
      rw [matchFallback_eq hne, exactIndex_ofFilters, suffixIndex_ofFilters,
        catchAllIdx_ofFilters]
      dsimp only
      have hfind := (find_eq_none_of_suffix ⟨byPriority, SortBy.insertion domainKey⟩).mpr hsuffix
      rw [hexact, findIdx?_suffix_eq_none.mpr hsuffix, hfind, lastCatchAll_eq h]
      simp [hmark]

/-! ## Everything the fallback comes to is a match -/

/-- The loop of `ExtractDomainKey` stops behind a dot. -/
theorem domainStart_spec (hostname : List (BitVec 8)) (n : Nat) :
    domainStart hostname n = 0 ∨ ∃ k, domainStart hostname n = k + 1 ∧
      hostname[k]? = some (Regex.ascii '.') := by
  induction n with
  | zero => exact .inl rfl
  | succ n ih =>
      rw [domainStart]
      split
      · rename_i hdot
        exact .inr ⟨n, rfl, hdot⟩
      · exact ih

/-- A hostname is under its own domain. -/
theorem underDomain_extractDomainKey {hostname : List (BitVec 8)}
    (h : extractDomainKey hostname ≠ []) :
    underDomain (extractDomainKey hostname) hostname = true := by
  unfold extractDomainKey at h ⊢
  split at h
  · exact absurd rfl h
  · exact absurd rfl h
  · rename_i lastDot hlast
    rw [underDomain_iff]
    rcases domainStart_spec hostname (lastDot + 1) with hstart | ⟨k, hstart, hdot⟩
    · exact ⟨[], [], hostname, rfl, .inl ⟨rfl, rfl⟩, by rw [hstart]; simp [sameIgnoringCase]⟩
    · refine ⟨hostname.take k, [Regex.ascii '.'], hostname.drop (k + 1), ?_, .inr rfl, ?_⟩
      · obtain ⟨hk, hget⟩ := List.getElem?_eq_some_iff.mp hdot
        rw [List.append_assoc, ← hget, List.singleton_append, List.getElem_cons_drop,
          List.take_append_drop]
      · rw [hstart]
        simp [sameIgnoringCase]

/-- The pattern of a filter matches a hostname, or it without a final newline. -/
def foundIn (hostname : List (BitVec 8)) (f : CompiledDpiFilter) : Bool :=
  (readings hostname).any (patternMatches f.hostnamePattern)

theorem foundIn_compiled {c : DpiFilterConfig} (hzero : 0 ∉ c.hostnamePattern)
    (hostname : List (BitVec 8)) :
    foundIn hostname (compileDpiFilter c) = filterMatches c hostname := by
  rw [foundIn, filterMatches, compileDpiFilter, strncpy_of_noZero hzero]

theorem foundIn_of_patternMatches {f : CompiledDpiFilter} {hostname : List (BitVec 8)}
    (h : patternMatches f.hostnamePattern hostname = true) : foundIn hostname f = true :=
  List.any_eq_true.mpr ⟨hostname, mem_readings.mpr (.inl rfl), h⟩

/-- What the fallback comes to is found by the other matcher too. -/
theorem foundIn_of_fallbackAt {config : DpiConfig} {fs : List CompiledDpiFilter}
    (hfs : ∀ f ∈ fs, ∃ c ∈ config.filters, compileDpiFilter c = f)
    (hzero : ∀ c ∈ config.filters, 0 ∉ c.hostnamePattern) {hostname : List (BitVec 8)} {i : Nat}
    (h : FallbackAt fs hostname i) : ∃ f, fs[i]? = some f ∧ foundIn hostname f = true := by
  have hexactly : ∀ f ∈ fs, exactKey f = some hostname → foundIn hostname f = true := by
    intro f hf hkey
    obtain ⟨c, hc, rfl⟩ := hfs f hf
    refine foundIn_of_patternMatches ?_
    unfold exactKey at hkey
    split at hkey
    · cases hkey
    · rename_i hflags
      rw [Option.some.injEq] at hkey
      simp only [compileDpiFilter, strncpy_of_noZero (hzero c hc), Bool.or_eq_true,
        decide_eq_true_eq, not_or] at hflags hkey ⊢
      rw [patternMatches, if_neg hflags.1, if_neg hflags.2, hkey]
      simp [sameIgnoringCase]
  have hsuffix : ∀ f ∈ fs, suffixKey f = some (extractDomainKey hostname) →
      foundIn hostname f = true := by
    intro f hf hkey
    obtain ⟨c, hc, rfl⟩ := hfs f hf
    refine foundIn_of_patternMatches ?_
    have hne := suffixKey_ne_nil hkey
    unfold suffixKey at hkey
    split at hkey
    · cases hkey
    · rename_i hflags
      rw [Option.some.injEq] at hkey
      simp only [compileDpiFilter, strncpy_of_noZero (hzero c hc), Bool.or_eq_true,
        decide_eq_true_eq, not_or, Bool.not_eq_true', Bool.not_eq_false] at hflags hkey ⊢
      rw [suffixKeyOf, if_pos hflags.1.2] at hkey
      rw [patternMatches, if_neg hflags.1.1, if_pos hflags.1.2, hkey]
      exact underDomain_extractDomainKey hne
  cases h with
  | exact h =>
      obtain ⟨hlt, hkey, -⟩ := List.findIdx?_eq_some_iff_getElem.mp h
      exact ⟨_, List.getElem?_eq_getElem hlt,
        hexactly _ (List.getElem_mem hlt) (of_decide_eq_true hkey)⟩
  | firstSuffix _ _ h =>
      obtain ⟨hlt, hkey, -⟩ := List.findIdx?_eq_some_iff_getElem.mp h
      exact ⟨_, List.getElem?_eq_getElem hlt,
        hsuffix _ (List.getElem_mem hlt) (of_decide_eq_true hkey)⟩
  | anySuffix _ _ hf h => exact ⟨_, hf, hsuffix _ (List.mem_of_getElem? hf) h⟩
  | catchAll _ _ h _ =>
      obtain ⟨⟨f, hf, hcatch⟩, -⟩ := h
      obtain ⟨c, hc, rfl⟩ := hfs f (List.mem_of_getElem? hf)
      refine ⟨_, hf, foundIn_of_patternMatches ?_⟩
      simp only [compileDpiFilter, strncpy_of_noZero (hzero c hc), decide_eq_true_eq] at hcatch ⊢
      rw [patternMatches, if_pos hcatch]

/-! ## When the two matchers agree -/

/-- The filters in the order of priority. -/
def ordered (config : DpiConfig) : List CompiledDpiFilter :=
  (SortBy.insertion priorityKey).sort (config.filters.map compileDpiFilter)

/-- Nothing matches; or whatever the fallback can come to has the index, in 16 bits, of the
first filter that matches. -/
def FallbackReachesBest (config : DpiConfig) (hostname : List (BitVec 8)) : Prop :=
  hostname = [] ∨ (ordered config).findIdx? (foundIn hostname) = none ∨
    ∃ p, (ordered config).findIdx? (foundIn hostname) = some p ∧
      (∃ i, FallbackAt (ordered config) hostname i) ∧
      ∀ i, FallbackAt (ordered config) hostname i → i % 65536 = p

section Distinct

variable {hs : Hyperscan} {sorts : DpiSorts} {config : DpiConfig} {t : DpiRules}
  {hostname : List (BitVec 8)}

theorem mem_ordered {f : CompiledDpiFilter} :
    f ∈ ordered config ↔ ∃ c ∈ config.filters, compileDpiFilter c = f := by
  rw [ordered, SortBy.mem_sort, List.mem_map]

theorem mem_ordered_priority (hdistinct : (config.filters.map DpiFilterConfig.priority).Nodup) :
    ((ordered config).map CompiledDpiFilter.priority).Nodup := by
  have hperm : ((ordered config).map CompiledDpiFilter.priority).Perm
      (config.filters.map DpiFilterConfig.priority) := by
    refine (((SortBy.insertion priorityKey).perm _).map _).trans ?_
    rw [List.map_map]
    exact List.Perm.refl _
  exact hperm.nodup_iff.mpr hdistinct

/-- Distinct priorities leave nothing to the sort. -/
theorem sort_eq_ordered (hdistinct : (config.filters.map DpiFilterConfig.priority).Nodup)
    (s : SortBy priorityKey) {l : List CompiledDpiFilter}
    (hl : l.Perm (config.filters.map compileDpiFilter)) : s.sort l = ordered config := by
  refine s.sort_eq (SortBy.insertion priorityKey) hl fun x hx y hy hkey ↦ ?_
  obtain ⟨c, hc, rfl⟩ := List.mem_map.mp (hl.mem_iff.mp hx)
  obtain ⟨c', hc', rfl⟩ := List.mem_map.mp (hl.mem_iff.mp hy)
  rw [List.inj_on_of_nodup_map hdistinct hc hc' (BitVec.eq_of_toNat_eq hkey)]

/-- The table is constructed from the filters in the order of priority. -/
theorem compiled_eq (hdistinct : (config.filters.map DpiFilterConfig.priority).Nodup)
    (h : compileDpiRuleTable hs sorts config = .ok t) :
    ∃ hsDb, t = DpiRules.ofFilters sorts (ordered config) hsDb ∧
      sorts.byPriority.sort (ordered config) = ordered config := by
  obtain ⟨hsDb, rfl, -⟩ := compileDpiRuleTable_ok h
  refine ⟨hsDb, ?_, sort_eq_ordered hdistinct _ ((SortBy.insertion priorityKey).perm _)⟩
  rw [sort_eq_ordered hdistinct sorts.byPriority (List.Perm.refl _)]

/-- **The other matcher**: the first filter that matches, in the order of priority. -/
theorem matchOwn_eq_find (hdoc : hs.Documented) (h : compileDpiRuleTable hs sorts config = .ok t)
    (hdistinct : (config.filters.map DpiFilterConfig.priority).Nodup)
    (hlast : ∀ c ∈ config.filters, c.priority ≠ BitVec.allOnes 32) (hne : hostname ≠ []) :
    t.matchOwn hs hostname =
      ((ordered config).find? (foundIn hostname)).elim {} DpiRules.resultOf := by
  have hzero := compileDpiRuleTable_noZero hdoc h
  have hfound : ∀ c ∈ config.filters,
      foundIn hostname (compileDpiFilter c) = filterMatches c hostname :=
    fun c hc ↦ foundIn_compiled (hzero c hc) hostname
  rcases matchOwn_cases hdoc h hne with
    ⟨hempty, hall⟩ | ⟨m, c, ⟨hm, hmatch, hmin⟩, -, hc, hprio, hresult⟩
  · have hnone : (ordered config).find? (foundIn hostname) = none := by
      rw [List.find?_eq_none]
      intro f hf hfoundf
      obtain ⟨c, hc, rfl⟩ := mem_ordered.mp hf
      rw [hfound c hc] at hfoundf
      exact hlast c hc (hall c hc hfoundf)
    rw [hempty, hnone]
    rfl
  · obtain rfl := List.inj_on_of_nodup_map hdistinct hc hm hprio
    have hmem : compileDpiFilter c ∈ ordered config := mem_ordered.mpr ⟨c, hc, rfl⟩
    cases hfind : (ordered config).find? (foundIn hostname) with
    | none =>
        refine absurd (List.find?_eq_none.mp hfind _ hmem) ?_
        rw [hfound c hc, hmatch]
        simp
    | some f =>
        -- nothing before the first match is as good, and nothing is better than the best
        obtain ⟨hf, before, behind, hsplit, hbefore⟩ := List.find?_eq_some_iff_append.mp hfind
        have hfmem : f ∈ ordered config := List.mem_of_find?_eq_some hfind
        obtain ⟨c', hc', rfl⟩ := mem_ordered.mp hfmem
        have hle : c'.priority ≤ c.priority := by
          have hsorted :=
            (SortBy.insertion priorityKey).sorted (config.filters.map compileDpiFilter)
          rw [← ordered, hsplit, List.pairwise_append, List.pairwise_cons] at hsorted
          rw [hsplit, List.mem_append, List.mem_cons] at hmem
          rcases hmem with hmem | hmem | hmem
          · have hno := hbefore _ hmem
            rw [hfound c hc, hmatch] at hno
            cases hno
          · have hsame := congrArg CompiledDpiFilter.priority hmem
            change c.priority = c'.priority at hsame
            rw [hsame]
            exact BitVec.le_refl _
          · exact hsorted.2.1.1 _ hmem
        rw [hfound c' hc'] at hf
        have hsame : c' = c := List.inj_on_of_nodup_map hdistinct hc' hc
          (BitVec.le_antisymm hle (hmin c' hc' hf))
        rw [hresult, hsame]
        rfl

/-- A result names a position. -/
theorem resultAt_eq_iff (hdistinct : (config.filters.map DpiFilterConfig.priority).Nodup)
    (ht : t.filters = ordered config) {i p : Nat} {f g : CompiledDpiFilter}
    (hi : (ordered config)[i]? = some f) (hp : (ordered config)[p]? = some g) :
    t.resultAt (BitVec.ofNat 16 i) = DpiRules.resultOf g ↔ i % 65536 = p := by
  have hlt : i % 65536 < (ordered config).length :=
    lt_of_le_of_lt (Nat.mod_le _ _) (List.getElem?_eq_some_iff.mp hi).1
  have hresult : t.resultAt (BitVec.ofNat 16 i) =
      DpiRules.resultOf ((ordered config)[i % 65536]) := by
    rw [DpiRules.resultAt, ht, BitVec.toNat_ofNat, List.getElem?_eq_getElem hlt]
    rfl
  rw [hresult]
  obtain ⟨hplt, rfl⟩ := List.getElem?_eq_some_iff.mp hp
  constructor
  · intro h
    have hprio : (ordered config)[i % 65536].priority = (ordered config)[p].priority :=
      congrArg DpiResult.priority h
    have hnodup := mem_ordered_priority hdistinct
    rw [List.nodup_iff_injective_get] at hnodup
    have hsame := @hnodup ⟨i % 65536, by simpa using hlt⟩ ⟨p, by simpa using hplt⟩
      (by simpa using hprio)
    exact congrArg Fin.val hsame
  · rintro rfl
    rfl

/-- What the fallback of a compiled table comes to. -/
theorem matchFallback_compiled (hdistinct : (config.filters.map DpiFilterConfig.priority).Nodup)
    (ht : compileDpiRuleTable hs sorts config = .ok t) (hne : hostname ≠ []) :
    t.filters = ordered config ∧
      ((∃ i, FallbackAt (ordered config) hostname i ∧
          t.matchFallback hostname = t.resultAt (BitVec.ofNat 16 i)) ∨
        (∀ i, ¬ FallbackAt (ordered config) hostname i) ∧ t.matchFallback hostname = {}) := by
  obtain ⟨hsDb, rfl, hsort⟩ := compiled_eq hdistinct ht
  have hcases := matchFallback_cases sorts (ordered config) hsDb hne
  rw [hsort] at hcases
  exact ⟨(DpiRules.ofFilters_filters sorts (ordered config) hsDb).trans hsort, hcases⟩

/-- Whatever the fallback can come to, it comes to with some order of the domains. -/
theorem exists_compiled_fallback
    (hdistinct : (config.filters.map DpiFilterConfig.priority).Nodup)
    (hshort : ∀ c ∈ config.filters, c.hostnamePattern.length < 64)
    (hzero : ∀ c ∈ config.filters, 0 ∉ c.hostnamePattern)
    (hne : hostname ≠ []) {i : Nat} (hi : FallbackAt (ordered config) hostname i) :
    ∃ hs sorts t, Hyperscan.Documented hs ∧ compileDpiRuleTable hs sorts config = .ok t ∧
      t.filters = ordered config ∧
        t.matchFallback hostname = t.resultAt (BitVec.ofNat 16 i) := by
  have hsorted : (SortBy.insertion priorityKey).sort (ordered config) = ordered config :=
    sort_eq_ordered hdistinct _ ((SortBy.insertion priorityKey).perm _)
  obtain ⟨byDomain, hfallback⟩ := exists_matchFallback (SortBy.insertion priorityKey)
    (ordered config) hne (hsorted.symm ▸ hi)
  obtain ⟨t, ht⟩ := compile_reportingFirst config 0 ⟨SortBy.insertion priorityKey, byDomain⟩
    hshort hzero
  obtain ⟨hfilters, -⟩ := matchFallback_compiled hdistinct ht hne
  refine ⟨_, _, t, Hyperscan.reportingFirst_documented 0, ht, hfilters, ?_⟩
  obtain ⟨hsDb, rfl, -⟩ := compiled_eq hdistinct ht
  exact hfallback hsDb

end Distinct

/-- The element at the first position. -/
theorem find?_of_findIdx? {fs : List CompiledDpiFilter} {q : CompiledDpiFilter → Bool} {p : Nat}
    (h : fs.findIdx? q = some p) : ∃ f, fs[p]? = some f ∧ fs.find? q = some f := by
  obtain ⟨hlt, hq, hbefore⟩ := List.findIdx?_eq_some_iff_getElem.mp h
  refine ⟨_, List.getElem?_eq_getElem hlt, List.find?_eq_some_iff_getElem.mpr ⟨hq, p, hlt, rfl, ?_⟩⟩
  intro j hj
  simpa using hbefore j hj

/-- **The fallback agrees with the other matcher exactly when it reaches the best filter.** -/
theorem fallbackAgrees_iff (config : DpiConfig)
    (haccepted : ∃ hs sorts t, Hyperscan.Documented hs ∧
      compileDpiRuleTable hs sorts config = .ok t)
    (hdistinct : (config.filters.map DpiFilterConfig.priority).Nodup)
    (hlast : ∀ c ∈ config.filters, c.priority ≠ BitVec.allOnes 32) (hostname : List (BitVec 8)) :
    (∀ hs sorts t, Hyperscan.Documented hs → compileDpiRuleTable hs sorts config = .ok t →
        t.matchFallback hostname = t.matchOwn hs hostname) ↔
      FallbackReachesBest config hostname := by
  obtain ⟨hs₀, sorts₀, t₀, hdoc₀, ht₀⟩ := haccepted
  have hzero := compileDpiRuleTable_noZero hdoc₀ ht₀
  by_cases hne : hostname = []
  · subst hne
    refine ⟨fun _ ↦ .inl rfl, fun _ hs sorts t _ _ ↦ ?_⟩
    rw [DpiRules.matchFallback_nil, DpiRules.matchOwn_nil]
  have hreach : ∀ i, FallbackAt (ordered config) hostname i →
      ∃ f, (ordered config)[i]? = some f ∧ foundIn hostname f = true :=
    fun i ↦ foundIn_of_fallbackAt (fun f ↦ mem_ordered.mp) hzero
  cases hbest : (ordered config).findIdx? (foundIn hostname) with
  | none =>
      -- the fallback finds nothing either
      refine ⟨fun _ ↦ .inr (.inl hbest), fun _ hs sorts t hdoc ht ↦ ?_⟩
      have hnone : ∀ f ∈ ordered config, foundIn hostname f = false :=
        List.findIdx?_eq_none_iff.mp hbest
      rw [matchOwn_eq_find hdoc ht hdistinct hlast hne,
        List.find?_eq_none.mpr fun f hf ↦ Bool.eq_false_iff.mp (hnone f hf)]
      obtain ⟨-, ⟨i, hi, -⟩ | ⟨-, hempty⟩⟩ := matchFallback_compiled hdistinct ht hne
      · obtain ⟨f, hf, hfound⟩ := hreach i hi
        rw [hnone f (List.mem_of_getElem? hf)] at hfound
        cases hfound
      · exact hempty
  | some p =>
      obtain ⟨g, hp, hfind⟩ := find?_of_findIdx? hbest
      have hown : ∀ {hs sorts t}, Hyperscan.Documented hs →
          compileDpiRuleTable hs sorts config = .ok t →
          t.matchOwn hs hostname = DpiRules.resultOf g := by
        intro hs sorts t hdoc ht
        rw [matchOwn_eq_find hdoc ht hdistinct hlast hne, hfind]
        rfl
      constructor
      · intro h
        refine .inr (.inr ⟨p, hbest, ?_, fun i hi ↦ ?_⟩)
        · have hagrees := (h hs₀ sorts₀ t₀ hdoc₀ ht₀).trans (hown hdoc₀ ht₀)
          obtain ⟨-, ⟨i, hi, -⟩ | ⟨-, hempty⟩⟩ := matchFallback_compiled hdistinct ht₀ hne
          · exact ⟨i, hi⟩
          · rw [hempty] at hagrees
            exact absurd (congrArg DpiResult.matched hagrees) Bool.false_ne_true
        · obtain ⟨f, hf, -⟩ := hreach i hi
          obtain ⟨hs, sorts, t, hdoc, ht, hfilters, hfallback⟩ := exists_compiled_fallback hdistinct
            (compileDpiRuleTable_short ht₀) hzero hne hi
          have hagrees := (h hs sorts t hdoc ht).trans (hown hdoc ht)
          rw [hfallback] at hagrees
          exact (resultAt_eq_iff hdistinct hfilters hf hp).mp hagrees
      · rintro (h | h | ⟨p', hbest', ⟨i₀, hi₀⟩, hall⟩) hs sorts t hdoc ht
        · exact absurd h hne
        · cases hbest.symm.trans h
        · cases hbest.symm.trans hbest'
          obtain ⟨hfilters, ⟨i, hi, hfallback⟩ | ⟨hnone, -⟩⟩ :=
            matchFallback_compiled hdistinct ht hne
          · obtain ⟨f, hf, -⟩ := hreach i hi
            rw [hown hdoc ht, hfallback]
            exact (resultAt_eq_iff hdistinct hfilters hf hp).mpr (hall i hi)
          · exact absurd hi₀ (hnone i₀)

/-- A host under a domain, with nothing before it. -/
theorem fallbackAgrees_social : ∃ t,
    compileDpiRuleTable (.reportingFirst 0) plainSorts socialConfig = .ok t ∧
      t.matchFallback (hostBytes ['m', '.', 'f', 'b', '.', 'c', 'o']) =
        t.matchOwn (.reportingFirst 0) (hostBytes ['m', '.', 'f', 'b', '.', 'c', 'o']) := by
  obtain ⟨t, ht⟩ := compile_social 0 plainSorts
  have hdoc := Hyperscan.reportingFirst_documented 0
  refine ⟨t, ht, (fallbackAgrees_iff socialConfig ⟨_, _, t, hdoc, ht⟩ (by decide) (by decide)
    _).mpr ?_ _ _ t hdoc ht⟩
  have hexact : (ordered socialConfig).findIdx?
      (exactKey · = some (hostBytes ['m', '.', 'f', 'b', '.', 'c', 'o'])) = none := by decide
  refine .inr (.inr ⟨0, by decide, ⟨0, .anySuffix hexact (by decide) rfl (by decide)⟩, ?_⟩)
  intro i hi
  cases hi with
  | exact h => cases hexact.symm.trans h
  | firstSuffix _ hmany _ => exact absurd hmany (by decide)
  | anySuffix _ _ hf h =>
      match i with
      | 0 => rfl
      | 1 =>
          cases hf
          exact absurd h (by decide)
      | _ + 2 => cases hf
  | catchAll _ hsuffix _ _ => exact absurd hsuffix (by decide)

/-- A domain, and a host under it that has an own filter behind. -/
def shadowedConfig : DpiConfig where
  enabled := true
  filters :=
    [{ hostnamePattern := hostBytes ['*', '.', 'f', 'b', '.', 'c', 'o'], filterGroup := "fg_l7_fb"
       priority := 10, label := "fb" },
     { hostnamePattern := hostBytes ['m', '.', 'f', 'b', '.', 'c', 'o'], filterGroup := "fg_l7_m"
       priority := 20, label := "m" }]

/-- The fallback takes the exact match although the domain comes first. -/
theorem shadowed_fallback_differs : ∃ t,
    compileDpiRuleTable (.reportingFirst 0) (.insertionWith (SortBy.insertion priorityKey))
        shadowedConfig = .ok t ∧
      t.matchFallback (hostBytes ['m', '.', 'f', 'b', '.', 'c', 'o']) ≠
        t.matchOwn (.reportingFirst 0) (hostBytes ['m', '.', 'f', 'b', '.', 'c', 'o']) := by
  obtain ⟨t, ht⟩ := compile_reportingFirst shadowedConfig 0
    (.insertionWith (SortBy.insertion priorityKey)) (by decide) (by decide)
  refine ⟨t, ht, ?_⟩
  rw [matchOwn_eq_find (Hyperscan.reportingFirst_documented 0) ht (by decide) (by decide)
    (by decide)]
  obtain ⟨hsDb, rfl, -⟩ := compiled_eq (by decide) ht
  rw [matchFallback_eq (by decide), exactIndex_ofFilters]
  have hexact : ((DpiSorts.insertionWith (SortBy.insertion priorityKey)).byPriority.sort
      (ordered shadowedConfig)).findIdx?
        (exactKey · = some (hostBytes ['m', '.', 'f', 'b', '.', 'c', 'o'])) = some 1 := by decide
  rw [hexact]
  intro h
  have hprio := congrArg DpiResult.priority h
  revert hprio
  rw [Option.map_some, Option.some_or, Option.some_or, Option.elim_some, DpiRules.resultAt,
    DpiRules.ofFilters_filters]
  decide

end DpdkSpi
