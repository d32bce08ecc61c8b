import DpdkSpi.Rule.Tss

/-!
# Searches for raw bytes

`ProbeTss` compares the sixteen bytes of the key it is given with the bytes in the slots: a key
may have any byte where its protocol should be.  A search finds the first filter with the key among
the first 128 filters that fix the whole 5-tuple, also when there are more of them than slots
(`probeTss_exact`).
-/

namespace DpdkSpi.TssIndex

open Lib RuleTable

/-! ## Filters that fix the whole 5-tuple -/

/-- The filters of a group that fix the whole 5-tuple. -/
def specifiedIn (group : CompiledFilterGroup) (filters : List CompiledFilter) :
    List (CompiledFilterGroup × CompiledFilter) :=
  (filters.filter isTssEligible).map fun filter ↦ (group, filter)

/-- The filters that fix the whole 5-tuple, in the order of the groups and then of the filters. -/
def specifiedFilters (groups : List CompiledFilterGroup) :
    List (CompiledFilterGroup × CompiledFilter) :=
  groups.flatMap fun group ↦ specifiedIn group group.filters

/-- The entry of a filter that fixes the whole 5-tuple. -/
def entryOf (e : CompiledFilterGroup × CompiledFilter) : FlowKey × BitVec 32 :=
  (filterKey e.2, e.1.categoryIndex)

theorem filterMap_tssEntry {group : CompiledFilterGroup} (hgroup : group.categoryIndex ≠ kNoTssHit)
    (filters : List CompiledFilter) :
    filters.filterMap (tssEntry group) = (specifiedIn group filters).map entryOf := by
  rw [specifiedIn, List.map_map, ← List.filterMap_eq_map, List.filterMap_filter]
  congr 1
  funext filter
  rw [tssEntry_eq group hgroup]
  rfl

/-- Where no group has the mark of a free slot as its index, each of these filters has an entry. -/
theorem tssEntries_eq_map {groups : List CompiledFilterGroup}
    (hgroups : ∀ group ∈ groups, group.categoryIndex ≠ kNoTssHit) :
    tssEntries groups = (specifiedFilters groups).map entryOf := by
  rw [tssEntries, specifiedFilters, List.map_flatMap]
  exact List.flatMap_congr fun group hgroup ↦ filterMap_tssEntry (hgroups group hgroup) _

/-! ## What a search answers -/

/-- The first value among some entries, by the position of the first one with the key. -/
theorem firstValue_take {specified : List (CompiledFilterGroup × CompiledFilter)} {key : TssKey}
    {i : Nat} {group : CompiledFilterGroup} {filter : CompiledFilter}
    (hi : specified[i]? = some (group, filter)) (hkey : (filterKey filter).bytes = key)
    (hbefore : ∀ j < i, ∀ e, specified[j]? = some e → (filterKey e.2).bytes ≠ key) (n : Nat) :
    Slots.firstValue (((specified.map entryOf).map byteEntry).take n) key =
      if i < n then some group.categoryIndex else none := by
  rw [List.map_map, ← List.map_take, Slots.firstValue, List.find?_map, Option.map_map]
  split
  · rename_i hlt
    have hfind : (specified.take n).find? ((fun e ↦ decide (e.1 = key)) ∘ byteEntry ∘ entryOf) =
        some (group, filter) := by
      refine List.find?_eq_some_iff_getElem.mpr ⟨decide_eq_true hkey, i, ?_⟩
      obtain ⟨hlen, hget⟩ := List.getElem?_eq_some_iff.mp hi
      refine ⟨by rw [List.length_take]; omega, by rw [List.getElem_take, hget], fun j hj ↦ ?_⟩
      have hne := hbefore j hj _ (List.getElem?_eq_getElem (hj.trans hlen))
      rw [List.getElem_take, Bool.not_eq_true']
      exact decide_eq_false hne
    rw [hfind]
    rfl
  · rename_i hge
    have hfind :
        (specified.take n).find? ((fun e ↦ decide (e.1 = key)) ∘ byteEntry ∘ entryOf) = none := by
      refine List.find?_eq_none.mpr fun e he ↦ ?_
      obtain ⟨j, hj, rfl⟩ := List.getElem_of_mem he
      rw [List.length_take] at hj
      have hne := hbefore j (by omega) _ (List.getElem?_eq_getElem (by omega))
      rw [List.getElem_take]
      exact fun htrue ↦ hne (of_decide_eq_true htrue)
    rw [hfind]
    rfl

/-- **What `ProbeTss` answers** after `BuildTssFromGroups` on fresh slots: the group of the first
filter that fixes the whole 5-tuple to the key, if it is among the first 128 of these filters. -/
theorem probeTss_exact (crc : TssKey → BitVec 32) (x : TssIndex) (hfresh : x.tss = fun _ ↦ {})
    (groups : List CompiledFilterGroup) (hcount : groups.length < 2 ^ 32 - 1)
    (hcategory : ∀ (i : Nat) group, groups[i]? = some group →
      group.categoryIndex = BitVec.ofNat 32 i) (key : TssKey) :
    (∀ (i : Nat) group filter, (specifiedFilters groups)[i]? = some (group, filter) →
        (filterKey filter).bytes = key →
        (∀ j < i, ∀ e, (specifiedFilters groups)[j]? = some e → (filterKey e.2).bytes ≠ key) →
        (x.buildTssFromGroups crc groups).probeTss crc key =
          if i < kTssCapacity then group.categoryIndex else kNoTssHit) ∧
      ((∀ e ∈ specifiedFilters groups, (filterKey e.2).bytes ≠ key) →
        (x.buildTssFromGroups crc groups).probeTss crc key = kNoTssHit) := by
  have hgroups : ∀ group ∈ groups, group.categoryIndex ≠ kNoTssHit := by
    intro group hgroup
    obtain ⟨i, hi⟩ := List.getElem?_of_mem hgroup
    have hlt := (List.getElem?_eq_some_iff.mp hi).1
    rw [hcategory i group hi]
    intro hmark
    have hnat := congrArg BitVec.toNat hmark
    rw [BitVec.toNat_ofNat, Nat.mod_eq_of_lt (by omega), kNoTssHit, BitVec.toNat_allOnes] at hnat
    omega
  have hprobe := (holds_buildTssFromGroups crc hfresh groups).probeTss_eq key
  rw [tssEntries_eq_map hgroups] at hprobe
  constructor
  · intro i group filter hi hkey hbefore
    rw [hprobe, firstValue_take hi hkey hbefore]
    split
    · rfl
    · rfl
  · intro hnone
    have hfind : ((((specifiedFilters groups).map entryOf).map byteEntry).take kTssCapacity).find?
        (fun e ↦ e.1 = key) = none := by
      refine List.find?_eq_none.mpr fun e he ↦ ?_
      have hmem := List.mem_of_mem_take he
      rw [List.map_map] at hmem
      obtain ⟨e', he', rfl⟩ := List.mem_map.mp hmem
      exact fun htrue ↦ hnone e' he' (of_decide_eq_true htrue)
    rw [hprobe, Slots.firstValue, hfind]
    rfl

/-- A filter that fixes the whole 5-tuple. -/
def specifiedFilter (destinationPort : BitVec 16) : CompiledFilter where
  protocol := .kTcp
  matchSourceIp := true
  sourceIpAddress := 0x0A000001
  matchDestinationIp := true
  destinationIpAddress := 0x0A000002
  matchSourcePort := true
  sourcePort := 1000
  matchDestinationPort := true
  destinationPort

/-- Two groups with a filter for port 80; the first one has a filter for port 81 in front. -/
def sharedGroups : List CompiledFilterGroup :=
  [{ filters := [specifiedFilter 81, specifiedFilter 80] },
   { filters := [specifiedFilter 80, specifiedFilter 82], categoryIndex := 1 }]

/-- All keys start at the last slot, and the first group has the key that both have. -/
theorem probeTss_exact_shared :
    (TssIndex.buildTssFromGroups (fun _ ↦ 127) sharedGroups {}).probeTss (fun _ ↦ 127)
        (filterKey (specifiedFilter 80)).bytes = 0 ∧
      (TssIndex.buildTssFromGroups (fun _ ↦ 127) sharedGroups {}).probeTss (fun _ ↦ 127)
        (Vector.replicate 16 9) = kNoTssHit := by
  have hcategory : ∀ (i : Nat) group, sharedGroups[i]? = some group →
      group.categoryIndex = BitVec.ofNat 32 i := by
    intro i group hi
    match i with
    | 0 =>
        cases hi
        rfl
    | 1 =>
        cases hi
        rfl
    | _ + 2 => cases hi
  constructor
  · refine (probeTss_exact _ {} rfl sharedGroups (by decide) hcategory _).1 1 _ _ rfl rfl ?_
    intro j hj e he
    obtain rfl : j = 0 := by omega
    cases he
    exact fun hbytes ↦ absurd (FlowKey.bytes_injective hbytes) (by decide)
  · exact (probeTss_exact _ {} rfl sharedGroups (by decide) hcategory _).2 (by decide +kernel)

end DpdkSpi.TssIndex
