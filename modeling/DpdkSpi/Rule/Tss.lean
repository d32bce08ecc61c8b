import DpdkSpi.Lib.OpenAddressing
import DpdkSpi.Rule.Table

/-!
# The tuple-space index

`BuildTssFromGroups` fills an open-addressed table of 128 slots with the keys of the fully
specified filters and `ProbeTss` searches it, byte by byte.  Both are instances of the general
development of open addressing: the probe for sixteen bytes answers with the group of the first
fully specified filter whose key has these bytes, among the first 128 of them
(`TssIndex.Holds.probeTss_eq`), whatever the hash function does.  No two keys have the same bytes,
so that a rule table finds a filter by its key (`RuleTable.TssOf.probeTss_eq`).
-/

namespace DpdkSpi

open Lib

/-- Keys with the same bytes are the same. -/
theorem FlowKey.bytes_injective : Function.Injective FlowKey.bytes := by
  rintro ⟨srcIp, dstIp, srcPort, dstPort, protocol, pad⟩
    ⟨srcIp', dstIp', srcPort', dstPort', protocol', pad'⟩ h
  have hbytes := congrArg Vector.toList h
  simp only [FlowKey.bytes, Vector.toList_mk, List.cons.injEq] at hbytes
  obtain ⟨s₀, s₁, s₂, s₃, d₀, d₁, d₂, d₃, p₀, p₁, q₀, q₁, hprotocol, a₀, a₁, a₂, -⟩ := hbytes
  obtain rfl := eq_of_bytes32 s₀ s₁ s₂ s₃
  obtain rfl := eq_of_bytes32 d₀ d₁ d₂ d₃
  obtain rfl := eq_of_bytes16 p₀ p₁
  obtain rfl := eq_of_bytes16 q₀ q₁
  obtain rfl : protocol = protocol' := by
    cases protocol
    · cases protocol'
      · rfl
      · cases hprotocol
    · cases protocol'
      · cases hprotocol
      · rfl
  obtain rfl : pad = pad' := by
    refine eq_of_bytes fun k hk ↦ ?_
    obtain rfl | rfl | rfl : k = 0 ∨ k = 1 ∨ k = 2 := by omega
    · exact a₀
    · exact a₁
    · exact a₂
  rfl

namespace RuleTable

/-! ## Probes -/

theorem tssProbe_nodup (hash : BitVec 32) : (tssProbe hash).Nodup := by
  refine List.Nodup.map_on ?_ List.nodup_range
  intro i hi j hj h
  rw [List.mem_range] at hi hj
  rw [Fin.mk.injEq] at h
  unfold kTssCapacity at *
  omega

/-- A probe visits every slot. -/
theorem mem_tssProbe (hash : BitVec 32) (slot : Fin kTssCapacity) : slot ∈ tssProbe hash := by
  obtain ⟨s, hs⟩ := slot
  refine List.mem_map.mpr ⟨(s + (kTssCapacity - hash.toNat % kTssCapacity)) % kTssCapacity, ?_, ?_⟩
  · exact List.mem_range.mpr (Nat.mod_lt _ (by decide))
  · rw [Fin.mk.injEq]
    unfold kTssCapacity at *
    omega

/-! ## Entries -/

/-- The entry a filter contributes. -/
def tssEntry (group : CompiledFilterGroup) (filter : CompiledFilter) :
    Option (FlowKey × BitVec 32) :=
  if isTssEligible filter ∧ group.categoryIndex ≠ kNoTssHit then
    some (filterKey filter, group.categoryIndex)
  else none

theorem tssEntry_eq (group : CompiledFilterGroup) (hgroup : group.categoryIndex ≠ kNoTssHit)
    (filter : CompiledFilter) : tssEntry group filter =
      if isTssEligible filter then some (filterKey filter, group.categoryIndex) else none := by
  rw [tssEntry]
  exact if_congr (and_iff_left hgroup) rfl rfl

/-- The entries of a list of groups, in the order of their insertion. -/
def tssEntries (groups : List CompiledFilterGroup) : List (FlowKey × BitVec 32) :=
  groups.flatMap fun group ↦ group.filters.filterMap (tssEntry group)

/-- Whether some filter has destinations the member set cannot cover. -/
def anyWildcardIpRule (groups : List CompiledFilterGroup) : Bool :=
  groups.any fun group ↦ group.filters.any isWildcardIpRule

/-- The filters of a list of groups, each with its group. -/
def groupFilters (groups : List CompiledFilterGroup) :
    List (CompiledFilterGroup × CompiledFilter) :=
  groups.flatMap fun group ↦ group.filters.map fun filter ↦ (group, filter)

theorem filterMap_groupFilters (groups : List CompiledFilterGroup) :
    ((groupFilters groups).filterMap fun e ↦ tssEntry e.1 e.2) = tssEntries groups := by
  simp only [groupFilters, tssEntries, List.filterMap_flatMap, List.filterMap_map]
  rfl

theorem any_groupFilters (groups : List CompiledFilterGroup) :
    ((groupFilters groups).any fun e ↦ isWildcardIpRule e.2) = anyWildcardIpRule groups := by
  simp only [groupFilters, anyWildcardIpRule, List.any_flatMap, List.any_map]
  rfl

end RuleTable

namespace TssIndex

open RuleTable

variable {crc : TssKey → BitVec 32} {x : TssIndex} {es : List (FlowKey × BitVec 32)}
  {wildcard : Bool}

/-! ## The index as an open-addressed table -/

/-- The probe sequence of sixteen bytes. -/
def seq (crc : TssKey → BitVec 32) (key : TssKey) : List (Fin kTssCapacity) := tssProbe (crc key)

/-- The slots as a partial map: a slot marked `kNoTssHit` is free. -/
def slots (x : TssIndex) : Slots kTssCapacity TssKey (BitVec 32) := fun slot ↦
  if (x.tss slot).groupIdx = kNoTssHit then none
  else some ((x.tss slot).key, (x.tss slot).groupIdx)

theorem firstFree_slots (x : TssIndex) (l : List (Fin kTssCapacity)) :
    x.slots.firstFree l = l.find? fun slot ↦ (x.tss slot).groupIdx = kNoTssHit := by
  unfold Slots.firstFree
  congr 1
  funext slot
  by_cases h : (x.tss slot).groupIdx = kNoTssHit
  · simp [slots, h]
  · simp [slots, h]

/-- The search loop is a search. -/
theorem probeTssLoop_eq (x : TssIndex) (key : TssKey) (l : List (Fin kTssCapacity)) :
    x.probeTssLoop key l = (x.slots.searchIn key l).getD kNoTssHit := by
  induction l with
  | nil => rfl
  | cons slot rest ih =>
      rw [probeTssLoop, Slots.searchIn, slots]
      by_cases hfree : (x.tss slot).groupIdx = kNoTssHit
      · simp [hfree]
      · simp only [hfree, if_false]
        by_cases hkey : (x.tss slot).key = key
        · simp [hkey]
        · simp only [hkey, if_false]
          exact ih

/-- Inserting an entry of a group is an insertion, unless the group's index is the mark
of a free slot. -/
theorem slots_insert (x : TssIndex) (hash : BitVec 32) (entry : TssEntry) :
    (x.insert hash entry).slots =
      if entry.groupIdx = kNoTssHit then x.slots
      else x.slots.insertIn (tssProbe hash) entry.key entry.groupIdx := by
  rw [Slots.insertIn, firstFree_slots, TssIndex.insert]
  cases hslot : (tssProbe hash).find? fun slot ↦ decide ((x.tss slot).groupIdx = kNoTssHit) with
  | none => simp
  | some slot =>
      have hfree : (x.tss slot).groupIdx = kNoTssHit := by simpa using List.find?_some hslot
      funext s
      by_cases hs : s = slot
      · subst hs
        by_cases hnone : entry.groupIdx = kNoTssHit <;> simp [slots, hnone, hfree]
      · by_cases hnone : entry.groupIdx = kNoTssHit <;> simp [slots, hnone, hs]

/-! ## What the index holds -/

/-- An entry with the bytes of its key. -/
def byteEntry (e : FlowKey × BitVec 32) : TssKey × BitVec 32 := (e.1.bytes, e.2)

/-- The index was filled with the entries of a list, in their order, from fresh slots. -/
structure Holds (crc : TssKey → BitVec 32) (x : TssIndex) (es : List (FlowKey × BitVec 32))
    (wildcard : Bool) : Prop where
  /-- The slots hold the entries. -/
  slots_eq : x.slots = Slots.insertAll (seq crc) Slots.empty (es.map byteEntry)
  /-- An index that never took an entry has none. -/
  empty_of_size : x.tssSize = 0 → es = []
  /-- The flag says whether the member set misses some filter's destinations. -/
  wildcard_eq : x.hasWildcardIpRules = wildcard

/-- An index that counts nothing has a free slot, and so finds room. -/
theorem Holds.tssSize_insert_ne_zero (h : Holds crc x es wildcard) (hash : BitVec 32)
    (entry : TssEntry) : (x.insert hash entry).tssSize ≠ 0 := by
  intro hsize
  rw [TssIndex.insert, ← firstFree_slots] at hsize
  cases hfree : x.slots.firstFree (tssProbe hash) with
  | some slot =>
      rw [hfree] at hsize
      cases hsize
  | none =>
      rw [hfree] at hsize
      have hempty : x.slots = Slots.empty := by
        rw [h.slots_eq, h.empty_of_size hsize]
        rfl
      obtain ⟨slot, hslot⟩ := Slots.exists_firstFree (T := x.slots)
        (mem_tssProbe hash ⟨0, by decide⟩) (by rw [hempty]; rfl)
      rw [hfree] at hslot
      cases hslot

/-- The body of the loop over the filters of a group. -/
theorem Holds.buildTssFilter (h : Holds crc x es wildcard) (group : CompiledFilterGroup)
    (filter : CompiledFilter) :
    Holds crc (TssIndex.buildTssFilter crc group.categoryIndex x filter)
      (es ++ (tssEntry group filter).toList) (wildcard || isWildcardIpRule filter) := by
  have hflag : Holds crc
      (if isWildcardIpRule filter then { x with hasWildcardIpRules := true } else x) es
      (wildcard || isWildcardIpRule filter) := by
    cases isWildcardIpRule filter with
    | true => exact ⟨h.slots_eq, h.empty_of_size, (Bool.or_true _).symm⟩
    | false => exact ⟨h.slots_eq, h.empty_of_size, h.wildcard_eq.trans (Bool.or_false _).symm⟩
  unfold TssIndex.buildTssFilter tssEntry
  dsimp only
  by_cases hfull : isTssEligible filter = true
  · rw [if_pos hfull]
    refine ⟨?_, fun hsize ↦ absurd hsize (hflag.tssSize_insert_ne_zero _ _), ?_⟩
    · rw [slots_insert, hflag.slots_eq]
      by_cases hmark : group.categoryIndex = kNoTssHit
      · simp [hmark]
      · simp [hfull, hmark, Slots.insertAll, byteEntry, seq]
    · rw [← hflag.wildcard_eq, TssIndex.insert]
      split
      · rfl
      · rfl
  · have hentry : ¬ (isTssEligible filter = true ∧ group.categoryIndex ≠ kNoTssHit) :=
      fun h ↦ hfull h.1
    rw [if_neg hfull, if_neg hentry, Option.toList_none, List.append_nil]
    exact hflag

/-- The loop over the filters of all groups. -/
theorem Holds.foldl (h : Holds crc x es wildcard)
    (filters : List (CompiledFilterGroup × CompiledFilter)) :
    Holds crc (filters.foldl (fun x e ↦ TssIndex.buildTssFilter crc e.1.categoryIndex x e.2) x)
      (es ++ filters.filterMap fun e ↦ tssEntry e.1 e.2)
      (wildcard || filters.any fun e ↦ isWildcardIpRule e.2) := by
  induction filters generalizing x es wildcard with
  | nil =>
      rw [List.filterMap_nil, List.append_nil, List.any_nil, Bool.or_false]
      exact h
  | cons e filters ih =>
      have hcons : (e :: filters).filterMap (fun e ↦ tssEntry e.1 e.2) =
          (tssEntry e.1 e.2).toList ++ filters.filterMap fun e ↦ tssEntry e.1 e.2 := by
        rw [List.filterMap_cons]
        cases tssEntry e.1 e.2 with
        | none => rfl
        | some entry => rfl
      rw [List.foldl_cons, hcons, List.any_cons, ← List.append_assoc, ← Bool.or_assoc]
      exact ih (h.buildTssFilter e.1 e.2)

/-- An index with fresh slots holds nothing. -/
theorem holds_fresh (crc : TssKey → BitVec 32) (hfresh : x.tss = fun _ ↦ {})
    (hflag : x.hasWildcardIpRules = false) : Holds crc x [] false := by
  refine ⟨?_, fun _ ↦ rfl, hflag⟩
  funext slot
  simp [slots, hfresh, Slots.insertAll, Slots.empty]

/-- **Building the index** on fresh slots. -/
theorem holds_buildTssFromGroups (crc : TssKey → BitVec 32) (hfresh : x.tss = fun _ ↦ {})
    (groups : List CompiledFilterGroup) :
    Holds crc (x.buildTssFromGroups crc groups) (tssEntries groups) (anyWildcardIpRule groups) := by
  have hstart : Holds crc { x with tssSize := 0, hasWildcardIpRules := false } [] false :=
    holds_fresh crc hfresh rfl
  have hbuilt := hstart.foldl (groupFilters groups)
  rw [filterMap_groupFilters, any_groupFilters, groupFilters, List.foldl_flatMap, List.nil_append,
    Bool.false_or] at hbuilt
  simp only [List.foldl_map] at hbuilt
  exact hbuilt

/-- **What a search answers**: the group of the first entry with the bytes, among the first
128. -/
theorem Holds.probeTss_eq (h : Holds crc x es wildcard) (key : TssKey) :
    x.probeTss crc key =
      (Slots.firstValue ((es.map byteEntry).take kTssCapacity) key).getD kNoTssHit := by
  have hnodup : ∀ k, (seq crc k).Nodup := fun k ↦ tssProbe_nodup (crc k)
  have hall : ∀ k slot, slot ∈ seq crc k := fun k ↦ mem_tssProbe (crc k)
  have hnone : (Slots.empty : Slots kTssCapacity TssKey (BitVec 32)).searchIn key (seq crc key) =
      none := Slots.searchIn_eq_none fun s _ e he ↦ by cases he
  unfold probeTss
  split
  · rename_i hsize
    rw [h.empty_of_size hsize]
    rfl
  · have hsearch := Slots.searchIn_insertAll hnodup hall (Slots.compact_empty (seq crc))
      (es.map byteEntry) key
    rw [hnone, Slots.occupied_empty, Finset.card_empty, Nat.sub_zero, Option.none_or] at hsearch
    rw [probeTssLoop_eq, h.slots_eq, ← hsearch]
    rfl

/-- Entries are told apart by the bytes of their keys. -/
theorem firstValue_byteEntry (es : List (FlowKey × BitVec 32)) (key : FlowKey) :
    Slots.firstValue (es.map byteEntry) key.bytes = Slots.firstValue es key := by
  have hbytes : ((fun e : TssKey × BitVec 32 ↦ decide (e.1 = key.bytes)) ∘ byteEntry) =
      fun e ↦ decide (e.1 = key) := by
    funext e
    exact decide_eq_decide.mpr FlowKey.bytes_injective.eq_iff
  rw [Slots.firstValue, List.find?_map, hbytes, Option.map_map]
  rfl

end TssIndex

namespace RuleTable

variable {d : Dpdk} {t : RuleTable}

/-! ## The index of a rule table -/

/-- The index of the table is the one built from `groups` on fresh slots. -/
def TssOf (d : Dpdk) (t : RuleTable) (groups : List CompiledFilterGroup) : Prop :=
  t.toTssIndex.Holds d.hashCrc (tssEntries groups) (anyWildcardIpRule groups)

/-- Building the index of a table with fresh slots. -/
theorem tssOf_build (d : Dpdk) (hfresh : t.tss = fun _ ↦ {}) :
    TssOf d (t.buildTssFromGroups d) t.groups :=
  TssIndex.holds_buildTssFromGroups d.hashCrc hfresh t.groups

/-- **What a probe answers**: the group of the first entry with the key, among the first
128. -/
theorem TssOf.probeTss_eq {groups : List CompiledFilterGroup} (h : TssOf d t groups)
    (key : FlowKey) :
    t.probeTss d key =
      (Slots.firstValue ((tssEntries groups).take kTssCapacity) key).getD kNoTssHit := by
  rw [RuleTable.probeTss, TssIndex.Holds.probeTss_eq h, ← List.map_take,
    TssIndex.firstValue_byteEntry]

end RuleTable

end DpdkSpi
