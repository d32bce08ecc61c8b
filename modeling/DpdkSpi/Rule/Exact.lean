import DpdkSpi.Rule.Shortcut

/-!
# Filters that fix the 5-tuple

The tuple-space index is there for packets whose 5-tuple some filter fixes.  Filters are indexed as
they are configured, in host order and from source to destination, and a packet is looked up in
network order, from the smaller end to the larger one.  A packet is found where the two readings
of its 5-tuple lead to the same group (`probeTss_fires_iff`).
-/

namespace DpdkSpi.RuleTable

open Lib

variable {t : RuleTable} {d : Dpdk} {groups : List CompiledFilterGroup} {key : FlowKey}

/-! ## Filters by their 5-tuple -/

/-- The filter fixes the 5-tuple, to this one. -/
def fixes (key : FlowKey) (filter : CompiledFilter) : Bool :=
  isTssEligible filter && decide (filterKey filter = key)

/-- The group has a filter that fixes the 5-tuple to this one. -/
def groupFixes (key : FlowKey) (group : CompiledFilterGroup) : Bool :=
  group.filters.any (fixes key)

/-- The first group with such a filter; the groups of a table stand in the order of their
precedence. -/
def firstFixing (groups : List CompiledFilterGroup) (key : FlowKey) : Option CompiledFilterGroup :=
  groups.find? (groupFixes key)

/-- The groups whose index is not the mark of a free slot. -/
def indexable (groups : List CompiledFilterGroup) : List CompiledFilterGroup :=
  groups.filter fun g ↦ g.categoryIndex ≠ kNoTssHit

/-- The filters that fix the whole 5-tuple. -/
def fullFilters (groups : List CompiledFilterGroup) : List CompiledFilter :=
  (groups.flatMap CompiledFilterGroup.filters).filter isTssEligible

/-- The 5-tuple of a packet as a filter for it has it: in host order, from source to
destination. -/
def configuredKey (packet : PacketMetadata) : FlowKey where
  srcIp := rteBeToCpu32 packet.sourceIpBe
  dstIp := rteBeToCpu32 packet.destinationIpBe
  srcPort := rteBeToCpu16 packet.sourcePortBe
  dstPort := rteBeToCpu16 packet.destinationPortBe
  protocol := packet.protocol

/-! ## Entries by their key -/

/-- A group has an entry for a key if it has a filter that fixes it. -/
theorem find?_entries (group : CompiledFilterGroup) (hgroup : group.categoryIndex ≠ kNoTssHit)
    (filters : List CompiledFilter) (key : FlowKey) :
    Slots.firstValue (filters.filterMap (tssEntry group)) key =
      if filters.any (fixes key) then some group.categoryIndex else none := by
  induction filters with
  | nil => rfl
  | cons filter filters ih =>
      rw [List.filterMap_cons, tssEntry_eq group hgroup, List.any_cons, fixes]
      cases hfull : isTssEligible filter with
      | false => exact ih
      | true =>
          rw [if_pos rfl]
          dsimp only
          rw [Slots.firstValue_cons, ih]
          by_cases hkey : filterKey filter = key
          · simp [hkey]
          · simp [hkey, Ne.symm hkey]

theorem entries_eq_nil (group : CompiledFilterGroup) (hgroup : group.categoryIndex = kNoTssHit) :
    group.filters.filterMap (tssEntry group) = [] := by
  refine List.filterMap_eq_nil_iff.mpr fun filter _ ↦ ?_
  rw [tssEntry, if_neg]
  exact fun h ↦ h.2 hgroup

theorem firstValue_append (es es' : List (FlowKey × BitVec 32)) (key : FlowKey) :
    Slots.firstValue (es ++ es') key = (Slots.firstValue es key).or (Slots.firstValue es' key) := by
  unfold Slots.firstValue
  rw [List.find?_append]
  cases es.find? fun e ↦ e.1 = key with
  | none => rfl
  | some e => rfl

/-- The first entry for a key is that of the first group with a filter that fixes it, among the
indexable groups. -/
theorem firstValue_tssEntries (groups : List CompiledFilterGroup) (key : FlowKey) :
    Slots.firstValue (tssEntries groups) key =
      (firstFixing (indexable groups) key).map CompiledFilterGroup.categoryIndex := by
  unfold indexable
  induction groups with
  | nil => rfl
  | cons group groups ih =>
      rw [tssEntries, List.flatMap_cons, firstValue_append, ← tssEntries, ih]
      by_cases hgroup : group.categoryIndex = kNoTssHit
      · rw [entries_eq_nil group hgroup, List.filter_cons_of_neg (by simpa using hgroup)]
        rfl
      · rw [find?_entries group hgroup, List.filter_cons_of_pos (by simpa using hgroup)]
        unfold firstFixing
        rw [List.find?_cons]
        cases hfixes : groupFixes key group with
        | true =>
            rw [groupFixes] at hfixes
            rw [hfixes]
            rfl
        | false =>
            rw [groupFixes] at hfixes
            rw [hfixes]
            rfl

/-- Every entry is of a filter that fixes the whole 5-tuple. -/
theorem length_tssEntries_le (groups : List CompiledFilterGroup) :
    (tssEntries groups).length ≤ (fullFilters groups).length := by
  induction groups with
  | nil => exact le_rfl
  | cons group groups ih =>
      have hgroup : (group.filters.filterMap (tssEntry group)).length ≤
          (group.filters.filter isTssEligible).length := by
        by_cases hcategory : group.categoryIndex = kNoTssHit
        · rw [entries_eq_nil group hcategory]
          exact Nat.zero_le _
        · rw [← List.countP_eq_length_filter, List.length_filterMap_eq_countP]
          refine List.countP_mono_left fun filter _ hsome ↦ ?_
          rw [tssEntry_eq group hcategory] at hsome
          by_contra hfull
          rw [if_neg hfull] at hsome
          cases hsome
      unfold tssEntries fullFilters at *
      rw [List.flatMap_cons, List.flatMap_cons, List.filter_append, List.length_append,
        List.length_append]
      exact Nat.add_le_add hgroup ih

/-! ## When the index finds what it is for -/

/-- The index answers a packet with the first group that has a filter for its 5-tuple. -/
def TssFires (t : RuleTable) (d : Dpdk) (packet : PacketMetadata) : Prop :=
  ∀ group, firstFixing t.groups (configuredKey packet) = some group →
    t.probeTss d (makeCanonicalFromMetadata packet) = group.categoryIndex

/-- The index finds the first group with a filter for a packet exactly if the first group with a
filter that is configured with the words of the packet, as they stand in network order and from
the smaller end to the larger one, has the same index.  (A group with the index `kNoTssHit` is not
stored, and found where there is no such filter.) -/
theorem probeTss_fires_iff (ht : Constructed d t)
    (hcount : (fullFilters t.groups).length ≤ kTssCapacity) {packet : PacketMetadata}
    (hipv4 : packet.ipVersion = .kIpv4) {group : CompiledFilterGroup}
    (hfirst : firstFixing t.groups (configuredKey packet) = some group) :
    t.TssFires d packet ↔
      let found := firstFixing (indexable t.groups) (makeCanonical packet.sourceIpBe
        packet.destinationIpBe packet.sourcePortBe packet.destinationPortBe packet.protocol)
      (∃ group', found = some group' ∧ group'.categoryIndex = group.categoryIndex) ∨
        (found = none ∧ group.categoryIndex = kNoTssHit) := by
  have hcanonical : makeCanonicalFromMetadata packet = makeCanonical packet.sourceIpBe
      packet.destinationIpBe packet.sourcePortBe packet.destinationPortBe packet.protocol := by
    rw [makeCanonicalFromMetadata, hipv4]
  have hprobe : t.TssFires d packet ↔
      t.probeTss d (makeCanonicalFromMetadata packet) = group.categoryIndex := by
    constructor
    · exact fun hfires ↦ hfires group hfirst
    · intro hprobe group' hfirst'
      obtain rfl := Option.some.inj (hfirst.symm.trans hfirst')
      exact hprobe
  have hlength := (length_tssEntries_le t.groups).trans hcount
  rw [hprobe, ht.tssOf.probeTss_eq, List.take_of_length_le hlength, firstValue_tssEntries,
    hcanonical]
  dsimp only
  cases firstFixing (indexable t.groups) (makeCanonical packet.sourceIpBe packet.destinationIpBe
      packet.sourcePortBe packet.destinationPortBe packet.protocol) with
  | none =>
      constructor
      · exact fun hmark ↦ .inr ⟨rfl, hmark.symm⟩
      · rintro (⟨group', hfound, -⟩ | ⟨-, hmark⟩)
        · cases hfound
        · exact hmark.symm
  | some found =>
      constructor
      · exact fun hsame ↦ .inl ⟨found, rfl, hsame⟩
      · rintro (⟨group', hfound, hsame⟩ | ⟨hnone, -⟩)
        · obtain rfl := Option.some.inj hfound
          exact hsame
        · cases hnone

/-- The filter 1.1.1.1:257 to 2.2.2.2:257 reads alike both ways. -/
theorem probeTss_fires_palindrome :
    (pairTable (pairGroups 0x01010101 0x02020202 0x0101)).TssFires tcpDpdk
      (pairPacket 0x01010101 0x02020202 0x0101) := by
  obtain ⟨group, hgroup⟩ : ∃ group, firstFixing
      (pairTable (pairGroups 0x01010101 0x02020202 0x0101)).groups
      (configuredKey (pairPacket 0x01010101 0x02020202 0x0101)) = some group :=
    Option.isSome_iff_exists.mp (by decide +kernel)
  refine (probeTss_fires_iff (.ofChunks _ _ _ _ _ _ _) (by decide) rfl hgroup).mpr (.inl ?_)
  exact ⟨group, hgroup, rfl⟩

/-- A filter for TCP from 10.0.0.1:1000 to 10.0.0.2:80. -/
def webGroups : List CompiledFilterGroup :=
  [{ name := "web"
     filters := [{ protocol := .kTcp, matchSourceIp := true, sourceIpAddress := 0x0A000001,
                   matchDestinationIp := true, destinationIpAddress := 0x0A000002,
                   matchSourcePort := true, sourcePort := 1000,
                   matchDestinationPort := true, destinationPort := 80 }] }]

/-- The packets that the filter is for. -/
def webFlow : PacketMetadata where
  sourceIpBe := rteCpuToBe32 0x0A000001
  destinationIpBe := rteCpuToBe32 0x0A000002
  sourcePortBe := rteCpuToBe16 1000
  destinationPortBe := rteCpuToBe16 80

/-- The index does not have them. -/
theorem webFlow_not_fires :
    Constructed tcpDpdk (pairTable webGroups) ∧
      (∃ group, firstFixing webGroups (configuredKey webFlow) = some group ∧
        group.categoryIndex = 0) ∧
      (pairTable webGroups).probeTss tcpDpdk (makeCanonicalFromMetadata webFlow) = kNoTssHit ∧
      ¬ (pairTable webGroups).TssFires tcpDpdk webFlow := by
  have hmiss : (pairTable webGroups).probeTss tcpDpdk (makeCanonicalFromMetadata webFlow) =
      kNoTssHit := by decide +kernel
  have hfirst : ∃ group, firstFixing webGroups (configuredKey webFlow) = some group ∧
      group.categoryIndex = 0 := ⟨_, rfl, rfl⟩
  refine ⟨.ofChunks _ _ _ _ _ _ _, hfirst, hmiss, fun hfires ↦ ?_⟩
  obtain ⟨group, hgroup, hindex⟩ := hfirst
  have hfound := hfires group hgroup
  rw [hmiss, hindex] at hfound
  cases hfound

end DpdkSpi.RuleTable
