import DpdkSpi.Rule.Bulk
import DpdkSpi.Rule.Contexts

/-!
# Classification by precedence

What a compiled table answers, in terms of the configured groups: a packet is matched
when some filter of some group accepts it, and then by a group of minimal precedence
among those (`compileRuleTable_precedence`).  The way from the filters to the answer
goes through the rules of the chunks, their priorities, the library's choice among
rules of equal priority, the encoding of group and filter in the userdata and the order
of the chunks.
-/

namespace DpdkSpi

open Lib

/-! ## Filters and rules -/

/-- The filter accepts the packet: the protocol is equal and every configured address,
block or port is equal to, or contains, that of the packet. -/
def CompiledFilter.Accepts (f : CompiledFilter) (packet : PacketMetadata) : Prop :=
  f.protocol = packet.protocol ∧
    (f.matchSourceIp = true → f.sourceIpAddress = rteBeToCpu32 packet.sourceIpBe) ∧
    (f.matchDestinationIp = true →
      f.destinationIpAddress = rteBeToCpu32 packet.destinationIpBe) ∧
    (f.matchDestinationCidr = true →
      rteBeToCpu32 packet.destinationIpBe &&& f.destinationPrefixMask = f.destinationNetwork) ∧
    (f.matchSourcePort = true → f.sourcePort = rteBeToCpu16 packet.sourcePortBe) ∧
    (f.matchDestinationPort = true → f.destinationPort = rteBeToCpu16 packet.destinationPortBe)

theorem and_aclMask_zero (x : BitVec 32) : x &&& aclMask 0 = 0 := by
  rw [show aclMask 0 = 0#32 by decide, BitVec.and_zero]
  rfl

theorem and_aclMask_full (x : BitVec 32) : x &&& aclMask 32 = x := by
  rw [show aclMask 32 = BitVec.allOnes 32 by decide, BitVec.and_allOnes]

/-- The library's mask of a prefix length is the mask the parser computes. -/
theorem aclMask_eq_prefixMask {n : BitVec 16} (h : n ≤ 32) :
    aclMask (n.setWidth 32) = prefixMask n := by
  have hall : ∀ k : Fin 33, aclMask ((BitVec.ofNat 16 k).setWidth 32) =
      prefixMask (BitVec.ofNat 16 k) := by decide
  have hk : n.toNat < 33 := Nat.lt_succ_of_le (BitVec.le_def.mp h)
  have hn := hall ⟨n.toNat, hk⟩
  rwa [BitVec.ofNat_toNat, BitVec.setWidth_eq] at hn

/-- The protocol field of a rule compares whole bytes. -/
theorem protocol_field_iff {x y : BitVec 8} : x &&& 0xFF = y &&& 0xFF ↔ x = y := by
  have hff : (0xFF : BitVec 8) = BitVec.allOnes 8 := by decide
  rw [hff, BitVec.and_allOnes, BitVec.and_allOnes]

/-- An exact address field, or one that is not configured. -/
theorem ip_field_iff {b : Bool} {x y : BitVec 32} :
    x &&& aclMask (if b then 32 else 0) = y &&& aclMask (if b then 32 else 0) ↔
      (b = true → y = x) := by
  cases b with
  | false =>
      rw [if_neg Bool.false_ne_true, and_aclMask_zero, and_aclMask_zero]
      simp
  | true =>
      rw [if_pos rfl, and_aclMask_full, and_aclMask_full]
      exact ⟨fun h _ ↦ h.symm, fun h ↦ (h rfl).symm⟩

/-- A port field: a range of one port, or the full range. -/
theorem port_field_iff {b : Bool} {x p : BitVec 16} :
    ((if b then p else 0) ≤ x ∧ x ≤ (if b then p else 65535)) ↔ (b = true → p = x) := by
  cases b with
  | false =>
      have hle : x ≤ 65535#16 := by
        rw [BitVec.le_def]
        exact Nat.le_of_lt_succ x.isLt
      simp only [Bool.false_eq_true, if_false, false_implies, iff_true]
      exact ⟨BitVec.le_def.mpr (Nat.zero_le _), hle⟩
  | true =>
      simp only [if_true, forall_const]
      constructor
      · rintro ⟨h₁, h₂⟩
        exact BitVec.le_antisymm h₁ h₂
      · rintro rfl
        exact ⟨BitVec.le_refl _, BitVec.le_refl _⟩

/-- The destination field: a block, an exact address, or not configured. -/
theorem destination_field_iff {f : CompiledFilter} (hwf : f.WellFormed) {x : BitVec 32} :
    x &&& aclMask (if f.matchDestinationCidr then f.destinationPrefixLength
          else if f.matchDestinationIp then 32 else 0) =
        (if f.matchDestinationCidr then f.destinationNetwork
          else if f.matchDestinationIp then f.destinationIpAddress else 0) &&&
        aclMask (if f.matchDestinationCidr then f.destinationPrefixLength
          else if f.matchDestinationIp then 32 else 0) ↔
      (f.matchDestinationIp = true → f.destinationIpAddress = x) ∧
        (f.matchDestinationCidr = true → x &&& f.destinationPrefixMask = f.destinationNetwork) := by
  cases hcidr : f.matchDestinationCidr with
  | true =>
      obtain ⟨n, hle, hlen, hmask, hnet⟩ := hwf.cidr hcidr
      rw [hmask] at hnet
      simp only [if_true, hlen, aclMask_eq_prefixMask hle, hnet, hmask, hwf.not_ip_of_cidr hcidr]
      simp
  | false =>
      simp only [Bool.false_eq_true, if_false, false_implies, and_true]
      cases hip : f.matchDestinationIp with
      | true =>
          rw [if_pos rfl, if_pos rfl, and_aclMask_full, and_aclMask_full]
          exact ⟨fun h _ ↦ h.symm, fun h ↦ (h rfl).symm⟩
      | false =>
          rw [if_neg Bool.false_ne_true, if_neg Bool.false_ne_true, and_aclMask_zero,
            and_aclMask_zero]
          simp

/-- **A rule matches what its filter accepts.** -/
theorem buildAclRule_matches_iff {f : CompiledFilter} (hwf : f.WellFormed)
    {packet : PacketMetadata} (hv4 : packet.ipVersion = .kIpv4) (g i p : BitVec 32) :
    (buildAclRule f g i p).Matches (aclInput packet) ↔ f.Accepts packet := by
  have hsrc : (aclInput packet).srcIpBe = packet.sourceIpBe := by simp [aclInput, hv4]
  have hdst : (aclInput packet).dstIpBe = packet.destinationIpBe := by simp [aclInput, hv4]
  have hproto : protocolToIpProto packet.protocol = protocolToIpProto f.protocol ↔
      f.protocol = packet.protocol :=
    ⟨fun h ↦ protocolToIpProto_injective h.symm, fun h ↦ by rw [h]⟩
  unfold AclRule.Matches CompiledFilter.Accepts
  rw [hsrc, hdst]
  simp only [buildAclRule, protocol_field_iff, ip_field_iff, port_field_iff,
    destination_field_iff hwf, aclInput, hproto, and_assoc]

/-- The re-check of ports and protocol behind the classification changes nothing. -/
theorem CompiledFilter.Accepts.portProtocol {f : CompiledFilter} {packet : PacketMetadata}
    (h : f.Accepts packet) : filterMatchesPortProtocol f packet = true := by
  obtain ⟨hproto, -, -, -, hsp, hdp⟩ := h
  unfold filterMatchesPortProtocol
  rw [if_neg (not_not.mpr hproto), if_neg fun hc ↦ hc.2 (hdp hc.1), if_neg fun hc ↦ hc.2 (hsp hc.1)]

/-! ## Priorities -/

/-- A priority the library accepts is the distance of a small precedence to the
largest. -/
theorem priority_of_valid {f : CompiledFilter} {g i p : BitVec 32}
    (h : validPriority (buildAclRule f g i p) = true) :
    (buildAclRule f g i p).priority = (rteAclMaxPriority.toNat : Int) - p.toNat := by
  rw [validPriority, Bool.and_eq_true] at h
  have h₀ := of_decide_eq_true h.1
  have h₁ := of_decide_eq_true h.2
  have hdef : (buildAclRule f g i p).priority = (rteAclMaxPriority - p).toInt := by
    simp only [buildAclRule]
  have hp := p.isLt
  have hmax : rteAclMaxPriority.toNat = 2 ^ 29 - 1 := by decide
  have hsub : (rteAclMaxPriority - p).toNat = (2 ^ 32 - p.toNat + (2 ^ 29 - 1)) % 2 ^ 32 := by
    rw [BitVec.toNat_sub, hmax]
  have hint := BitVec.toInt_eq_toNat_cond (rteAclMaxPriority - p)
  rw [hsub, ← hdef] at hint
  split at hint <;> omega

/-! ## Userdata -/

/-- The result for a filter of a group. -/
def resultOf (group : CompiledFilterGroup) (filter : CompiledFilter) : ClassificationResult where
  groupName := group.name
  label := filter.label
  groupPrecedence := group.precedence
  boundDpiFilterIndex := group.boundDpiFilterIndex
  action := group.action
  matched := true
  l7Required := group.l7Required

/-- The position of the group that `Match` reads from userdata. -/
def decodedGroup (userdata : BitVec 32) : BitVec 32 := (userdata >>> 16) - 1

/-- The position of the filter in its group. -/
def decodedFilter (userdata : BitVec 32) : BitVec 32 := (userdata &&& 0xFFFF) - 1

/-- `Match` reads two positions from userdata, and looks the filter up. -/
theorem RuleTable.decode_eq (t : RuleTable) (packet : PacketMetadata) (userdata : BitVec 32) :
    t.decode packet userdata =
      if userdata = 0 then none
      else t.groups[(decodedGroup userdata).toNat]?.bind fun group ↦
        group.filters[(decodedFilter userdata).toNat]?.bind fun filter ↦
          if filterMatchesPortProtocol filter packet then some (resultOf group filter)
          else none := by
  unfold RuleTable.decode decodedGroup decodedFilter
  split
  · rfl
  · dsimp only
    cases t.groups[((userdata >>> 16) - 1).toNat]? with
    | none => rfl
    | some group =>
        dsimp only [Option.bind_some]
        cases group.filters[((userdata &&& 0xFFFF) - 1).toNat]? with
        | none => rfl
        | some filter => rfl

theorem decodedGroup_encodeUserdata (g f : BitVec 32) :
    decodedGroup (encodeUserdata g f) = ((g + 1) &&& 0xFFFF) - 1 := by
  have hhigh (a b : BitVec 32) : (a <<< 16 ||| b &&& 0xFFFF) >>> 16 = a &&& 0xFFFF := by
    have hmask : (0xFFFF : BitVec 32) = BitVec.allOnes 32 >>> 16 := by decide
    rw [hmask]
    ext i hi
    simp only [BitVec.getElem_ushiftRight, BitVec.getLsbD_or, BitVec.getLsbD_shiftLeft,
      BitVec.getLsbD_and, BitVec.getElem_and, BitVec.getLsbD_ushiftRight, BitVec.getLsbD_allOnes]
    grind
  rw [decodedGroup, encodeUserdata, hhigh]

theorem decodedFilter_encodeUserdata (g f : BitVec 32) :
    decodedFilter (encodeUserdata g f) = ((f + 1) &&& 0xFFFF) - 1 := by
  have hlow (a b : BitVec 32) : (a <<< 16 ||| b &&& 0xFFFF) &&& 0xFFFF = b &&& 0xFFFF := by
    have hmask : (0xFFFF : BitVec 32) = BitVec.allOnes 32 >>> 16 := by decide
    rw [hmask]
    ext i hi
    simp only [BitVec.getElem_or, BitVec.getElem_shiftLeft, BitVec.getElem_ushiftRight,
      BitVec.getElem_and, BitVec.getLsbD_allOnes]
    grind
  rw [decodedFilter, encodeUserdata, hlow]

/-- A position survives in sixteen bits up to 65534. -/
theorem toNat_position_eq_iff {n : Nat} :
    (((BitVec.ofNat 32 n + 1) &&& 0xFFFF) - 1).toNat = n ↔ n < 65535 ∨ n = 2 ^ 32 - 1 := by
  have hmask : (0xFFFF : BitVec 32).toNat = 2 ^ 16 - 1 := by decide
  have hone : (1 : BitVec 32).toNat = 1 := rfl
  rw [BitVec.toNat_sub, BitVec.toNat_and, hmask, Nat.and_two_pow_sub_one_eq_mod, BitVec.toNat_add,
    BitVec.toNat_ofNat, hone]
  omega

/-- Decoding finds the group and the filter that were encoded. -/
theorem decode_encodeUserdata {t : RuleTable} {packet : PacketMetadata} {g f : Nat}
    {group : CompiledFilterGroup} {filter : CompiledFilter} (hg : g < 65535) (hf : f < 65535)
    (hgroup : t.groups[g]? = some group) (hfilter : group.filters[f]? = some filter)
    (hfit : filterMatchesPortProtocol filter packet = true) :
    t.decode packet (encodeUserdata (BitVec.ofNat 32 g) (BitVec.ofNat 32 f)) =
      some (resultOf group filter) := by
  have hgroupIdx : (decodedGroup (encodeUserdata (BitVec.ofNat 32 g) (BitVec.ofNat 32 f))).toNat =
      g := by
    rw [decodedGroup_encodeUserdata]
    exact toNat_position_eq_iff.mpr (.inl hg)
  have hfilterIdx : (decodedFilter (encodeUserdata (BitVec.ofNat 32 g) (BitVec.ofNat 32 f))).toNat =
      f := by
    rw [decodedFilter_encodeUserdata]
    exact toNat_position_eq_iff.mpr (.inl hf)
  rw [RuleTable.decode_eq, hgroupIdx, hfilterIdx, hgroup, Option.bind_some, hfilter,
    Option.bind_some, if_pos hfit, if_neg]
  · intro hzero
    rw [hzero] at hgroupIdx
    have hmark : (decodedGroup 0).toNat = 2 ^ 32 - 1 := by decide
    omega

/-! ## Rules of chunks -/

/-- The rule of a filter of the `g`-th group. -/
theorem mem_rulesFrom {groups : List CompiledFilterGroup} {start count : Nat} {r : AclRule} :
    r ∈ rulesFrom groups start count ↔ ∃ (g f : Nat) (group : CompiledFilterGroup)
      (filter : CompiledFilter), start ≤ g ∧ g < start + count ∧ groups[g]? = some group ∧
        group.filters[f]? = some filter ∧
        r = buildAclRule filter (BitVec.ofNat 32 g) (BitVec.ofNat 32 f) group.precedence := by
  rw [rulesFrom, List.mem_flatMap]
  constructor
  · rintro ⟨cat, hcat, hr⟩
    rw [List.mem_range] at hcat
    cases hg : groups[start + cat]? with
    | none =>
        rw [hg] at hr
        cases hr
    | some group =>
        rw [hg] at hr
        obtain ⟨f, hf, rfl⟩ := List.mem_mapIdx.mp hr
        exact ⟨start + cat, f, group, group.filters[f], by omega, by omega, hg,
          List.getElem?_eq_getElem hf, rfl⟩
  · rintro ⟨g, f, group, filter, hle, hlt, hg, hf, rfl⟩
    refine ⟨g - start, List.mem_range.mpr (by omega), ?_⟩
    have hidx : start + (g - start) = g := by omega
    rw [hidx, hg]
    obtain ⟨hlen, rfl⟩ := List.getElem?_eq_some_iff.mp hf
    exact List.mem_mapIdx.mpr ⟨f, hlen, rfl⟩

/-- Every group with a filter belongs to a task. -/
theorem exists_taskSpec {groups : List CompiledFilterGroup} {g f : Nat}
    {group : CompiledFilterGroup} {filter : CompiledFilter} (hg : groups[g]? = some group)
    (hf : group.filters[f]? = some filter) :
    ∃ spec ∈ taskSpecs groups, spec.startGroupIndex ≤ g ∧
      g < spec.startGroupIndex + spec.chunkCount := by
  have hlt := (List.getElem?_eq_some_iff.mp hg).1
  have hrange : (g / 256 * 256, min 256 (groups.length - g / 256 * 256)) ∈ chunkRanges groups := by
    refine List.mem_map.mpr ⟨g / 256, List.mem_range.mpr ?_, rfl⟩
    unfold kAclMaxCategoriesChunk
    omega
  have hin : g / 256 * 256 ≤ g ∧
      g < g / 256 * 256 + min 256 (groups.length - g / 256 * 256) := by omega
  have hrules : rulesFrom groups (g / 256 * 256) (min 256 (groups.length - g / 256 * 256)) ≠ [] :=
    List.ne_nil_of_mem (mem_rulesFrom.mpr ⟨g, f, group, filter, hin.1, hin.2, hg, hf, rfl⟩)
  have hmem : (g / 256 * 256, min 256 (groups.length - g / 256 * 256)) ∈
      (chunkRanges groups).filter fun r ↦ !(rulesFrom groups r.1 r.2).isEmpty := by
    rw [List.mem_filter, Bool.not_eq_true', List.isEmpty_eq_false_iff]
    exact ⟨hrange, hrules⟩
  obtain ⟨i, hi, hget⟩ := List.getElem_of_mem hmem
  refine ⟨_, List.mem_mapIdx.mpr ⟨i, hi, rfl⟩, ?_, ?_⟩
  · rw [hget]
    exact hin.1
  · rw [hget]
    exact hin.2

/-- The tasks are in the order of the groups. -/
theorem taskSpecs_pairwise (groups : List CompiledFilterGroup) :
    (taskSpecs groups).Pairwise fun a b ↦ a.startGroupIndex + a.chunkCount ≤ b.startGroupIndex := by
  have hranges : (chunkRanges groups).Pairwise fun a b ↦ a.1 + a.2 ≤ b.1 := by
    rw [chunkRanges, List.pairwise_map]
    refine List.pairwise_lt_range.imp fun {a b} hab ↦ ?_
    dsimp only [kAclMaxCategoriesChunk]
    omega
  have hfilter := hranges.filter fun r ↦ !(rulesFrom groups r.1 r.2).isEmpty
  rw [List.pairwise_iff_getElem] at hfilter ⊢
  intro i j hi hj hij
  simp only [taskSpecs, List.length_mapIdx] at hi hj
  simpa [taskSpecs] using hfilter i j hi hj hij

/-! ## The library's choice -/

/-- What `rte_acl_classify` promises: the userdata of some rule of the highest priority
among those that match, and 0 when none matches. -/
def ClassifySpec (algorithm : List AclRule → AclInputData → BitVec 32) : Prop :=
  ∀ rules input,
    ((∀ r ∈ rules, ¬ r.Matches input) → algorithm rules input = 0) ∧
      ((∃ r ∈ rules, r.Matches input) → ∃ r ∈ rules, r.Matches input ∧
        (∀ r' ∈ rules, r'.Matches input → r'.priority ≤ r.priority) ∧
        algorithm rules input = r.userdata)

/-- A rule of the highest priority among those that match, the first such one. -/
def bestRule (input : AclInputData) : List AclRule → Option AclRule
  | [] => none
  | r :: rest =>
      match bestRule input rest with
      | none => if r.Matches input then some r else none
      | some best => if r.Matches input ∧ best.priority ≤ r.priority then some r else some best

/-- A classification that goes through the rules one by one. -/
def linearClassify (rules : List AclRule) (input : AclInputData) : BitVec 32 :=
  ((bestRule input rules).map AclRule.userdata).getD 0

theorem bestRule_spec (input : AclInputData) (rules : List AclRule) :
    (bestRule input rules = none ∧ ∀ r ∈ rules, ¬ r.Matches input) ∨
      ∃ r ∈ rules, bestRule input rules = some r ∧ r.Matches input ∧
        ∀ r' ∈ rules, r'.Matches input → r'.priority ≤ r.priority := by
  induction rules with
  | nil => exact .inl ⟨rfl, by simp⟩
  | cons a rules ih =>
      rw [bestRule]
      rcases ih with ⟨hnone, hno⟩ | ⟨r, hr, hbest, hmatch, hmax⟩
      · rw [hnone]
        by_cases ha : a.Matches input
        · refine .inr ⟨a, List.mem_cons_self, if_pos ha, ha, ?_⟩
          rw [List.forall_mem_cons]
          exact ⟨fun _ ↦ le_rfl, fun r hr hm ↦ absurd hm (hno r hr)⟩
        · exact .inl ⟨if_neg ha, List.forall_mem_cons.mpr ⟨ha, hno⟩⟩
      · rw [hbest]
        by_cases ha : a.Matches input ∧ r.priority ≤ a.priority
        · refine .inr ⟨a, List.mem_cons_self, if_pos ha, ha.1, ?_⟩
          rw [List.forall_mem_cons]
          exact ⟨fun _ ↦ le_rfl, fun r' hr' hm ↦ (hmax r' hr' hm).trans ha.2⟩
        · refine .inr ⟨r, List.mem_cons_of_mem _ hr, if_neg ha, hmatch, ?_⟩
          rw [List.forall_mem_cons]
          exact ⟨fun hm ↦ le_of_not_ge fun hle ↦ ha ⟨hm, hle⟩, hmax⟩

theorem linearClassify_spec : ClassifySpec linearClassify := by
  intro rules input
  rw [linearClassify]
  rcases bestRule_spec input rules with ⟨hnone, hno⟩ | ⟨r, hr, hbest, hmatch, hmax⟩
  · rw [hnone]
    refine ⟨fun _ ↦ rfl, ?_⟩
    rintro ⟨r, hr, hm⟩
    exact absurd hm (hno r hr)
  · rw [hbest]
    exact ⟨fun hno ↦ absurd hmatch (hno r hr), fun _ ↦ ⟨r, hr, hmatch, hmax, rfl⟩⟩

/-- The groups a table can encode, with well-formed filters. -/
structure Encodable (groups : List CompiledFilterGroup) : Prop where
  length_lt : groups.length < 65535
  filters_lt : ∀ g ∈ groups, g.filters.length < 65535
  wellFormed : ∀ g ∈ groups, ∀ f ∈ g.filters, f.WellFormed

section Classification

variable {algorithm : List AclRule → AclInputData → BitVec 32} {lib : AclLib} {t : RuleTable}
  {d : Dpdk} {packet : PacketMetadata}

/-- One chunk: no answer when no filter of its groups accepts the packet, otherwise a
filter of its groups with minimal precedence among them. -/
theorem chunk_answer (halg : ClassifySpec algorithm) (hgroups : Encodable t.groups)
    (hv4 : packet.ipVersion = .kIpv4) {spec : ChunkTaskSpec}
    (hvalid : (chunkRules t.groups spec).all validPriority = true) :
    ((∀ r ∈ chunkRules t.groups spec, ¬ r.Matches (aclInput packet)) ∧
        t.decode packet (algorithm (chunkRules t.groups spec) (aclInput packet)) = none) ∨
      ∃ (g f : Nat) (group : CompiledFilterGroup) (filter : CompiledFilter),
        spec.startGroupIndex ≤ g ∧ g < spec.startGroupIndex + spec.chunkCount ∧
        t.groups[g]? = some group ∧ group.filters[f]? = some filter ∧ filter.Accepts packet ∧
        (∀ (g' f' : Nat) (group' : CompiledFilterGroup) (filter' : CompiledFilter),
          spec.startGroupIndex ≤ g' → g' < spec.startGroupIndex + spec.chunkCount →
          t.groups[g']? = some group' → group'.filters[f']? = some filter' →
          filter'.Accepts packet → group.precedence ≤ group'.precedence) ∧
        t.decode packet (algorithm (chunkRules t.groups spec) (aclInput packet)) =
          some (resultOf group filter) := by
  by_cases hex : ∃ r ∈ chunkRules t.groups spec, r.Matches (aclInput packet)
  · obtain ⟨r, hr, hmatch, hbest, hanswer⟩ := (halg _ _).2 hex
    obtain ⟨g, f, group, filter, hle, hlt, hg, hf, rfl⟩ := mem_rulesFrom.mp hr
    have hgmem := List.mem_of_getElem? hg
    have hfmem := List.mem_of_getElem? hf
    have haccepts := (buildAclRule_matches_iff (hgroups.wellFormed _ hgmem _ hfmem) hv4 _ _ _).mp
      hmatch
    have hprio := priority_of_valid (List.all_eq_true.mp hvalid _ hr)
    refine .inr ⟨g, f, group, filter, hle, hlt, hg, hf, haccepts, ?_, ?_⟩
    · intro g' f' group' filter' hle' hlt' hg' hf' haccepts'
      have hr' : buildAclRule filter' (BitVec.ofNat 32 g') (BitVec.ofNat 32 f') group'.precedence ∈
          chunkRules t.groups spec :=
        mem_rulesFrom.mpr ⟨g', f', group', filter', hle', hlt', hg', hf', rfl⟩
      have hmatch' := (buildAclRule_matches_iff (hgroups.wellFormed _ (List.mem_of_getElem? hg') _
        (List.mem_of_getElem? hf')) hv4 (BitVec.ofNat 32 g') (BitVec.ofNat 32 f')
        group'.precedence).mpr haccepts'
      have hprio' := priority_of_valid (List.all_eq_true.mp hvalid _ hr')
      have hle := hbest _ hr' hmatch'
      rw [BitVec.le_def]
      omega
    · rw [hanswer]
      have hglt := (List.getElem?_eq_some_iff.mp hg).1
      have hflt := (List.getElem?_eq_some_iff.mp hf).1
      have hfilters := hgroups.filters_lt _ hgmem
      exact decode_encodeUserdata (hglt.trans hgroups.length_lt) (hflt.trans hfilters) hg hf
        haccepts.portProtocol
  · have hno : ∀ r ∈ chunkRules t.groups spec, ¬ r.Matches (aclInput packet) :=
      fun r hr hm ↦ hex ⟨r, hr, hm⟩
    refine .inl ⟨hno, ?_⟩
    rw [(halg _ _).1 hno]
    rfl

/-- The chunks of a table in turn: the first one with an accepting filter answers. -/
theorem matchLoop_built (halg : ClassifySpec algorithm) (hgroups : Encodable t.groups)
    (hv4 : packet.ipVersion = .kIpv4) (hacl : d.aclClassify = classifyIn algorithm lib)
    {specs : List ChunkTaskSpec} {chunks : List AclChunk}
    (hbuilt : List.Forall₂ (ChunkBuilt lib t.groups) specs chunks)
    (hsorted : specs.Pairwise fun a b ↦ a.startGroupIndex + a.chunkCount ≤ b.startGroupIndex)
    (hprec : t.groups.Pairwise fun a b ↦ a.precedence ≤ b.precedence) :
    ((∀ spec ∈ specs, ∀ r ∈ chunkRules t.groups spec, ¬ r.Matches (aclInput packet)) ∧
        t.matchLoop d packet chunks = {}) ∨
      ∃ group ∈ t.groups, ∃ filter ∈ group.filters, filter.Accepts packet ∧
        (∀ spec ∈ specs, ∀ (g f : Nat) (group' : CompiledFilterGroup) (filter' : CompiledFilter),
          spec.startGroupIndex ≤ g → g < spec.startGroupIndex + spec.chunkCount →
          t.groups[g]? = some group' → group'.filters[f]? = some filter' →
          filter'.Accepts packet → group.precedence ≤ group'.precedence) ∧
        t.matchLoop d packet chunks = resultOf group filter := by
  induction hbuilt with
  | nil => exact .inl ⟨by simp, rfl⟩
  | @cons spec chunk specs chunks hchunk hrest ih =>
      obtain ⟨hhead, htail⟩ := List.pairwise_cons.mp hsorted
      obtain ⟨ctx, hctx, htrie⟩ := hchunk.trie_eq
      have hclassify : chunk.ctx.bind d.aclClassify =
          some (algorithm (chunkRules t.groups spec)) := by
        rw [hctx, Option.bind_some, hacl, classifyIn, htrie, Option.map_some]
      rw [RuleTable.matchLoop, hclassify]
      dsimp only
      rcases chunk_answer halg hgroups hv4 hchunk.valid with
        ⟨hno, hdec⟩ | ⟨g, f, group, filter, hle, hlt, hg, hf, haccepts, hbest, hdec⟩
      · rw [hdec]
        rcases ih htail with ⟨hnone, hres⟩ | ⟨group, hgm, filter, hfm, haccepts, hbest, hres⟩
        · exact .inl ⟨List.forall_mem_cons.mpr ⟨hno, hnone⟩, hres⟩
        · refine .inr ⟨group, hgm, filter, hfm, haccepts, ?_, hres⟩
          rw [List.forall_mem_cons]
          refine ⟨?_, hbest⟩
          intro g f group' filter' hle hlt hg hf haccepts'
          -- no filter of the first chunk accepts the packet
          refine absurd ?_
            (hno _ (mem_rulesFrom.mpr ⟨g, f, group', filter', hle, hlt, hg, hf, rfl⟩))
          exact (buildAclRule_matches_iff (hgroups.wellFormed _ (List.mem_of_getElem? hg) _
            (List.mem_of_getElem? hf)) hv4 _ _ _).mpr haccepts'
      · rw [hdec]
        refine .inr ⟨group, List.mem_of_getElem? hg, filter, List.mem_of_getElem? hf, haccepts, ?_,
          rfl⟩
        rw [List.forall_mem_cons]
        refine ⟨fun g' f' group' filter' ↦ hbest g' f' group' filter', ?_⟩
        intro spec' hspec' g' f' group' filter' hle' hlt' hg' hf' haccepts'
        -- groups of later chunks stand behind, so their precedence is not smaller
        have hlt'' : g < g' := by
          have := hhead spec' hspec'
          omega
        obtain ⟨hi, rfl⟩ := List.getElem?_eq_some_iff.mp hg
        obtain ⟨hj, rfl⟩ := List.getElem?_eq_some_iff.mp hg'
        exact List.pairwise_iff_getElem.mp hprec g g' hi hj hlt''

end Classification

/-! ## From the configured groups to the table's -/

/-- The groups are the configured ones, compiled in their order. -/
def CompiledFrom (inetPton : InetPton) (configs : List SpiFilterGroupConfig)
    (groups : List CompiledFilterGroup) : Prop :=
  groups.length = configs.length ∧ ∀ (i : Nat) config, configs[i]? = some config →
    ∃ g, groups[i]? = some g ∧ compileGroup inetPton i config = .ok g

theorem prepareGroups_ok {io : CompileIo} {config : SpiConfig} {algorithm : AclClassifyAlg}
    {groups : List CompiledFilterGroup} (h : prepareGroups io config = .ok (algorithm, groups)) :
    ∃ compiled, CompiledFrom io.inetPton config.filterGroups compiled ∧
      groups = setCategories (io.sort compiled) := by
  unfold prepareGroups at h
  split at h
  · cases h
  · split at h
    · cases h
    · split at h
      · cases h
      · rename_i compiled hparse
        dsimp only at h
        split at h
        · cases h
        · obtain ⟨-, rfl⟩ := Prod.mk.inj (Except.ok.inj h)
          exact ⟨compiled, parseGroups_ok (one_le_clampThreads _ _) hparse, rfl⟩

/-- A compiled group stems from a configured one. -/
theorem CompiledFrom.exists_config {inetPton : InetPton} {configs : List SpiFilterGroupConfig}
    {groups : List CompiledFilterGroup} (h : CompiledFrom inetPton configs groups)
    {g : CompiledFilterGroup} (hg : g ∈ groups) :
    ∃ (i : Nat) (config : SpiFilterGroupConfig), config ∈ configs ∧
      compileGroup inetPton i config = .ok g := by
  obtain ⟨i, hi, rfl⟩ := List.getElem_of_mem hg
  have hi' : i < configs.length := h.1 ▸ hi
  obtain ⟨g, hget, hcompile⟩ := h.2 i configs[i] (List.getElem?_eq_getElem hi')
  obtain rfl : groups[i] = g := by simpa [List.getElem?_eq_getElem hi] using hget
  exact ⟨i, configs[i], List.getElem_mem hi', hcompile⟩

/-- Numbering changes nothing but the numbers. -/
theorem mem_setCategories {groups : List CompiledFilterGroup} {g : CompiledFilterGroup} :
    g ∈ setCategories groups ↔ ∃ (i : Nat) (g₀ : CompiledFilterGroup), groups[i]? = some g₀ ∧
      g = { g₀ with categoryIndex := BitVec.ofNat 32 i } := by
  rw [setCategories, List.mem_mapIdx]
  constructor
  · rintro ⟨i, hi, rfl⟩
    exact ⟨i, groups[i], List.getElem?_eq_getElem hi, rfl⟩
  · rintro ⟨i, g₀, hget, rfl⟩
    obtain ⟨hi, rfl⟩ := List.getElem?_eq_some_iff.mp hget
    exact ⟨i, hi, rfl⟩

theorem setCategories_sorted {groups : List CompiledFilterGroup}
    (h : groups.Pairwise fun a b ↦ a.precedence ≤ b.precedence) :
    (setCategories groups).Pairwise fun a b ↦ a.precedence ≤ b.precedence := by
  rw [List.pairwise_iff_getElem] at h ⊢
  intro i j hi hj hij
  simp only [setCategories, List.length_mapIdx] at hi hj
  simpa [setCategories] using h i j hi hj hij

/-- The groups of a table and the compiled ones are the same up to order and number. -/
theorem exists_mem_setCategories (io : CompileIo) {compiled : List CompiledFilterGroup}
    {P : CompiledFilterGroup → Prop}
    (hP : ∀ g c, P { g with categoryIndex := c } ↔ P g) :
    (∃ g ∈ setCategories (io.sort compiled), P g) ↔ ∃ g ∈ compiled, P g := by
  constructor
  · rintro ⟨g, hg, hPg⟩
    obtain ⟨i, g₀, hget, rfl⟩ := mem_setCategories.mp hg
    exact ⟨g₀, (io.sort_perm compiled).mem_iff.mp (List.mem_of_getElem? hget), (hP g₀ _).mp hPg⟩
  · rintro ⟨g, hg, hPg⟩
    obtain ⟨i, hi, rfl⟩ := List.getElem_of_mem ((io.sort_perm compiled).mem_iff.mpr hg)
    exact ⟨_, mem_setCategories.mpr ⟨i, _, List.getElem?_eq_getElem hi, rfl⟩, (hP _ _).mpr hPg⟩

/-- A group of a table has a well-formed filter for each one of a configured group. -/
theorem CompiledFrom.of_mem_setCategories {io : CompileIo} {configs : List SpiFilterGroupConfig}
    {compiled : List CompiledFilterGroup} (h : CompiledFrom io.inetPton configs compiled)
    {group : CompiledFilterGroup} (hgroup : group ∈ setCategories (io.sort compiled)) :
    ∃ config ∈ configs, group.filters.length = config.filters.length ∧
      ∀ filter ∈ group.filters, filter.WellFormed := by
  obtain ⟨i, g, hget, rfl⟩ := mem_setCategories.mp hgroup
  obtain ⟨j, config, hconfig, hcompile⟩ :=
    h.exists_config ((io.sort_perm compiled).mem_iff.mp (List.mem_of_getElem? hget))
  obtain ⟨hlength, hwf⟩ := compileGroup_ok hcompile
  exact ⟨config, hconfig, hlength, hwf⟩

theorem encodable_setCategories {io : CompileIo} {configs : List SpiFilterGroupConfig}
    {compiled : List CompiledFilterGroup} (h : CompiledFrom io.inetPton configs compiled)
    (hlen : configs.length < 65535) (hfilters : ∀ g ∈ configs, g.filters.length < 65535) :
    Encodable (setCategories (io.sort compiled)) := by
  refine ⟨?_, fun g hg ↦ ?_, fun g hg ↦ ?_⟩
  · rw [setCategories, List.length_mapIdx, (io.sort_perm compiled).length_eq, h.1]
    exact hlen
  · obtain ⟨config, hconfig, hlength, -⟩ := h.of_mem_setCategories hg
    exact hlength.trans_lt (hfilters config hconfig)
  · obtain ⟨config, -, -, hwf⟩ := h.of_mem_setCategories hg
    exact hwf

/-! ## The answer of a compiled table -/

/-- What a table with built chunks answers, in terms of its own groups. -/
theorem matchPacket_built {algorithm : List AclRule → AclInputData → BitVec 32} {lib : AclLib}
    {t : RuleTable} {d : Dpdk} {packet : PacketMetadata} (halg : ClassifySpec algorithm)
    (hgroups : Encodable t.groups) (hv4 : packet.ipVersion = .kIpv4)
    (hacl : d.aclClassify = classifyIn algorithm lib)
    (hbuilt : List.Forall₂ (ChunkBuilt lib t.groups) (taskSpecs t.groups) t.aclChunks)
    (hprec : t.groups.Pairwise fun a b ↦ a.precedence ≤ b.precedence) :
    ((¬ ∃ g ∈ t.groups, ∃ f ∈ g.filters, f.Accepts packet) ∧ t.matchPacket d packet = {}) ∨
      ∃ g ∈ t.groups, ∃ f ∈ g.filters, f.Accepts packet ∧
        (∀ g' ∈ t.groups, (∃ f' ∈ g'.filters, f'.Accepts packet) →
          g.precedence ≤ g'.precedence) ∧
        t.matchPacket d packet = resultOf g f := by
  rw [RuleTable.matchPacket_eq_matchLoop]
  rcases matchLoop_built halg hgroups hv4 hacl hbuilt (taskSpecs_pairwise _) hprec with
    ⟨hnone, hres⟩ | ⟨g, hg, f, hf, haccepts, hbest, hres⟩
  · refine .inl ⟨?_, hres⟩
    rintro ⟨g, hg, f, hf, haccepts⟩
    obtain ⟨i, hi⟩ := List.mem_iff_getElem?.mp hg
    obtain ⟨j, hj⟩ := List.mem_iff_getElem?.mp hf
    obtain ⟨spec, hspec, hle, hlt⟩ := exists_taskSpec hi hj
    refine hnone spec hspec _ (mem_rulesFrom.mpr ⟨i, j, g, f, hle, hlt, hi, hj, rfl⟩) ?_
    exact (buildAclRule_matches_iff (hgroups.wellFormed g hg f hf) hv4 _ _ _).mpr haccepts
  · refine .inr ⟨g, hg, f, hf, haccepts, ?_, hres⟩
    rintro g' hg' ⟨f', hf', haccepts'⟩
    obtain ⟨i, hi⟩ := List.mem_iff_getElem?.mp hg'
    obtain ⟨j, hj⟩ := List.mem_iff_getElem?.mp hf'
    obtain ⟨spec, hspec, hle, hlt⟩ := exists_taskSpec hi hj
    exact hbest spec hspec i j g' f' hle hlt hi hj haccepts'

/-- **Classification is by precedence.**  On the table of a compilation that succeeds,
`Match` finds a filter that accepts the packet exactly when there is one, and then
reports a group of minimal precedence among those with such a filter. -/
theorem compileRuleTable_precedence {algorithm : List AclRule → AclInputData → BitVec 32}
    {d : Dpdk} {io : CompileIo} {config : SpiConfig} {lib lib' : AclLib} {table : RuleTable}
    {packet : PacketMetadata} (hreach : aclRuns.Reach lib)
    (hok : compileRuleTable d io config lib = (.ok table, lib'))
    (hlen : config.filterGroups.length < 65535)
    (hfilters : ∀ g ∈ config.filterGroups, g.filters.length < 65535)
    (halg : ClassifySpec algorithm) (hv4 : packet.ipVersion = .kIpv4) :
    ∃ compiled, CompiledFrom io.inetPton config.filterGroups compiled ∧
      let result := table.matchPacket { d with aclClassify := classifyIn algorithm lib' } packet
      (result.matched = true ↔ ∃ g ∈ compiled, ∃ f ∈ g.filters, f.Accepts packet) ∧
        (result.matched = true → ∃ g ∈ compiled, ∃ f ∈ g.filters, f.Accepts packet ∧
          (∀ g' ∈ compiled, (∃ f' ∈ g'.filters, f'.Accepts packet) →
            g.precedence ≤ g'.precedence) ∧
          result = resultOf g f) := by
  obtain ⟨_, groups, hprepare, hgroups, hbuilt, -, -⟩ :=
    compileRuleTable_built (reach_saturated hreach) hok
  obtain ⟨compiled, hcompiled, rfl⟩ := prepareGroups_ok hprepare
  refine ⟨compiled, hcompiled, ?_⟩
  have hencodable := encodable_setCategories hcompiled hlen hfilters
  have hprec := setCategories_sorted (io.sort_sorted compiled)
  rw [← hgroups] at hencodable hprec hbuilt
  have hsome : (∃ g ∈ table.groups, ∃ f ∈ g.filters, f.Accepts packet) ↔
      ∃ g ∈ compiled, ∃ f ∈ g.filters, f.Accepts packet := by
    rw [hgroups]
    exact exists_mem_setCategories io fun _ _ ↦ Iff.rfl
  have hall : ∀ p : BitVec 32, (∀ g' ∈ table.groups, (∃ f' ∈ g'.filters, f'.Accepts packet) →
      p ≤ g'.precedence) → ∀ g' ∈ compiled, (∃ f' ∈ g'.filters, f'.Accepts packet) →
        p ≤ g'.precedence := by
    intro p hp g' hg' hf'
    by_contra hlt
    have hex : ∃ g ∈ setCategories (io.sort compiled),
        (∃ f' ∈ g.filters, f'.Accepts packet) ∧ ¬ p ≤ g.precedence :=
      (exists_mem_setCategories io fun _ _ ↦ Iff.rfl).mpr ⟨g', hg', hf', hlt⟩
    obtain ⟨g, hg, hf, hnot⟩ := hex
    exact hnot (hp g (hgroups ▸ hg) hf)
  dsimp only
  rcases matchPacket_built (d := { d with aclClassify := classifyIn algorithm lib' }) halg
    hencodable hv4 rfl hbuilt hprec with ⟨hnone, hres⟩ | ⟨g, hg, f, hf, haccepts, hbest, hres⟩
  · rw [hres, ← hsome]
    exact ⟨⟨fun h ↦ absurd h Bool.false_ne_true, fun h ↦ absurd h hnone⟩,
      fun h ↦ absurd h Bool.false_ne_true⟩
  · refine ⟨⟨fun _ ↦ hsome.mp ⟨g, hg, f, hf, haccepts⟩, fun _ ↦ by
      rw [hres]
      rfl⟩, fun _ ↦ ?_⟩
    have hex : ∃ g' ∈ compiled, ∃ f' ∈ g'.filters, f'.Accepts packet ∧
        (∀ g'' ∈ table.groups, (∃ f'' ∈ g''.filters, f''.Accepts packet) →
          g'.precedence ≤ g''.precedence) ∧
        table.matchPacket { d with aclClassify := classifyIn algorithm lib' } packet =
          resultOf g' f' := by
      refine (exists_mem_setCategories io fun _ _ ↦ Iff.rfl).mp ⟨g, hgroups ▸ hg, ?_⟩
      exact ⟨f, hf, haccepts, hbest, hres⟩
    obtain ⟨g', hg', f', hf', haccepts', hbest', hres'⟩ := hex
    exact ⟨g', hg', f', hf', haccepts', hall _ hbest', hres'⟩

/-- Two groups that accept TCP packets, the second of smaller precedence. -/
def tcpConfig : SpiConfig where
  filterGroups :=
    [{ name := "late", precedence := 20, filters := [{ protocol := "tcp" }] },
      { name := "early", precedence := 10, action := "drop", filters := [{ protocol := "tcp" }] }]

/-- A TCP packet on the table of `tcpConfig`, compiled in a fresh process. -/
theorem compileRuleTable_precedence_tcp : ∃ table lib' compiled,
    compileRuleTable RuleTable.tcpDpdk (.untroubled (fun _ ↦ none) 4) tcpConfig Registry.empty =
        (.ok table, lib') ∧
      CompiledFrom (fun _ ↦ none) tcpConfig.filterGroups compiled ∧
      let result := table.matchPacket
        { RuleTable.tcpDpdk with aclClassify := classifyIn linearClassify lib' } {}
      (result.matched = true ↔
          ∃ g ∈ compiled, ∃ f ∈ g.filters, f.Accepts ({} : PacketMetadata)) ∧
        (result.matched = true → ∃ g ∈ compiled, ∃ f ∈ g.filters,
          f.Accepts ({} : PacketMetadata) ∧
          (∀ g' ∈ compiled, (∃ f' ∈ g'.filters, f'.Accepts ({} : PacketMetadata)) →
            g.precedence ≤ g'.precedence) ∧
          result = resultOf g f) := by
  have hok : ((compileRuleTable RuleTable.tcpDpdk (.untroubled (fun _ ↦ none) 4) tcpConfig
      Registry.empty).1.toOption).isSome = true := by decide +kernel
  generalize hr : compileRuleTable RuleTable.tcpDpdk (.untroubled (fun _ ↦ none) 4) tcpConfig
    Registry.empty = r at hok
  obtain ⟨_ | table, lib'⟩ := r
  · cases hok
  · obtain ⟨compiled, hcompiled, hresult⟩ := compileRuleTable_precedence (.init rfl) hr (by decide)
      (by decide) linearClassify_spec (show ({} : PacketMetadata).ipVersion = .kIpv4 from rfl)
    exact ⟨table, lib', compiled, rfl, hcompiled, hresult⟩

end DpdkSpi
