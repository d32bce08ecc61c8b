import DpdkSpi.Rule.Move
import DpdkSpi.Rule.Precedence

/-!
# The membership pre-filter

`CompileRuleTable` adds the destinations of the filters to a set, each with the port and the
protocol of its filter: an exact address by itself, a block of at most 4096 addresses one by one.
`MemberFilterBulk` lets the packets skip the ACL whose destination is not in the set, neither with
their port nor with port 0.  A filter whose destinations are not added turns the pre-filter off
for the whole table, so that no packet skips the ACL that a filter accepts
(`memberFilterBulk_noFalseSkip`).
-/

namespace DpdkSpi

open Lib

/-! ## The keys that are added -/

/-- One call of `rte_member_add`. -/
structure MemberAdd where
  key : MemberKey
  setId : BitVec 16
deriving DecidableEq, Repr

/-- The key of a filter for one of its destinations. -/
def filterMemberKey (filter : CompiledFilter) (address : BitVec 32) : MemberKey where
  dstIpBe := rteCpuToBe32 address
  dstPortBe := if filter.matchDestinationPort then rteCpuToBe16 filter.destinationPort else 0
  protocol := if filter.protocol = .kTcp then 6 else 17

/-- The destinations of a filter that are added: one address, or the addresses of a small block. -/
def memberAddresses (filter : CompiledFilter) : List (BitVec 32) :=
  if filter.matchDestinationIp then [filter.destinationIpAddress]
  else if filter.matchDestinationCidr ∧ 20 ≤ filter.destinationPrefixLength then
    (List.range (2 ^ (32 - filter.destinationPrefixLength.toNat))).map fun host ↦
      filter.destinationNetwork + BitVec.ofNat 32 host
  else []

/-- The calls of `rte_member_add` in `CompileRuleTable` for the `g`-th group. -/
def groupMemberAdds (g : Nat) (group : CompiledFilterGroup) : List MemberAdd :=
  group.filters.flatMap fun filter ↦ (memberAddresses filter).map fun address ↦
    { key := filterMemberKey filter address, setId := BitVec.ofNat 16 (g + 1) }

/-- The calls of `rte_member_add` in `CompileRuleTable`, if there is a set. -/
def memberAdds (groups : List CompiledFilterGroup) : List MemberAdd :=
  (groups.mapIdx groupMemberAdds).flatten

theorem mem_memberAdds {groups : List CompiledFilterGroup} {add : MemberAdd} :
    add ∈ memberAdds groups ↔ ∃ (g : Nat) (group : CompiledFilterGroup), groups[g]? = some group ∧
      ∃ filter ∈ group.filters, ∃ address ∈ memberAddresses filter,
        add = { key := filterMemberKey filter address, setId := BitVec.ofNat 16 (g + 1) } := by
  rw [memberAdds, List.mem_flatten]
  constructor
  · rintro ⟨adds, hadds, hadd⟩
    obtain ⟨g, hg, rfl⟩ := List.mem_mapIdx.mp hadds
    obtain ⟨filter, hfilter, hmem⟩ := List.mem_flatMap.mp hadd
    obtain ⟨address, haddress, rfl⟩ := List.mem_map.mp hmem
    exact ⟨g, groups[g], List.getElem?_eq_getElem hg, filter, hfilter, address, haddress, rfl⟩
  · rintro ⟨g, group, hget, filter, hfilter, address, haddress, rfl⟩
    obtain ⟨hg, rfl⟩ := List.getElem?_eq_some_iff.mp hget
    refine ⟨_, List.mem_mapIdx.mpr ⟨g, hg, rfl⟩, List.mem_flatMap.mpr ⟨filter, hfilter, ?_⟩⟩
    exact List.mem_map.mpr ⟨address, haddress, rfl⟩

/-! ## Addresses in a block -/

/-- A mask clears the low bits. -/
theorem and_aclMask_toNat (x : BitVec 32) {n : BitVec 32} (hpos : n ≠ 0) (hle : n.toNat ≤ 32) :
    (x &&& aclMask n).toNat = x.toNat / 2 ^ (32 - n.toNat) * 2 ^ (32 - n.toNat) := by
  have hshift : x &&& aclMask n = (x >>> (32 - n.toNat)) <<< (32 - n.toNat) := by
    rw [aclMask, if_neg hpos]
    ext i hi
    simp only [BitVec.getElem_and, BitVec.getElem_shiftLeft, BitVec.getElem_allOnes,
      BitVec.getElem_ushiftRight]
    grind
  have hlt : x.toNat / 2 ^ (32 - n.toNat) * 2 ^ (32 - n.toNat) < 2 ^ 32 :=
    (Nat.div_mul_le_self _ _).trans_lt x.isLt
  rw [hshift, BitVec.toNat_shiftLeft, BitVec.toNat_ushiftRight, Nat.shiftLeft_eq,
    Nat.shiftRight_eq_div_pow, Nat.mod_eq_of_lt hlt]

/-- An address is the network of its block and a host number. -/
theorem exists_host {x network n : BitVec 32} (hpos : n ≠ 0) (hle : n.toNat ≤ 32)
    (h : x &&& aclMask n = network) :
    ∃ host < 2 ^ (32 - n.toNat), network + BitVec.ofNat 32 host = x := by
  refine ⟨x.toNat % 2 ^ (32 - n.toNat), Nat.mod_lt _ (Nat.two_pow_pos _), ?_⟩
  apply BitVec.eq_of_toNat_eq
  rw [BitVec.toNat_add, ← h, and_aclMask_toNat x hpos hle, BitVec.toNat_ofNat,
    Nat.mod_eq_of_lt ((Nat.mod_le _ _).trans_lt x.isLt), Nat.mul_comm, Nat.div_add_mod,
    Nat.mod_eq_of_lt x.isLt]

/-! ## Filters that accept a packet -/

/-- The destination of a packet that a filter accepts is one of those that are added, unless the
filter is one that turns the pre-filter off. -/
theorem CompiledFilter.Accepts.mem_memberAddresses {filter : CompiledFilter}
    {packet : PacketMetadata} (h : filter.Accepts packet) (hwf : filter.WellFormed)
    (hwild : RuleTable.isWildcardIpRule filter = false) :
    rteBeToCpu32 packet.destinationIpBe ∈ memberAddresses filter := by
  obtain ⟨-, -, hip, hcidr, -, -⟩ := h
  unfold memberAddresses
  by_cases hexact : filter.matchDestinationIp = true
  · rw [if_pos hexact, hip hexact]
    exact List.mem_singleton_self _
  · rw [RuleTable.isWildcardIpRule, Bool.eq_false_iff.mpr hexact, Bool.not_false, Bool.true_and,
      Bool.or_eq_false_iff, Bool.not_eq_false', decide_eq_false_iff_not, BitVec.not_lt] at hwild
    obtain ⟨hblock, hlong⟩ := hwild
    obtain ⟨n, hn, hlength, hmask, -⟩ := hwf.cidr hblock
    have hle : filter.destinationPrefixLength.toNat ≤ 32 := by
      rw [hlength, BitVec.toNat_setWidth_of_le (by decide)]
      exact BitVec.le_def.mp hn
    have hpos : filter.destinationPrefixLength ≠ 0 := by
      intro hzero
      rw [hzero] at hlong
      exact absurd hlong (by decide)
    have hnetwork := hcidr hblock
    rw [hmask, ← aclMask_eq_prefixMask hn, ← hlength] at hnetwork
    obtain ⟨host, hlt, hhost⟩ := exists_host hpos hle hnetwork
    rw [if_neg hexact, if_pos ⟨hblock, hlong⟩]
    exact List.mem_map.mpr ⟨host, List.mem_range.mpr hlt, hhost⟩

/-- Its key in the set is that of the packet, with its destination port or with port 0. -/
theorem CompiledFilter.Accepts.filterMemberKey_eq {filter : CompiledFilter}
    {packet : PacketMetadata} (h : filter.Accepts packet) :
    filterMemberKey filter (rteBeToCpu32 packet.destinationIpBe) =
        RuleTable.memberKey packet packet.destinationPortBe ∨
      filterMemberKey filter (rteBeToCpu32 packet.destinationIpBe) =
        RuleTable.memberKey packet 0 := by
  obtain ⟨hprotocol, -, -, -, -, hport⟩ := h
  have hproto : (if filter.protocol = .kTcp then (6 : BitVec 8) else 17) =
      protocolToIpProto packet.protocol := by
    rw [hprotocol]
    cases packet.protocol with
    | kTcp => rfl
    | kUdp => rfl
  unfold filterMemberKey RuleTable.memberKey
  rw [rteCpuToBe32_rteBeToCpu32, hproto]
  by_cases hexact : filter.matchDestinationPort = true
  · left
    rw [if_pos hexact, hport hexact, rteCpuToBe16_rteBeToCpu16]
  · right
    rw [if_neg hexact]

/-! ## What is skipped -/

section Skips

variable {d : Dpdk} {lib : AclLib} {t : RuleTable} {packet : PacketMetadata}

/-- `rte_acl_classify` reports, of the rules built in a context, only such as match. -/
def ReportsMatching (d : Dpdk) (lib : AclLib) : Prop :=
  ∀ ctx classify, d.aclClassify ctx = some classify →
    ∀ rules, (lib.find ctx).bind AclCtx.trie = some rules →
      ∀ input, classify input = 0 ∨ ∃ r ∈ rules, r.Matches input ∧ classify input = r.userdata

/-- `rte_member_lookup` finds every key that was added. -/
def FindsAdded (d : Dpdk) (t : RuleTable) : Prop :=
  ∀ memberCtx, t.memberCtx = some memberCtx →
    ∀ add ∈ memberAdds t.groups, d.memberLookup memberCtx add.key ≠ rteMemberNoMatch

/-- A packet that some filter accepts has a set. -/
theorem CompiledFilter.Accepts.memberSetId_ne {filter : CompiledFilter}
    (h : filter.Accepts packet) (hwf : filter.WellFormed)
    (hwild : RuleTable.isWildcardIpRule filter = false) {group : CompiledFilterGroup}
    (hgroup : group ∈ t.groups) (hfilter : filter ∈ group.filters) (hfinds : FindsAdded d t)
    {memberCtx : Nat} (hctx : t.memberCtx = some memberCtx) :
    RuleTable.memberSetId d memberCtx packet ≠ rteMemberNoMatch := by
  obtain ⟨g, hget⟩ := List.getElem?_of_mem hgroup
  have hadded := hfinds memberCtx hctx _ (mem_memberAdds.mpr
    ⟨g, group, hget, filter, hfilter, _, h.mem_memberAddresses hwf hwild, rfl⟩)
  unfold RuleTable.memberSetId
  dsimp only
  split
  · rename_i hmiss
    rcases h.filterMemberKey_eq with hkey | hkey
    · rw [hkey] at hadded
      exact absurd hmiss hadded
    · rw [hkey] at hadded
      exact hadded
  · assumption

theorem memberSetId_of_markSkips {memberCtx : Nat} {packets : List PacketMetadata}
    {skips : List Bool} {i : Nat} (hget : packets[i]? = some packet)
    (hbefore : skips[i]? = some false)
    (hafter : (RuleTable.markSkips d memberCtx packets skips)[i]? = some true) :
    RuleTable.memberSetId d memberCtx packet = rteMemberNoMatch := by
  induction packets generalizing skips i with
  | nil => cases hget
  | cons head packets ih =>
      cases skips with
      | nil => cases hbefore
      | cons skip skips =>
          rw [RuleTable.markSkips] at hafter
          cases i with
          | zero =>
              obtain rfl := Option.some.inj hget
              obtain rfl := Option.some.inj hbefore
              by_contra hmember
              rw [if_neg hmember] at hafter
              cases hafter
          | succ i => exact ih hget hbefore hafter

theorem getElem?_markSkips_of_le {memberCtx : Nat} {packets : List PacketMetadata}
    {skips : List Bool} {i : Nat} (h : packets.length ≤ i) :
    (RuleTable.markSkips d memberCtx packets skips)[i]? = skips[i]? := by
  induction packets generalizing skips i with
  | nil => rfl
  | cons head packets ih =>
      cases skips with
      | nil => rfl
      | cons skip skips =>
          cases i with
          | zero => exact absurd h (Nat.not_succ_le_zero _)
          | succ i => exact ih (Nat.le_of_succ_le_succ h)

/-- A packet that is marked has no set, in a table whose pre-filter is on. -/
theorem of_memberFilterBulk {packets : List PacketMetadata} {skips : List Bool} {i : Nat}
    (hget : packets[i]? = some packet) (hbefore : skips[i]? = some false)
    (hafter : (t.memberFilterBulk d packets skips)[i]? = some true) :
    ∃ memberCtx, t.memberCtx = some memberCtx ∧ t.hasWildcardIpRules = false ∧
      RuleTable.memberSetId d memberCtx packet = rteMemberNoMatch := by
  unfold RuleTable.memberFilterBulk at hafter
  cases hctx : t.memberCtx with
  | none =>
      rw [hctx, hbefore] at hafter
      cases hafter
  | some memberCtx =>
      rw [hctx] at hafter
      cases hwild : t.hasWildcardIpRules with
      | true =>
          simp only [hwild, if_true, hbefore] at hafter
          cases hafter
      | false =>
          simp only [hwild, Bool.false_eq_true, if_false] at hafter
          refine ⟨memberCtx, rfl, rfl, ?_⟩
          by_cases hi : i < RuleTable.kBulkWidth
          · refine memberSetId_of_markSkips ?_ hbefore hafter
            rw [List.getElem?_take_of_lt hi, hget]
          · -- behind the width of the burst the marks stay as they are
            rw [getElem?_markSkips_of_le ?_, hbefore] at hafter
            · cases hafter
            · rw [List.length_take]
              exact (Nat.min_le_left _ _).trans (Nat.le_of_not_lt hi)

/-- `Match` finds nothing for a packet that no filter accepts. -/
theorem matchPacket_of_not_accepts (hreports : ReportsMatching d lib)
    (hbuilt : List.Forall₂ (ChunkBuilt lib t.groups) (taskSpecs t.groups) t.aclChunks)
    (hwf : ∀ group ∈ t.groups, ∀ filter ∈ group.filters, filter.WellFormed)
    (hipv4 : packet.ipVersion = .kIpv4)
    (hno : ∀ group ∈ t.groups, ∀ filter ∈ group.filters, ¬ filter.Accepts packet) :
    t.matchPacket d packet = {} := by
  refine (RuleTable.matchPacket_eq_default_iff t d packet).mpr ?_
  intro chunk hchunk classify hclassify
  obtain ⟨spec, -, hspec⟩ := exists_spec_of_mem hbuilt hchunk
  obtain ⟨ctx, hctx, htrie⟩ := hspec.trie_eq
  rw [hctx, Option.bind_some] at hclassify
  rcases hreports ctx classify hclassify _ htrie (aclInput packet) with hzero | ⟨r, hr, hmatch, -⟩
  · rw [hzero]
    rfl
  · obtain ⟨g, f, group, filter, -, -, hgroup, hfilter, rfl⟩ := mem_rulesFrom.mp hr
    have hmemGroup := List.mem_of_getElem? hgroup
    have hmemFilter := List.mem_of_getElem? hfilter
    have haccepts := (buildAclRule_matches_iff (hwf group hmemGroup filter hmemFilter) hipv4
      _ _ _).mp hmatch
    exact absurd haccepts (hno group hmemGroup filter hmemFilter)

end Skips

/-! ## Compiled tables -/

/-- The result of a compilation was moved out of a table that the constructor has built. -/
theorem compileRuleTable_moved {d : Dpdk} {io : CompileIo} {config : SpiConfig}
    {lib lib' : AclLib} {table : RuleTable}
    (h : compileRuleTable d io config lib = (.ok table, lib')) :
    ∃ t, RuleTable.Constructed d t ∧ table = RuleTable.moveConstruct t := by
  unfold compileRuleTable at h
  split at h
  · cases h
  · dsimp only at h
    split at h
    · cases h
    · obtain ⟨htable, -⟩ := Prod.mk.inj h
      exact ⟨_, .ofChunks _ _ _ _ _ _ _, (Except.ok.inj htable).symm⟩

/-- **The pre-filter skips nothing that matches.**  `t` is the table that `CompileRuleTable` has
constructed, before it is moved into the result. -/
theorem memberFilterBulk_noFalseSkip {d : Dpdk} {io : CompileIo} {config : SpiConfig}
    {lib lib' : AclLib} {t : RuleTable} (hreach : aclRuns.Reach lib)
    (ht : RuleTable.Constructed d t)
    (hok : compileRuleTable d io config lib = (.ok (RuleTable.moveConstruct t), lib'))
    (hfinds : FindsAdded d t) (hreports : ReportsMatching d lib')
    {packets : List PacketMetadata} (hipv4 : ∀ packet ∈ packets, packet.ipVersion = .kIpv4)
    {skips : List Bool} {i : Nat} {packet : PacketMetadata} (hget : packets[i]? = some packet)
    (hbefore : skips[i]? = some false)
    (hafter : (t.memberFilterBulk d packets skips)[i]? = some true) :
    (t.matchPacket d packet).matched = false := by
  obtain ⟨algorithm, groups, hprepare, hgroups, hbuilt, -, -⟩ :=
    compileRuleTable_built (reach_saturated hreach) hok
  obtain rfl : t.groups = groups := hgroups
  obtain ⟨compiled, hcompiled, hsorted⟩ := prepareGroups_ok hprepare
  have hwf : ∀ group ∈ t.groups, ∀ filter ∈ group.filters, filter.WellFormed := by
    intro group hgroup
    rw [hsorted] at hgroup
    obtain ⟨groupConfig, -, -, hwf⟩ := hcompiled.of_mem_setCategories hgroup
    exact hwf
  obtain ⟨memberCtx, hctx, hwild, hmiss⟩ := of_memberFilterBulk hget hbefore hafter
  rw [ht.tssOf.wildcard_eq, RuleTable.anyWildcardIpRule, List.any_eq_false] at hwild
  rw [matchPacket_of_not_accepts hreports hbuilt hwf (hipv4 packet (List.mem_of_getElem? hget))]
  intro group hgroup filter hfilter haccepts
  have hnot : RuleTable.isWildcardIpRule filter = false := by
    have hany := hwild group hgroup
    rw [Bool.not_eq_true, List.any_eq_false] at hany
    exact Bool.eq_false_iff.mpr (hany filter hfilter)
  exact haccepts.memberSetId_ne (hwf group hgroup filter hfilter) hnot hgroup hfilter hfinds hctx
    hmiss

/-! ### One exact destination -/

/-- A library that keeps the promise about priorities reports only rules that match. -/
theorem reportsMatching_of_classifySpec {algorithm : List AclRule → AclInputData → BitVec 32}
    (halg : ClassifySpec algorithm) {d : Dpdk} {lib : AclLib}
    (hacl : d.aclClassify = classifyIn algorithm lib) : ReportsMatching d lib := by
  intro ctx classify hclassify rules hrules input
  rw [hacl, classifyIn, hrules] at hclassify
  obtain rfl := Option.some.inj hclassify
  by_cases hex : ∃ r ∈ rules, r.Matches input
  · obtain ⟨r, hr, hmatch, -, hanswer⟩ := (halg rules input).2 hex
    exact .inr ⟨r, hr, hmatch, hanswer⟩
  · exact .inl ((halg rules input).1 fun r hr hmatch ↦ hex ⟨r, hr, hmatch⟩)

/-- The registry after a compilation does not depend on what the libraries answer. -/
theorem compileRuleTable_lib (d d' : Dpdk) (io : CompileIo) (config : SpiConfig) (lib : AclLib) :
    (compileRuleTable d io config lib).2 = (compileRuleTable d' io config lib).2 := by
  unfold compileRuleTable
  split
  · rfl
  · dsimp only
    split
    · rfl
    · rfl

/-- A machine that knows the address 10.0.0.1 and has room for a set. -/
def hostIo : CompileIo :=
  { CompileIo.untroubled (fun text ↦ if text = "10.0.0.1" then some 0x0100000A else none) 4 with
    memberCtx := some 0 }

/-- One group, for TCP packets to this address. -/
def hostConfig : SpiConfig where
  filterGroups :=
    [{ name := "host"
       filters := [{ protocol := "tcp", destinationIpAddress := some "10.0.0.1" }] }]

/-- Its compiled groups. -/
def hostGroups : List CompiledFilterGroup :=
  [{ name := "host"
     filters := [{ protocol := .kTcp, matchDestinationIp := true
                   destinationIpAddress := 0x0A000001 }] }]

/-- The libraries after its compilation: a set that has the one key, and the rules. -/
def hostDpdk : Dpdk where
  aclClassify := classifyIn linearClassify
    (compileRuleTable RuleTable.tcpDpdk hostIo hostConfig Registry.empty).2
  memberLookup := fun _ key ↦ if key = ⟨0x0100000A, 0, 6⟩ then 1 else rteMemberNoMatch
  hashCrc := fun _ ↦ 0

/-- A TCP packet to 10.0.0.2. -/
def otherHost : PacketMetadata where
  destinationIpBe := 0x0200000A

/-- The packet skips the ACL, which has nothing for it. -/
theorem memberFilterBulk_otherHost : ∃ t lib',
    compileRuleTable hostDpdk hostIo hostConfig Registry.empty =
        (.ok (RuleTable.moveConstruct t), lib') ∧
      (t.memberFilterBulk hostDpdk [otherHost] [false])[0]? = some true ∧
      (t.matchPacket hostDpdk otherHost).matched = false := by
  have hok : ((compileRuleTable hostDpdk hostIo hostConfig Registry.empty).1.toOption.map
      fun table ↦ (table.groups, table.memberCtx)) = some (hostGroups, some 0) := by
    decide +kernel
  generalize hr : compileRuleTable hostDpdk hostIo hostConfig Registry.empty = r at hok
  obtain ⟨_ | table, lib'⟩ := r
  · cases hok
  · obtain ⟨t, ht, rfl⟩ := compileRuleTable_moved hr
    obtain ⟨hgroups, hctx⟩ := Prod.mk.inj (Option.some.inj hok)
    have hlib : lib' = (compileRuleTable RuleTable.tcpDpdk hostIo hostConfig Registry.empty).2 := by
      rw [compileRuleTable_lib RuleTable.tcpDpdk hostDpdk, hr]
    have hfinds : FindsAdded hostDpdk t := by
      intro memberCtx _ add hadd
      rw [show t.groups = hostGroups from hgroups] at hadd
      obtain rfl : add = ⟨⟨0x0100000A, 0, 6⟩, 1⟩ := List.mem_singleton.mp hadd
      change (if (⟨0x0100000A, 0, 6⟩ : MemberKey) = ⟨0x0100000A, 0, 6⟩ then (1 : BitVec 16)
        else rteMemberNoMatch) ≠ rteMemberNoMatch
      decide
    have hskip : (t.memberFilterBulk hostDpdk [otherHost] [false])[0]? = some true := by
      have hwild : t.hasWildcardIpRules = false := by
        rw [ht.tssOf.wildcard_eq, show t.groups = hostGroups from hgroups]
        rfl
      rw [RuleTable.memberFilterBulk, show t.memberCtx = some 0 from hctx, hwild]
      decide
    refine ⟨t, lib', rfl, hskip, ?_⟩
    exact memberFilterBulk_noFalseSkip (.init rfl) ht hr hfinds
      (reportsMatching_of_classifySpec linearClassify_spec (by rw [hlib]; rfl)) (by decide)
      (i := 0) rfl rfl hskip

end DpdkSpi
