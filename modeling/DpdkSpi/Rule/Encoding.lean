import DpdkSpi.Rule.Member
import DpdkSpi.Rule.Validate

/-!
# Positions as numbers

The position of a group and that of a filter in it go into the userdata of an ACL rule, sixteen
bits each, and the position of the group into a set id of sixteen bits.  All three count from one.
No check bounds the positions; they are read back as they were written as long as they fit
(`indexesCovered_iff`).
-/

namespace DpdkSpi

open Lib

/-! ## What the encodings are for -/

/-- `rte_member_add` takes a set id: it is not 0, and its top bit is clear. -/
def acceptsSetId (setId : BitVec 16) : Bool := setId ≠ 0 && !setId.msb

/-- The filter at a position of a group at a position. -/
def FilterAt (groups : List CompiledFilterGroup) (g f : Nat) (group : CompiledFilterGroup)
    (filter : CompiledFilter) : Prop :=
  groups[g]? = some group ∧ group.filters[f]? = some filter

/-- The rule that `CompileRuleTable` builds for it. -/
def ruleAt (g f : Nat) (group : CompiledFilterGroup) (filter : CompiledFilter) : AclRule :=
  buildAclRule filter (BitVec.ofNat 32 g) (BitVec.ofNat 32 f) group.precedence

/-- Userdata is that of no other filter and not the mark of a miss, is read back as the two
positions, and every set id is one that the library takes. -/
structure IndexesCovered (groups : List CompiledFilterGroup) : Prop where
  nonzero : ∀ g f group filter, FilterAt groups g f group filter →
    (ruleAt g f group filter).userdata ≠ 0
  decodes : ∀ g f group filter, FilterAt groups g f group filter →
    (decodedGroup (ruleAt g f group filter).userdata).toNat = g ∧
      (decodedFilter (ruleAt g f group filter).userdata).toNat = f
  distinct : ∀ g f group filter, FilterAt groups g f group filter →
    ∀ g' f' group' filter', FilterAt groups g' f' group' filter' →
      (ruleAt g f group filter).userdata = (ruleAt g' f' group' filter').userdata →
        g = g' ∧ f = f'
  accepted : ∀ add ∈ memberAdds groups, acceptsSetId add.setId = true

/-- The positions fit. -/
structure IndexesFit (groups : List CompiledFilterGroup) : Prop where
  groups_le : groups.length ≤ 65535
  filters_le : ∀ group ∈ groups, group.filters.length ≤ 65535
  member_lt : ∀ g group, groups[g]? = some group →
    (∃ filter ∈ group.filters, memberAddresses filter ≠ []) → g < 32767

/-! ## When they do -/

theorem acceptsSetId_iff (n : Nat) :
    acceptsSetId (BitVec.ofNat 16 n) = true ↔ 0 < n % 65536 ∧ n % 65536 < 32768 := by
  have hzero : BitVec.ofNat 16 n = 0 ↔ n % 65536 = 0 := by
    rw [← BitVec.toNat_inj, BitVec.toNat_ofNat]
    exact Iff.rfl
  have hmsb : (BitVec.ofNat 16 n).msb = false ↔ n % 65536 < 32768 := by
    rw [BitVec.msb_eq_false_iff_two_mul_lt, BitVec.toNat_ofNat]
    omega
  unfold acceptsSetId
  rw [Bool.and_eq_true, decide_eq_true_iff, Bool.not_eq_true', hmsb, Ne, hzero, Nat.pos_iff_ne_zero]

theorem decodes_ruleAt_iff {g f : Nat} (group : CompiledFilterGroup) (filter : CompiledFilter) :
    (decodedGroup (ruleAt g f group filter).userdata).toNat = g ∧
        (decodedFilter (ruleAt g f group filter).userdata).toNat = f ↔
      (g < 65535 ∨ g = 2 ^ 32 - 1) ∧ (f < 65535 ∨ f = 2 ^ 32 - 1) := by
  have huserdata : (ruleAt g f group filter).userdata =
      encodeUserdata (BitVec.ofNat 32 g) (BitVec.ofNat 32 f) := rfl
  rw [huserdata, decodedGroup_encodeUserdata, decodedFilter_encodeUserdata]
  exact and_congr toNat_position_eq_iff toNat_position_eq_iff

/-- A position beyond a bound means one at the bound. -/
theorem length_le_of_forall {α : Type} {l : List α} {n : Nat}
    (h : ∀ i a, l[i]? = some a → i ≠ n) : l.length ≤ n := by
  by_contra hlt
  exact h n _ (List.getElem?_eq_getElem (Nat.lt_of_not_le hlt)) rfl

section Fit

variable {groups : List CompiledFilterGroup}

theorem IndexesCovered.groups_le (h : IndexesCovered groups)
    (hne : ∀ group ∈ groups, group.filters ≠ []) : groups.length ≤ 65535 := by
  refine length_le_of_forall fun g group hget hlast ↦ ?_
  have hfilters := hne group (List.mem_of_getElem? hget)
  obtain ⟨filter, hfilter⟩ := List.exists_mem_of_ne_nil _ hfilters
  obtain ⟨f, hget'⟩ := List.getElem?_of_mem hfilter
  have hdecodes := h.decodes g f group filter ⟨hget, hget'⟩
  rw [decodes_ruleAt_iff] at hdecodes
  omega

/-- Covered positions fit: the first that does not would be decoded to another, or be refused. -/
theorem IndexesCovered.fit (h : IndexesCovered groups)
    (hne : ∀ group ∈ groups, group.filters ≠ []) : IndexesFit groups := by
  have hgroups := h.groups_le hne
  refine ⟨hgroups, fun group hgroup ↦ ?_, ?_⟩
  · obtain ⟨g, hget⟩ := List.getElem?_of_mem hgroup
    refine length_le_of_forall fun f filter hget' hlast ↦ ?_
    have hdecodes := h.decodes g f group filter ⟨hget, hget'⟩
    rw [decodes_ruleAt_iff] at hdecodes
    omega
  · rintro g group hget ⟨filter, hfilter, haddresses⟩
    obtain ⟨address, haddress⟩ := List.exists_mem_of_ne_nil _ haddresses
    have hlt := (List.getElem?_eq_some_iff.mp hget).1
    have haccepted := (acceptsSetId_iff (g + 1)).mp (h.accepted _
      (mem_memberAdds.mpr ⟨g, group, hget, filter, hfilter, address, haddress, rfl⟩))
    omega

theorem IndexesFit.decodes (h : IndexesFit groups) {g f : Nat} {group : CompiledFilterGroup}
    {filter : CompiledFilter} (hat : FilterAt groups g f group filter) :
    (decodedGroup (ruleAt g f group filter).userdata).toNat = g ∧
      (decodedFilter (ruleAt g f group filter).userdata).toNat = f := by
  obtain ⟨hget, hget'⟩ := hat
  have hlt := (List.getElem?_eq_some_iff.mp hget).1
  have hlt' := (List.getElem?_eq_some_iff.mp hget').1
  have hfilters := h.filters_le group (List.mem_of_getElem? hget)
  exact (decodes_ruleAt_iff group filter).mpr
    ⟨.inl (hlt.trans_le h.groups_le), .inl (hlt'.trans_le hfilters)⟩

/-- Positions that fit are covered. -/
theorem IndexesFit.covered (h : IndexesFit groups) : IndexesCovered groups := by
  refine ⟨fun g f group filter hat hzero ↦ ?_, fun g f group filter hat ↦ h.decodes hat, ?_,
    fun add hadd ↦ ?_⟩
  · have hgroup := (h.decodes hat).1
    have hlt := (List.getElem?_eq_some_iff.mp hat.1).1
    have hmark : (decodedGroup 0).toNat = 2 ^ 32 - 1 := by decide
    have hle := h.groups_le
    rw [hzero, hmark] at hgroup
    omega
  · intro g f group filter hat g' f' group' filter' hat' heq
    obtain ⟨hgroup, hfilter⟩ := h.decodes hat
    obtain ⟨hgroup', hfilter'⟩ := h.decodes hat'
    rw [heq, hgroup'] at hgroup
    rw [heq, hfilter'] at hfilter
    exact ⟨hgroup.symm, hfilter.symm⟩
  · obtain ⟨g, group, hget, filter, hfilter, address, haddress, rfl⟩ := mem_memberAdds.mp hadd
    have hlt := h.member_lt g group hget ⟨filter, hfilter, List.ne_nil_of_mem haddress⟩
    exact (acceptsSetId_iff (g + 1)).mpr (by omega)

/-- **When the positions are encoded faithfully**, in groups that have a filter each. -/
theorem indexesCovered_iff_fit (hne : ∀ group ∈ groups, group.filters ≠ []) :
    IndexesCovered groups ↔ IndexesFit groups :=
  ⟨fun h ↦ h.fit hne, IndexesFit.covered⟩

end Fit

/-- The groups of a configuration that is accepted have a filter each. -/
theorem prepareGroups_filters_ne_nil {io : CompileIo} {config : SpiConfig} {dpi : DpiConfig}
    (hvalid : validateFilterGroups io.inetPton config.filterGroups dpi = .ok ())
    {algorithm : AclClassifyAlg} {groups : List CompiledFilterGroup}
    (hprepare : prepareGroups io config = .ok (algorithm, groups)) :
    ∀ group ∈ groups, group.filters ≠ [] := by
  obtain ⟨compiled, hcompiled, rfl⟩ := prepareGroups_ok hprepare
  intro group hgroup
  obtain ⟨groupConfig, hmem, hlength, -⟩ := hcompiled.of_mem_setCategories hgroup
  have hconfig := filters_ne_nil_of_valid hvalid groupConfig hmem
  rw [← List.length_pos_iff, ← hlength, List.length_pos_iff] at hconfig
  exact hconfig

/-- **When the positions of an accepted configuration are encoded faithfully**: up to 65535
groups, with up to 65535 filters each, and destinations for the set in the first 32767 groups. -/
theorem indexesCovered_iff {io : CompileIo} {config : SpiConfig} {dpi : DpiConfig}
    (hvalid : validateFilterGroups io.inetPton config.filterGroups dpi = .ok ())
    {algorithm : AclClassifyAlg} {groups : List CompiledFilterGroup}
    (hprepare : prepareGroups io config = .ok (algorithm, groups)) :
    IndexesCovered groups ↔ IndexesFit groups :=
  indexesCovered_iff_fit (prepareGroups_filters_ne_nil hvalid hprepare)

/-! ## Groups of many filters -/

/-- A filter for TCP packets to port 80. -/
def portFilterConfig : SpiFilterConfig where
  protocol := "tcp"
  destinationPort := some 80

/-- One group with `n` such filters. -/
def wideConfig (n : Nat) : SpiConfig where
  maxCompilationThreads := 1
  filterGroups := [{ name := "wide", filters := List.replicate n portFilterConfig }]

/-- A machine with one processor. -/
def plainIo : CompileIo := .untroubled (fun _ ↦ none) 1

/-- The compiled filter. -/
def portFilter : CompiledFilter where
  protocol := .kTcp
  destinationPort := 80
  matchDestinationPort := true

/-- The compiled group. -/
def wideGroup (n : Nat) : CompiledFilterGroup where
  name := "wide"
  filters := List.replicate n portFilter

theorem compileFilters_replicate (n i : Nat) :
    compileFilters plainIo.inetPton 0 (List.replicate n portFilterConfig) i =
      .ok (List.replicate n portFilter) := by
  induction n generalizing i with
  | zero => rfl
  | succ n ih =>
      have hfilter : compileFilter plainIo.inetPton portFilterConfig 0 i = .ok portFilter := rfl
      rw [List.replicate_succ, compileFilters, hfilter]
      dsimp only
      rw [ih]
      rfl

theorem prepareGroups_wideConfig {n : Nat} (hn : n ≠ 0) :
    prepareGroups plainIo (wideConfig n) = .ok (.default, [wideGroup n]) := by
  have hcompile : compileGroup plainIo.inetPton 0
      { name := "wide", filters := List.replicate n portFilterConfig } = .ok (wideGroup n) := by
    rw [compileGroup, compileFilters_replicate]
    rfl
  have hrange : parseGroupRange plainIo.inetPton (wideConfig n).filterGroups [0] [{}] =
      .ok [wideGroup n] := by
    have hget : (wideConfig n).filterGroups[0]? = some
        { name := "wide", filters := List.replicate n portFilterConfig } := rfl
    rw [parseGroupRange, hget]
    dsimp only
    rw [hcompile]
    rfl
  have hparse : parseGroups plainIo.inetPton (wideConfig n).filterGroups 1
      plainIo.parseAffinity = .ok [wideGroup n] := by
    have hranges : parseRanges ((wideConfig n).filterGroups.map fun g ↦ g.filters.length) 1 =
        [(0, 1)] := parseRanges_singleton _
    have haffinity : plainIo.parseAffinity 0 = none := rfl
    rw [parseGroups, hranges, parseTasks, haffinity]
    dsimp only
    rw [show List.range' 0 (1 - 0) = [0] from rfl,
      show List.replicate (wideConfig n).filterGroups.length ({} : CompiledFilterGroup) = [{}] from
        rfl, hrange]
    rfl
  have hgroups : setCategories (plainIo.sort [wideGroup n]) = [wideGroup n] := rfl
  have hsum : ([wideGroup n].map fun g ↦ g.filters.length).sum = n := by
    rw [List.map_singleton, List.sum_singleton, wideGroup, List.length_replicate]
  have hthreads : clampThreads (wideConfig n).maxCompilationThreads plainIo.cpuCount = 1 := rfl
  have halgorithm : parseAclClassifyAlgorithm (wideConfig n).aclClassifyAlgorithm = .ok .default :=
    rfl
  have hsize : ¬ kMaxBuildMiB < (wideConfig n).aclBuildMaxSizeMb := Nat.not_lt_zero _
  unfold prepareGroups
  rw [halgorithm]
  dsimp only
  rw [if_neg hsize, hthreads, hparse]
  dsimp only
  rw [hgroups, hsum, if_neg hn]

theorem validate_wideConfig {n : Nat} (hn : n ≠ 0) :
    validateFilterGroups plainIo.inetPton (wideConfig n).filterGroups {} = .ok () := by
  have hfilters : validateAll (fun filter fi ↦ validateFilterConfig plainIo.inetPton filter 0 fi)
      (List.replicate n portFilterConfig) 0 = .ok () := by
    refine validateAll_ok_iff.mpr fun j filter hget ↦ ?_
    obtain rfl := List.eq_of_mem_replicate (List.mem_of_getElem? hget)
    rfl
  have hgroup : validateFilterGroupConfig plainIo.inetPton
      { name := "wide", filters := List.replicate n portFilterConfig } 0 = .ok () := by
    obtain ⟨m, rfl⟩ := Nat.exists_eq_succ_of_ne_zero hn
    exact hfilters
  have hgroups : validateAll (validateFilterGroupConfig plainIo.inetPton)
      (wideConfig n).filterGroups 0 = .ok () := by
    rw [wideConfig, validateAll, hgroup]
    rfl
  have hsome : (wideConfig n).filterGroups.isEmpty = false := rfl
  unfold validateFilterGroups
  rw [hsome, hgroups]
  rfl

/-- A group of two filters is within the bounds. -/
theorem indexesCovered_two : IndexesCovered [wideGroup 2] := by
  refine (indexesCovered_iff (validate_wideConfig two_ne_zero)
    (prepareGroups_wideConfig two_ne_zero)).mpr ⟨by decide, by decide, ?_⟩
  intro g group hget _
  have hlt : g < 1 := (List.getElem?_eq_some_iff.mp hget).1
  omega

/-- The lower half of the userdata of the last of 65536 filters is 0, and is read as another
position. -/
theorem last_of_65536_not_covered :
    validateFilterGroups plainIo.inetPton (wideConfig 65536).filterGroups {} = .ok () ∧
      prepareGroups plainIo (wideConfig 65536) = .ok (.default, [wideGroup 65536]) ∧
      FilterAt [wideGroup 65536] 0 65535 (wideGroup 65536) portFilter ∧
      (decodedFilter (ruleAt 0 65535 (wideGroup 65536) portFilter).userdata).toNat ≠ 65535 ∧
      ¬ IndexesCovered [wideGroup 65536] := by
  have hat : FilterAt [wideGroup 65536] 0 65535 (wideGroup 65536) portFilter := by
    refine ⟨rfl, ?_⟩
    rw [wideGroup, List.getElem?_replicate]
    rfl
  have hread : (decodedFilter (encodeUserdata 0 65535)).toNat ≠ 65535 := by decide
  refine ⟨validate_wideConfig (by decide), prepareGroups_wideConfig (by decide), hat, hread, ?_⟩
  exact fun h ↦ hread (h.decodes 0 65535 _ _ hat).2

end DpdkSpi
