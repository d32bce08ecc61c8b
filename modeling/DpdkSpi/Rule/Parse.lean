import DpdkSpi.Config
import DpdkSpi.IpAddress
import DpdkSpi.Rule.Acl
import DpdkSpi.Rule.Partition

/-!
# From configuration to compiled groups

`CompileFilter` and the parsing phase of `CompileRuleTable`, after
`spi_rule_engine.cpp`.  The phase runs on several threads that write to disjoint ranges
of one vector; the errors are looked at in the order of the ranges.  When no thread
fails, the vector holds the compiled groups of the configuration, in its order
(`parseGroups_ok`).
-/

namespace DpdkSpi

/-! ## Filters -/

/-- `ParseProtocol`. -/
def parseProtocol (protocol : String) : Option Protocol :=
  if protocol = "tcp" then some .kTcp
  else if protocol = "udp" then some .kUdp
  else none

/-- `ParseAction`: everything but "drop" forwards. -/
def parseAction (action : String) : Action := if action = "drop" then .kDrop else .kForward

/-- `IsCidr`. -/
def isCidr (address : String) : Bool := decide ('/' ∈ address.toList)

/-- What `CompileFilter` gathers about the destination. -/
structure Destination where
  ip : BitVec 32 := 0
  network : BitVec 32 := 0
  mask : BitVec 32 := 0
  prefixLen : BitVec 32 := 0
  isCidr : Bool := false
deriving DecidableEq, Repr

/-- The destination part of `CompileFilter`.  The prefix length is read a second time,
from the text behind the slash. -/
def compileDestination (inetPton : InetPton) (field : String) :
    Option String → Except String Destination
  | none => .ok {}
  | some text =>
      if isCidr text then
        match parseCidr inetPton text with
        | .error e => .error (field ++ " " ++ e)
        | .ok (network, mask) =>
            .ok { network, mask, isCidr := true
                  prefixLen := (strtoul (afterSlash text)).setWidth 32 }
      else
        match parseIpv4Address inetPton text with
        | .error e => .error (field ++ " " ++ e)
        | .ok ip => .ok { ip }

/-- The source part of `CompileFilter`. -/
def compileSource (inetPton : InetPton) (field : String) :
    Option String → Except String (BitVec 32)
  | none => .ok 0
  | some text =>
      match parseIpv4Address inetPton text with
      | .error e => .error (field ++ " " ++ e)
      | .ok ip => .ok ip

/-- The path of a field of a filter in error messages. -/
def filterField (groupIndex filterIndex : Nat) (field : String) : String :=
  s!"filter_groups[{groupIndex}].filters[{filterIndex}].{field}"

/-- `CompileFilter`. -/
def compileFilter (inetPton : InetPton) (filterConfig : SpiFilterConfig)
    (groupIndex filterIndex : Nat) : Except String CompiledFilter :=
  match parseProtocol filterConfig.protocol with
  | none => .error (filterField groupIndex filterIndex "protocol" ++ " must be 'tcp' or 'udp'")
  | some protocol =>
      match compileSource inetPton (filterField groupIndex filterIndex "source_ip_address")
          filterConfig.sourceIpAddress with
      | .error e => .error e
      | .ok sourceIp =>
          match compileDestination inetPton
              (filterField groupIndex filterIndex "destination_ip_address")
              filterConfig.destinationIpAddress with
          | .error e => .error e
          | .ok dest =>
              .ok
                { protocol
                  sourceIpAddress := sourceIp
                  destinationIpAddress := dest.ip
                  destinationNetwork := dest.network
                  destinationPrefixMask := dest.mask
                  destinationPrefixLength := dest.prefixLen
                  sourcePort := filterConfig.sourcePort.getD 0
                  destinationPort := filterConfig.destinationPort.getD 0
                  matchSourceIp := filterConfig.sourceIpAddress.isSome
                  matchDestinationIp := filterConfig.destinationIpAddress.isSome && !dest.isCidr
                  matchDestinationCidr := dest.isCidr
                  matchSourcePort := filterConfig.sourcePort.isSome
                  matchDestinationPort := filterConfig.destinationPort.isSome
                  label := filterConfig.label }

/-- What every compiled filter keeps to: a destination is one address or one block, and
the three members that describe a block describe the same one. -/
structure CompiledFilter.WellFormed (f : CompiledFilter) : Prop where
  not_ip_of_cidr : f.matchDestinationCidr = true → f.matchDestinationIp = false
  cidr : f.matchDestinationCidr = true → ∃ n : BitVec 16, n ≤ 32 ∧
    f.destinationPrefixLength = n.setWidth 32 ∧ f.destinationPrefixMask = prefixMask n ∧
    f.destinationNetwork &&& f.destinationPrefixMask = f.destinationNetwork

theorem compileDestination_cidr {inetPton : InetPton} {field : String} {text : Option String}
    {dest : Destination} (h : compileDestination inetPton field text = .ok dest)
    (hcidr : dest.isCidr = true) : ∃ n : BitVec 16, n ≤ 32 ∧ dest.prefixLen = n.setWidth 32 ∧
      dest.mask = prefixMask n ∧ dest.network &&& dest.mask = dest.network := by
  cases text with
  | none =>
      obtain rfl := Except.ok.inj h
      cases hcidr
  | some text =>
      rw [compileDestination] at h
      split at h
      · split at h
        · cases h
        · rename_i network mask hparse
          obtain rfl := Except.ok.inj h
          obtain ⟨address, n, -, hfrom, hle, rfl, rfl⟩ := parseCidr_ok hparse
          refine ⟨n, hle, strtoul_of_fromCharsU16 hfrom, rfl, ?_⟩
          rw [BitVec.and_assoc, BitVec.and_self]
      · split at h
        · cases h
        · obtain rfl := Except.ok.inj h
          cases hcidr

theorem compileFilter_wellFormed {inetPton : InetPton} {filterConfig : SpiFilterConfig}
    {groupIndex filterIndex : Nat} {f : CompiledFilter}
    (h : compileFilter inetPton filterConfig groupIndex filterIndex = .ok f) : f.WellFormed := by
  unfold compileFilter at h
  split at h
  · cases h
  · split at h
    · cases h
    · split at h
      · cases h
      · rename_i dest hdest
        obtain rfl := Except.ok.inj h
        refine ⟨fun hcidr ↦ ?_, compileDestination_cidr hdest⟩
        simp only [show dest.isCidr = true from hcidr, Bool.not_true, Bool.and_false]

/-! ## Groups -/

/-- The loop over the filters of a group. -/
def compileFilters (inetPton : InetPton) (groupIndex : Nat) :
    List SpiFilterConfig → Nat → Except String (List CompiledFilter)
  | [], _ => .ok []
  | filterConfig :: rest, filterIndex =>
      match compileFilter inetPton filterConfig groupIndex filterIndex with
      | .error e => .error e
      | .ok filter =>
          match compileFilters inetPton groupIndex rest (filterIndex + 1) with
          | .error e => .error e
          | .ok filters => .ok (filter :: filters)

/-- The loop body of `parse_group_range_fn`: one compiled group. -/
def compileGroup (inetPton : InetPton) (groupIndex : Nat) (groupConfig : SpiFilterGroupConfig) :
    Except String CompiledFilterGroup :=
  match compileFilters inetPton groupIndex groupConfig.filters 0 with
  | .error e => .error e
  | .ok filters =>
      .ok
        { name := groupConfig.name
          precedence := groupConfig.precedence
          action := parseAction groupConfig.action
          l7Required := groupConfig.l7Required
          boundDpiName := groupConfig.dpiFilterGroup
          boundDpiFilterIndex := kNoDpiLink
          categoryIndex := BitVec.ofNat 32 groupIndex
          filters }

theorem compileFilters_ok {inetPton : InetPton} {groupIndex : Nat} {configs : List SpiFilterConfig}
    {n : Nat} {filters : List CompiledFilter}
    (h : compileFilters inetPton groupIndex configs n = .ok filters) :
    filters.length = configs.length ∧ ∀ f ∈ filters, f.WellFormed := by
  induction configs generalizing n filters with
  | nil =>
      obtain rfl := Except.ok.inj h
      exact ⟨rfl, by simp⟩
  | cons config rest ih =>
      rw [compileFilters] at h
      split at h
      · cases h
      · rename_i filter hfilter
        split at h
        · cases h
        · rename_i filters' hrest
          obtain rfl := Except.ok.inj h
          obtain ⟨hlen, hwf⟩ := ih hrest
          refine ⟨by rw [List.length_cons, List.length_cons, hlen], ?_⟩
          rw [List.forall_mem_cons]
          exact ⟨compileFilter_wellFormed hfilter, hwf⟩

/-- A compiled group has a well-formed filter for each configured one. -/
theorem compileGroup_ok {inetPton : InetPton} {groupIndex : Nat} {config : SpiFilterGroupConfig}
    {g : CompiledFilterGroup} (h : compileGroup inetPton groupIndex config = .ok g) :
    g.filters.length = config.filters.length ∧ ∀ f ∈ g.filters, f.WellFormed := by
  unfold compileGroup at h
  split at h
  · cases h
  · rename_i filters hfilters
    obtain rfl := Except.ok.inj h
    exact compileFilters_ok hfilters

/-! ## The parsing phase -/

/-- The part of `parse_group_range_fn` behind the affinity call, over the indices of a
range.  No range reaches beyond the configured groups. -/
def parseGroupRange (inetPton : InetPton) (configs : List SpiFilterGroupConfig) :
    List Nat → List CompiledFilterGroup → Except String (List CompiledFilterGroup)
  | [], groups => .ok groups
  | groupIndex :: rest, groups =>
      match configs[groupIndex]? with
      | none => parseGroupRange inetPton configs rest groups
      | some groupConfig =>
          match compileGroup inetPton groupIndex groupConfig with
          | .error e => .error e
          | .ok group => parseGroupRange inetPton configs rest (groups.set groupIndex group)

/-- The error of `SetCompilationThreadAffinity`. -/
def affinityError (reason : String) : String :=
  "pthread_setaffinity_np failed for rule-compilation worker: " ++ reason

/-- The parse tasks, from the `n`-th on; `affinity n` is the reason why the `n`-th one
could not set its affinity. -/
def parseTasks (inetPton : InetPton) (configs : List SpiFilterGroupConfig)
    (affinity : Nat → Option String) :
    List (Nat × Nat) → Nat → List CompiledFilterGroup → Except String (List CompiledFilterGroup)
  | [], _, groups => .ok groups
  | (start, stop) :: rest, n, groups =>
      match affinity n with
      | some reason => .error (affinityError reason)
      | none =>
          match parseGroupRange inetPton configs (List.range' start (stop - start)) groups with
          | .error e => .error e
          | .ok groups => parseTasks inetPton configs affinity rest (n + 1) groups

/-- The parsing phase of `CompileRuleTable`. -/
def parseGroups (inetPton : InetPton) (configs : List SpiFilterGroupConfig) (threads : Nat)
    (affinity : Nat → Option String) : Except String (List CompiledFilterGroup) :=
  parseTasks inetPton configs affinity
    (parseRanges (configs.map fun g ↦ g.filters.length) threads) 0
    (List.replicate configs.length {})

theorem parseGroupRange_append {inetPton : InetPton} {configs : List SpiFilterGroupConfig}
    {is js : List Nat} {groups groups' : List CompiledFilterGroup}
    (h : parseGroupRange inetPton configs is groups = .ok groups') :
    parseGroupRange inetPton configs (is ++ js) groups =
      parseGroupRange inetPton configs js groups' := by
  induction is generalizing groups with
  | nil =>
      obtain rfl := Except.ok.inj h
      rfl
  | cons i is ih =>
      rw [parseGroupRange] at h
      rw [List.cons_append, parseGroupRange]
      cases hc : configs[i]? with
      | none =>
          rw [hc] at h
          exact ih h
      | some config =>
          rw [hc] at h
          cases hg : compileGroup inetPton i config with
          | error e =>
              simp only [hg] at h
              cases h
          | ok g =>
              simp only [hg] at h ⊢
              exact ih h

/-- Tasks that all succeed do what one pass over their indices does. -/
theorem parseTasks_ok {inetPton : InetPton} {configs : List SpiFilterGroupConfig}
    {affinity : Nat → Option String} {ranges : List (Nat × Nat)} {n : Nat}
    {groups groups' : List CompiledFilterGroup}
    (h : parseTasks inetPton configs affinity ranges n groups = .ok groups') :
    parseGroupRange inetPton configs (rangeIndices ranges) groups = .ok groups' := by
  induction ranges generalizing n groups with
  | nil => exact h
  | cons r ranges ih =>
      rw [parseTasks] at h
      split at h
      · cases h
      · split at h
        · cases h
        · rename_i groups'' hrange
          rw [rangeIndices, List.flatMap_cons, parseGroupRange_append hrange]
          exact ih h

/-- What a pass over some indices leaves in the vector. -/
theorem parseGroupRange_ok {inetPton : InetPton} {configs : List SpiFilterGroupConfig}
    {is : List Nat} {groups groups' : List CompiledFilterGroup}
    (hlen : groups.length = configs.length)
    (h : parseGroupRange inetPton configs is groups = .ok groups') :
    groups'.length = configs.length ∧ (∀ i ∉ is, groups'[i]? = groups[i]?) ∧
      ∀ i ∈ is, ∀ config, configs[i]? = some config →
        ∃ g, groups'[i]? = some g ∧ compileGroup inetPton i config = .ok g := by
  induction is generalizing groups with
  | nil =>
      obtain rfl := Except.ok.inj h
      exact ⟨hlen, fun _ _ ↦ rfl, by simp⟩
  | cons i is ih =>
      rw [parseGroupRange] at h
      cases hc : configs[i]? with
      | none =>
          rw [hc] at h
          obtain ⟨hlen', hout, hin⟩ := ih hlen h
          refine ⟨hlen', fun j hj ↦ hout j fun hmem ↦ hj (List.mem_cons_of_mem _ hmem), ?_⟩
          intro j hj config hconfig
          rcases List.mem_cons.mp hj with rfl | hj
          · rw [hc] at hconfig
            cases hconfig
          · exact hin j hj config hconfig
      | some config =>
          rw [hc] at h
          cases hg : compileGroup inetPton i config with
          | error e =>
              simp only [hg] at h
              cases h
          | ok g =>
              simp only [hg] at h
              obtain ⟨hlen', hout, hin⟩ := ih (by rw [List.length_set, hlen]) h
              refine ⟨hlen', fun j hj ↦ ?_, ?_⟩
              · rw [hout j fun hmem ↦ hj (List.mem_cons_of_mem _ hmem), List.getElem?_set_ne]
                rintro rfl
                exact hj List.mem_cons_self
              · intro j hj config' hconfig'
                by_cases hmem : j ∈ is
                · exact hin j hmem config' hconfig'
                · obtain rfl : j = i := (List.mem_cons.mp hj).resolve_right hmem
                  obtain rfl : config = config' := by simpa [hc] using hconfig'
                  have hlt : j < groups.length := by
                    rw [hlen]
                    exact (List.getElem?_eq_some_iff.mp hc).1
                  exact ⟨g, by rw [hout j hmem, List.getElem?_set_self hlt], hg⟩

/-- **Parsing on threads is compiling every group.** -/
theorem parseGroups_ok {inetPton : InetPton} {configs : List SpiFilterGroupConfig} {threads : Nat}
    (hthreads : 1 ≤ threads) {affinity : Nat → Option String} {groups : List CompiledFilterGroup}
    (h : parseGroups inetPton configs threads affinity = .ok groups) :
    groups.length = configs.length ∧ ∀ (i : Nat) config, configs[i]? = some config →
      ∃ g, groups[i]? = some g ∧ compileGroup inetPton i config = .ok g := by
  have hpass := parseTasks_ok h
  rw [rangeIndices_parseRanges _ hthreads, List.length_map] at hpass
  obtain ⟨hlen, -, hin⟩ := parseGroupRange_ok (by rw [List.length_replicate]) hpass
  refine ⟨hlen, fun i config hconfig ↦ hin i ?_ config hconfig⟩
  exact List.mem_range.mpr (List.getElem?_eq_some_iff.mp hconfig).1

end DpdkSpi
