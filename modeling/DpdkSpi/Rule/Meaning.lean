import DpdkSpi.Rule.Precedence
import DpdkSpi.Rule.Validate

/-!
# What accepted groups compile to

`ValidateFilterGroupConfig` and `CompileFilter` check a filter each on its own.  An accepted
destination always compiles, to the address or block that it spells (`compileDestination_means`).
But a source may be a block for the first of them and must be an address for the second, and the
actions "tcp" and "udp" pass for the first and forward for the second.  Without these two an
accepted group compiles and means what it says, and only without them (`compilesAsMeant_iff`).
-/

namespace DpdkSpi

open Lib (Block)

variable {inetPton : InetPton}

/-! ## What is configured -/

/-- The addresses that a text stands for: one address, or a block with its prefix length. -/
def addressBlock (inetPton : InetPton) (text : String) : Option (Block 32) :=
  if isCidr text then
    match (parseIpv4Address inetPton (beforeSlash text)).toOption,
      fromCharsU16 (afterSlash text) with
    | some address, some (prefixLength, []) =>
        if prefixLength ≤ 32 then some ⟨address, prefixLength.toNat⟩ else none
    | _, _ => none
  else (parseIpv4Address inetPton text).toOption.map (⟨·, 32⟩)

/-- The member of a compiled filter is constrained exactly when the field is configured, and then to
its value. -/
def Constrains {α : Type} (constrained : Bool) (value : α) (configured : Option α) : Prop :=
  constrained = configured.isSome ∧ ∀ a, configured = some a → value = a

/-- The compiled filter says what its configuration says. -/
structure CompiledFilter.Means (inetPton : InetPton) (f : CompiledFilter) (c : SpiFilterConfig) :
    Prop where
  protocol : c.protocol = "tcp" ∧ f.protocol = .kTcp ∨ c.protocol = "udp" ∧ f.protocol = .kUdp
  source_isSome : f.matchSourceIp = c.sourceIpAddress.isSome
  source : ∀ text, c.sourceIpAddress = some text →
    parseIpv4Address inetPton text = .ok f.sourceIpAddress
  no_destination : c.destinationIpAddress = none →
    f.matchDestinationIp = false ∧ f.matchDestinationCidr = false
  address : ∀ text, c.destinationIpAddress = some text → isCidr text = false →
    f.matchDestinationIp = true ∧ f.matchDestinationCidr = false ∧
      parseIpv4Address inetPton text = .ok f.destinationIpAddress
  cidr : ∀ text, c.destinationIpAddress = some text → isCidr text = true →
    f.matchDestinationIp = false ∧ f.matchDestinationCidr = true ∧
      ∃ block, addressBlock inetPton text = some block ∧ block.length ≤ 32 ∧
        f.destinationNetwork = block.address &&& block.mask ∧
        f.destinationPrefixMask = block.mask ∧
        f.destinationPrefixLength = BitVec.ofNat 32 block.length
  sourcePort : Constrains f.matchSourcePort f.sourcePort c.sourcePort
  destinationPort : Constrains f.matchDestinationPort f.destinationPort c.destinationPort
  label : f.label = c.label

/-- The filters of a group compile and say what is configured, and its action is one that can be
named and is the one that is named. -/
structure CompilesAsMeant (inetPton : InetPton) (group : SpiFilterGroupConfig) (index : Nat) :
    Prop where
  filters : ∀ (i : Nat) c, group.filters[i]? = some c →
    ∃ f, compileFilter inetPton c index i = .ok f ∧ f.Means inetPton c
  action : group.action = "forward" ∧ parseAction group.action = .kForward ∨
    group.action = "drop" ∧ parseAction group.action = .kDrop

/-! ## What a packet has to be -/

/-- The packet is as the filter is configured: of its protocol, from its source, to an address that
its destination stands for, and between its ports. -/
def SpiFilterConfig.Accepts (inetPton : InetPton) (c : SpiFilterConfig) (packet : PacketMetadata) :
    Prop :=
  (c.protocol = "tcp" ∧ packet.protocol = .kTcp ∨ c.protocol = "udp" ∧ packet.protocol = .kUdp) ∧
    (∀ text, c.sourceIpAddress = some text →
      parseIpv4Address inetPton text = .ok (rteBeToCpu32 packet.sourceIpBe)) ∧
    (∀ text, c.destinationIpAddress = some text → ∃ block, addressBlock inetPton text = some block ∧
      block.Contains (rteBeToCpu32 packet.destinationIpBe)) ∧
    (∀ port, c.sourcePort = some port → port = rteBeToCpu16 packet.sourcePortBe) ∧
    ∀ port, c.destinationPort = some port → port = rteBeToCpu16 packet.destinationPortBe

theorem Constrains.iff {α : Type} {constrained : Bool} {value x : α} {configured : Option α}
    (h : Constrains constrained value configured) :
    (constrained = true → value = x) ↔ ∀ a, configured = some a → a = x := by
  obtain ⟨rfl, hvalue⟩ := h
  cases configured with
  | none => exact iff_of_true nofun nofun
  | some a =>
      obtain rfl := hvalue a rfl
      constructor
      · rintro hx _ ⟨⟩
        exact hx rfl
      · intro hx _
        exact hx value rfl

namespace CompiledFilter.Means

variable {f : CompiledFilter} {c : SpiFilterConfig} {packet : PacketMetadata}

theorem protocol_iff (h : f.Means inetPton c) : f.protocol = packet.protocol ↔
    c.protocol = "tcp" ∧ packet.protocol = .kTcp ∨
      c.protocol = "udp" ∧ packet.protocol = .kUdp := by
  have hne : ("udp" : String) ≠ "tcp" := by decide
  rcases h.protocol with ⟨htext, hprotocol⟩ | ⟨htext, hprotocol⟩
  · rw [htext, hprotocol]
    simp [hne.symm, eq_comm]
  · rw [htext, hprotocol]
    simp [hne, eq_comm]

theorem source_iff (h : f.Means inetPton c) {x : BitVec 32} :
    (f.matchSourceIp = true → f.sourceIpAddress = x) ↔
      ∀ text, c.sourceIpAddress = some text → parseIpv4Address inetPton text = .ok x := by
  rw [h.source_isSome]
  cases hc : c.sourceIpAddress with
  | none => exact iff_of_true nofun nofun
  | some text =>
      have hparse := h.source text hc
      constructor
      · rintro hx _ ⟨⟩
        rw [hparse, hx rfl]
      · intro hx _
        exact Except.ok.inj (hparse.symm.trans (hx text rfl))

theorem destination_iff (h : f.Means inetPton c) {x : BitVec 32} :
    ((f.matchDestinationIp = true → f.destinationIpAddress = x) ∧
      (f.matchDestinationCidr = true → x &&& f.destinationPrefixMask = f.destinationNetwork)) ↔
      ∀ text, c.destinationIpAddress = some text →
        ∃ block, addressBlock inetPton text = some block ∧ block.Contains x := by
  cases hc : c.destinationIpAddress with
  | none =>
      obtain ⟨hip, hcidr⟩ := h.no_destination hc
      rw [hip, hcidr]
      exact iff_of_true ⟨nofun, nofun⟩ nofun
  | some text =>
      cases ht : isCidr text with
      | false =>
          obtain ⟨hip, hcidr, hparse⟩ := h.address text hc ht
          have hblock : addressBlock inetPton text = some ⟨f.destinationIpAddress, 32⟩ := by
            rw [addressBlock, ht, if_neg Bool.false_ne_true, hparse]
            rfl
          rw [hip, hcidr]
          constructor
          · rintro ⟨hx, -⟩ _ ⟨⟩
            exact ⟨_, hblock, (Block.contains_iff_eq rfl).mpr (hx rfl).symm⟩
          · intro hx
            obtain ⟨block, hblock', hin⟩ := hx text rfl
            obtain rfl := Option.some.inj (hblock.symm.trans hblock')
            exact ⟨fun _ ↦ ((Block.contains_iff_eq rfl).mp hin).symm, nofun⟩
      | true =>
          obtain ⟨hip, hcidr, block, hblock, -, hnetwork, hmask, -⟩ := h.cidr text hc ht
          rw [hip, hcidr, hnetwork, hmask, ← Block.contains_iff_mask]
          constructor
          · rintro ⟨-, hx⟩ _ ⟨⟩
            exact ⟨block, hblock, hx rfl⟩
          · intro hx
            obtain ⟨block', hblock', hin⟩ := hx text rfl
            obtain rfl := Option.some.inj (hblock.symm.trans hblock')
            exact ⟨nofun, fun _ ↦ hin⟩

/-- **A filter that means its configuration** accepts the packets that are as it is configured. -/
theorem accepts_iff (h : f.Means inetPton c) : f.Accepts packet ↔ c.Accepts inetPton packet := by
  unfold CompiledFilter.Accepts SpiFilterConfig.Accepts
  rw [← h.destination_iff, ← h.source_iff, ← h.protocol_iff, ← h.sourcePort.iff,
    ← h.destinationPort.iff, and_assoc]

end CompiledFilter.Means

/-! ## The parts of a filter -/

/-- What is gathered about a destination that was accepted. -/
theorem compileDestination_means {destination : Option String}
    (h : hasValidIp inetPton destination = true) (field : String) :
    ∃ dest, compileDestination inetPton field destination = .ok dest ∧
      (destination = none → dest.isCidr = false) ∧
      (∀ text, destination = some text → isCidr text = false →
        dest.isCidr = false ∧ parseIpv4Address inetPton text = .ok dest.ip) ∧
      ∀ text, destination = some text → isCidr text = true → dest.isCidr = true ∧
        ∃ block, addressBlock inetPton text = some block ∧ block.length ≤ 32 ∧
          dest.network = block.address &&& block.mask ∧ dest.mask = block.mask ∧
          dest.prefixLen = BitVec.ofNat 32 block.length := by
  cases destination with
  | none => exact ⟨{}, rfl, fun _ ↦ rfl, nofun, nofun⟩
  | some text =>
      cases hcidr : isCidr text with
      | false =>
          rw [hasValidIp, hcidr, if_neg Bool.false_ne_true] at h
          cases hparse : parseIpv4Address inetPton text with
          | error e =>
              rw [hparse] at h
              cases h
          | ok ip =>
              refine ⟨{ ip }, ?_, nofun, ?_, ?_⟩
              · rw [compileDestination, hcidr, hparse]
                rfl
              · rintro _ ⟨⟩ -
                exact ⟨rfl, hparse⟩
              · rintro _ ⟨⟩ htrue
                rw [hcidr] at htrue
                cases htrue
      | true =>
          rw [hasValidIp, hcidr, if_pos rfl] at h
          cases hparse : parseCidr inetPton text with
          | error e =>
              rw [hparse] at h
              cases h
          | ok block =>
              obtain ⟨network, mask⟩ := block
              obtain ⟨address, n, haddress, hfrom, hle, rfl, rfl⟩ := parseCidr_ok hparse
              refine ⟨{ network := address &&& prefixMask n, mask := prefixMask n, isCidr := true
                        prefixLen := (strtoul (afterSlash text)).setWidth 32 }, ?_, nofun, ?_, ?_⟩
              · rw [compileDestination, hcidr, hparse]
                rfl
              · rintro _ ⟨⟩ hfalse
                rw [hcidr] at hfalse
                cases hfalse
              · rintro _ ⟨⟩ -
                refine ⟨rfl, ⟨address, n.toNat⟩, ?_, hle, ?_, prefixMask_eq address n, ?_⟩
                · rw [addressBlock, hcidr, if_pos rfl, haddress, hfrom]
                  exact if_pos hle
                · rw [prefixMask_eq address n]
                · rw [strtoul_of_fromCharsU16 hfrom]
                  exact (BitVec.ofNat_toNat 32 n).symm

/-- A source that parses compiles to its address, and no other source compiles. -/
theorem compileSource_ok_iff {source : Option String} {field : String} {ip : BitVec 32} :
    compileSource inetPton field source = .ok ip ↔
      (source = none → ip = 0) ∧
        ∀ text, source = some text → parseIpv4Address inetPton text = .ok ip := by
  cases source with
  | none =>
      constructor
      · intro h
        obtain rfl := Except.ok.inj h
        exact ⟨fun _ ↦ rfl, nofun⟩
      · rintro ⟨h, -⟩
        rw [h rfl]
        rfl
  | some text =>
      rw [compileSource]
      cases hparse : parseIpv4Address inetPton text with
      | error e =>
          refine iff_of_false nofun fun h ↦ ?_
          have htext := h.2 text rfl
          rw [hparse] at htext
          cases htext
      | ok address =>
          constructor
          · intro h
            obtain rfl := Except.ok.inj h
            refine ⟨nofun, ?_⟩
            rintro _ ⟨⟩
            exact hparse
          · rintro ⟨-, h⟩
            rw [← h text rfl, hparse]

theorem constrains_getD (port : Option (BitVec 16)) :
    Constrains port.isSome (port.getD 0) port := by
  refine ⟨rfl, ?_⟩
  rintro p rfl
  rfl

/-! ## Filters and groups -/

/-- What is known about an accepted filter. -/
theorem validateFilterConfig_ok {c : SpiFilterConfig} {gi fi : Nat}
    (h : validateFilterConfig inetPton c gi fi = .ok ()) :
    isSupportedProtocol c.protocol = true ∧ hasValidIp inetPton c.sourceIpAddress = true ∧
      hasValidIp inetPton c.destinationIpAddress = true := by
  unfold validateFilterConfig at h
  split at h
  · cases h
  rename_i hprotocol
  split at h
  · cases h
  split at h
  · cases h
  rename_i hsource
  split at h
  · cases h
  rename_i hdestination
  simp only [Bool.not_eq_true', Bool.not_eq_false] at hprotocol hsource hdestination
  exact ⟨hprotocol, hsource, hdestination⟩

/-- A supported protocol is the one that is parsed. -/
theorem parseProtocol_of_supported {text : String} (h : isSupportedProtocol text = true) :
    ∃ protocol, parseProtocol text = some protocol ∧
      (text = "tcp" ∧ protocol = .kTcp ∨ text = "udp" ∧ protocol = .kUdp) := by
  rw [isSupportedProtocol, Bool.or_eq_true, decide_eq_true_iff, decide_eq_true_iff] at h
  rcases h with rfl | rfl
  · exact ⟨.kTcp, rfl, .inl ⟨rfl, rfl⟩⟩
  · exact ⟨.kUdp, rfl, .inr ⟨rfl, rfl⟩⟩

/-- An accepted source that is no block compiles. -/
theorem compileSource_of_valid {source : Option String} (h : hasValidIp inetPton source = true)
    (haddress : ∀ text, source = some text → isCidr text = false) (field : String) :
    ∃ ip, compileSource inetPton field source = .ok ip := by
  cases source with
  | none => exact ⟨0, rfl⟩
  | some text =>
      rw [hasValidIp, haddress text rfl, if_neg Bool.false_ne_true] at h
      cases hparse : parseIpv4Address inetPton text with
      | error e =>
          rw [hparse] at h
          cases h
      | ok ip =>
          refine ⟨ip, compileSource_ok_iff.mpr ⟨nofun, ?_⟩⟩
          rintro _ ⟨⟩
          exact hparse

/-- An accepted filter compiles to what it says just when its source is no block.  `inet_pton` does
not take a text with a slash for an address. -/
theorem compileFilter_means_iff (hpton : ∀ text, isCidr text = true → inetPton text = none)
    {c : SpiFilterConfig} {index i : Nat}
    (hvalid : validateFilterConfig inetPton c index i = .ok ()) :
    (∃ f, compileFilter inetPton c index i = .ok f ∧ f.Means inetPton c) ↔
      ∀ text, c.sourceIpAddress = some text → isCidr text = false := by
  obtain ⟨hprotocol, hsource, hdestination⟩ := validateFilterConfig_ok hvalid
  constructor
  · rintro ⟨f, -, hmeans⟩ text htext
    rw [Bool.eq_false_iff]
    intro hcidr
    have hparse := hmeans.source text htext
    rw [parseIpv4Address, hpton text hcidr] at hparse
    cases hparse
  · intro haddress
    obtain ⟨protocol, hparse, hnamed⟩ := parseProtocol_of_supported hprotocol
    obtain ⟨ip, hip⟩ := compileSource_of_valid hsource haddress
      (filterField index i "source_ip_address")
    obtain ⟨dest, hdest, hnone, hsingle, hblock⟩ := compileDestination_means hdestination
      (filterField index i "destination_ip_address")
    unfold compileFilter
    rw [hparse]
    dsimp only
    rw [hip]
    dsimp only
    rw [hdest]
    refine ⟨_, rfl, hnamed, rfl, (compileSource_ok_iff.mp hip).2, fun h ↦ ?_, fun text h ha ↦ ?_,
      fun text h hc ↦ ?_, constrains_getD _, constrains_getD _, rfl⟩
    · dsimp only
      rw [hnone h, h]
      exact ⟨rfl, rfl⟩
    · obtain ⟨hsingle, hparsed⟩ := hsingle text h ha
      dsimp only
      rw [hsingle, h]
      exact ⟨rfl, rfl, hparsed⟩
    · obtain ⟨hcidr, hmembers⟩ := hblock text h hc
      dsimp only
      rw [hcidr, Bool.not_true, Bool.and_false]
      exact ⟨rfl, rfl, hmembers⟩

/-- The filters and the action of an accepted group. -/
theorem validateFilterGroupConfig_ok {group : SpiFilterGroupConfig} {index : Nat}
    (h : validateFilterGroupConfig inetPton group index = .ok ()) :
    (isSupportedProtocol group.action = true ∨ group.action = "forward" ∨ group.action = "drop") ∧
      ∀ (i : Nat) c, group.filters[i]? = some c →
        validateFilterConfig inetPton c index i = .ok () := by
  unfold validateFilterGroupConfig at h
  split at h
  · cases h
  split at h
  · cases h
  split at h
  · cases h
  rename_i haction
  refine ⟨?_, fun i c hc ↦ ?_⟩
  · simp only [Bool.and_eq_true, Bool.not_eq_true', decide_eq_true_iff, not_and, not_not] at haction
    by_cases hprotocol : isSupportedProtocol group.action = true
    · exact .inl hprotocol
    · rw [Bool.not_eq_true] at hprotocol
      by_cases hforward : group.action = "forward"
      · exact .inr (.inl hforward)
      · exact .inr (.inr (haction ⟨hprotocol, hforward⟩))
  · have hone := validateAll_ok_iff.mp h i c hc
    rw [Nat.zero_add] at hone
    exact hone

/-- **An accepted group compiles to what it says** just when none of its sources is a block and its
action is not the name of a protocol. -/
theorem compilesAsMeant_iff (hpton : ∀ text, isCidr text = true → inetPton text = none)
    {group : SpiFilterGroupConfig} {index : Nat}
    (hvalid : validateFilterGroupConfig inetPton group index = .ok ()) :
    CompilesAsMeant inetPton group index ↔
      (∀ c ∈ group.filters, ∀ text, c.sourceIpAddress = some text → isCidr text = false) ∧
        isSupportedProtocol group.action = false := by
  obtain ⟨haction, hfilters⟩ := validateFilterGroupConfig_ok hvalid
  constructor
  · rintro ⟨hmeans, hnamed⟩
    refine ⟨fun c hc ↦ ?_, ?_⟩
    · obtain ⟨i, hi⟩ := List.getElem?_of_mem hc
      exact (compileFilter_means_iff hpton (hfilters i c hi)).mp (hmeans i c hi)
    · rcases hnamed with ⟨h, -⟩ | ⟨h, -⟩
      · rw [h]
        decide
      · rw [h]
        decide
  · rintro ⟨hsources, hprotocol⟩
    refine ⟨fun i c hi ↦ ?_, ?_⟩
    · exact (compileFilter_means_iff hpton (hfilters i c hi)).mpr
        (hsources c (List.mem_of_getElem? hi))
    · rcases haction with h | h | h
      · rw [hprotocol] at h
        cases h
      · exact .inl ⟨h, by rw [h]; rfl⟩
      · exact .inr ⟨h, by rw [h]; rfl⟩

/-- A group that forwards what goes to 10.0.0.0/8. -/
def blockGroup : SpiFilterGroupConfig where
  name := "block"
  filters := [{ protocol := "tcp", destinationIpAddress := some "10.0.0.0/8" }]

/-- The block as a source. -/
def sourceBlockGroup : SpiFilterGroupConfig where
  name := "block"
  filters := [{ protocol := "tcp", sourceIpAddress := some "10.0.0.0/8" }]

/-- A group with a protocol in the place of its action. -/
def protocolActionGroup : SpiFilterGroupConfig where
  name := "drop http"
  action := "tcp"
  filters := [{ protocol := "tcp", destinationPort := some 80 }]

/-- `inet_pton` on the address of the block. -/
def blockAddress : InetPton := fun text ↦ if text = "10.0.0.0" then some 0x0000000A else none

theorem compilesAsMeant_block : CompilesAsMeant blockAddress blockGroup 0 := by
  have hpton : ∀ text, isCidr text = true → blockAddress text = none := by
    intro text hcidr
    refine if_neg ?_
    rintro rfl
    exact absurd hcidr (by decide)
  refine (compilesAsMeant_iff hpton (by decide +kernel)).mpr ⟨?_, by decide⟩
  decide

/-- Both are accepted: a group whose only filter does not compile, and one that forwards without
saying so. -/
theorem accepted_not_asMeant :
    (validateFilterGroupConfig blockAddress sourceBlockGroup 0 = .ok () ∧
      compileFilter blockAddress (sourceBlockGroup.filters.getD 0 {}) 0 0 =
        .error ("filter_groups[0].filters[0].source_ip_address " ++
          "invalid IPv4 address '10.0.0.0/8'")) ∧
      validateFilterGroupConfig blockAddress protocolActionGroup 0 = .ok () ∧
        parseAction protocolActionGroup.action = .kForward ∧
        ¬ CompilesAsMeant blockAddress sourceBlockGroup 0 ∧
        ¬ CompilesAsMeant blockAddress protocolActionGroup 0 := by
  have hfails : compileFilter blockAddress (sourceBlockGroup.filters.getD 0 {}) 0 0 =
      .error ("filter_groups[0].filters[0].source_ip_address " ++
        "invalid IPv4 address '10.0.0.0/8'") := by decide +kernel
  refine ⟨⟨by decide +kernel, hfails⟩, by decide +kernel, rfl, fun h ↦ ?_, fun h ↦ ?_⟩
  · obtain ⟨f, hf, -⟩ := h.filters 0 _ rfl
    cases hfails.symm.trans hf
  · rcases h.action with ⟨h, -⟩ | ⟨h, -⟩
    · exact absurd h (by decide)
    · exact absurd h (by decide)

end DpdkSpi
