import DpdkSpi.Rule.Parse

/-!
# Accepted filter groups

What `ValidateConfig` asks of the filter groups of a configuration, after
`dpdk_config_loader.cpp`.  Every group has a name, an action and a filter, every filter a protocol
and something to match on; a group that is linked to the DPI names one of its groups.  How many
groups and filters there are is not looked at.
-/

namespace DpdkSpi

/-! ## Filters -/

/-- `IsSupportedProtocol`. -/
def isSupportedProtocol (protocol : String) : Bool := protocol = "tcp" || protocol = "udp"

/-- `HasInvalidPort`. -/
def hasInvalidPort : Option (BitVec 16) → Bool
  | none => false
  | some port => port = 0

/-- `HasMatchField`. -/
def hasMatchField (filter : SpiFilterConfig) : Bool :=
  filter.sourceIpAddress.isSome || filter.destinationIpAddress.isSome ||
    filter.sourcePort.isSome || filter.destinationPort.isSome

/-- `HasValidIp`. -/
def hasValidIp (inetPton : InetPton) : Option String → Bool
  | none => true
  | some address =>
      if isCidr address then (parseCidr inetPton address).isOk
      else (parseIpv4Address inetPton address).isOk

/-- `ValidateFilterConfig`. -/
def validateFilterConfig (inetPton : InetPton) (filter : SpiFilterConfig) (gi fi : Nat) :
    Except String Unit :=
  if !isSupportedProtocol filter.protocol then
    .error s!"spi.filter_groups[{gi}].filters[{fi}].protocol must be 'tcp' or 'udp'"
  else if !hasMatchField filter then
    .error s!"spi.filter_groups[{gi}].filters[{fi}] must set at least one match field"
  else if !hasValidIp inetPton filter.sourceIpAddress then
    .error s!"spi.filter_groups[{gi}].filters[{fi}].source_ip_address invalid"
  else if !hasValidIp inetPton filter.destinationIpAddress then
    .error s!"spi.filter_groups[{gi}].filters[{fi}].destination_ip_address invalid"
  else if hasInvalidPort filter.sourcePort then
    .error s!"spi.filter_groups[{gi}].filters[{fi}].source_port must be > 0"
  else if hasInvalidPort filter.destinationPort then
    .error s!"spi.filter_groups[{gi}].filters[{fi}].destination_port must be > 0"
  else .ok ()

/-! ## Groups -/

/-- `ValidateFilterGroupConfig`. -/
def validateFilterGroupConfig (inetPton : InetPton) (group : SpiFilterGroupConfig) (index : Nat) :
    Except String Unit :=
  if group.name.isEmpty then
    .error s!"spi.filter_groups[{index}].name must not be empty"
  else if group.filters.isEmpty then
    .error s!"spi.filter_groups[{index}].filters must not be empty"
  else if !isSupportedProtocol group.action && group.action ≠ "forward" &&
      group.action ≠ "drop" then
    .error s!"spi.filter_groups[{index}].action must be 'forward' or 'drop'"
  else validateAll (fun filter fi ↦ validateFilterConfig inetPton filter index fi) group.filters 0

/-- The check of the link of a group to the DPI. -/
def validateDpiLink (dpi : DpiConfig) (group : SpiFilterGroupConfig) (index : Nat) :
    Except String Unit :=
  if group.dpiFilterGroup.isEmpty then .ok ()
  else if !(dpi.filters.map DpiFilterConfig.filterGroup).contains group.dpiFilterGroup then
    .error (s!"spi.filter_groups[{index}] ('" ++ group.name ++ "') dpi_filter_group='" ++
      group.dpiFilterGroup ++ "' has no matching entry in dpi.filters (must equal one of " ++
      "dpi.filters[*].filter_group)")
  else .ok ()

/-- What `ValidateConfig` does with the filter groups. -/
def validateFilterGroups (inetPton : InetPton) (groups : List SpiFilterGroupConfig)
    (dpi : DpiConfig) : Except String Unit :=
  if groups.isEmpty then .error "spi.filter_groups must contain at least one group"
  else
    match validateAll (validateFilterGroupConfig inetPton) groups 0 with
    | .error e => .error e
    | .ok () => validateAll (validateDpiLink dpi) groups 0

/-! ## What is accepted -/

/-- An accepted group has a filter. -/
theorem filters_ne_nil_of_valid {inetPton : InetPton} {groups : List SpiFilterGroupConfig}
    {dpi : DpiConfig} (h : validateFilterGroups inetPton groups dpi = .ok ()) :
    ∀ group ∈ groups, group.filters ≠ [] := by
  intro group hgroup hnil
  unfold validateFilterGroups at h
  split at h
  · cases h
  · split at h
    · cases h
    · rename_i hgroups
      obtain ⟨i, hvalid⟩ := validateAll_ok hgroups group hgroup
      unfold validateFilterGroupConfig at hvalid
      rw [hnil] at hvalid
      split at hvalid
      · cases hvalid
      · cases hvalid

end DpdkSpi
