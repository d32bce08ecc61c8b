import DpdkSpi.IpAddress
import DpdkSpi.Pipeline.Context

/-!
# Ports, routes and the context they give a worker

What `Environment::init` leaves behind, the part of the L3 configuration that forwarding reads
with its validation, and the tables `Pipeline` builds from it, after `dpdk_environment.hpp`,
`dpdk_config_loader.cpp` and `spi_pipeline.cpp`.
-/

namespace DpdkSpi

/-! ## Ports -/

/-- The ports after a successful `init`.  `SetupPorts` walks the port ids below `port_count_`
once and keeps those of the port mask; there is an address for every port id, active or not. -/
structure Environment where
  portCount : Nat
  activePorts : List (BitVec 16)
  portMacAddrs : List EtherAddr
  portCount_lt : portCount < 2 ^ 16
  active_nodup : activePorts.Nodup
  active_lt : ∀ p ∈ activePorts, p.toNat < portCount
  active_ne_nil : activePorts ≠ []
  macs_length : portMacAddrs.length = portCount

/-- `GetPortMacAddress`. -/
def Environment.getPortMacAddress (env : Environment) (portId : BitVec 16) : Option EtherAddr :=
  env.portMacAddrs[portId.toNat]?

/-- `GetPortMacAddress` has an address for every port id below the port count. -/
theorem Environment.isSome_getPortMacAddress (env : Environment) (portId : BitVec 16) :
    (env.getPortMacAddress portId).isSome = true ↔ portId.toNat < env.portCount := by
  rw [getPortMacAddress, isSome_getElem?, env.macs_length]

/-! ## L3 configuration -/

/-- `Ipv4Route`. -/
structure Ipv4Route where
  destinationIpAddress : String
  prefixLength : BitVec 16 := 32
  outputPort : BitVec 16 := 0
deriving DecidableEq, Repr

/-- `EthernetDestination`. -/
structure EthernetDestination where
  portId : BitVec 16 := 0
  macAddress : String := ""
deriving DecidableEq, Repr

/-- The options of `L3ForwardConfig` that forwarding reads. -/
structure L3ForwardConfig where
  enabled : Bool := false
  ipv4Routes : List Ipv4Route := []
  ethernetDestinations : List EthernetDestination := []
deriving DecidableEq, Repr

/-- `kMacAddressLength`. -/
def kMacAddressLength : Nat := 17

/-- `kMacAddressSeparatorPeriod`. -/
def kMacAddressSeparatorPeriod : Nat := 3

/-- `IsHexDigit`. -/
def isHexDigit (c : Char) : Bool :=
  ('0' ≤ c && c ≤ '9') || ('a' ≤ c && c ≤ 'f') || ('A' ≤ c && c ≤ 'F')

/-- `HasValidMacAddress`. -/
def hasValidMacAddress (address : String) : Bool :=
  address.toList.length = kMacAddressLength &&
    (address.toList.zipIdx.all fun c ↦
      if (c.2 + 1) % kMacAddressSeparatorPeriod = 0 then c.1 = ':' else isHexDigit c.1)

/-- `HasValidIpv4Address`. -/
def hasValidIpv4Address (inetPton : InetPton) (address : String) : Bool :=
  !address.isEmpty && (parseIpv4Address inetPton address).isOk

/-- `ValidateL3Ipv4Route`. -/
def validateL3Ipv4Route (inetPton : InetPton) (route : Ipv4Route) (index : Nat) :
    Except String Unit :=
  if !hasValidIpv4Address inetPton route.destinationIpAddress then
    .error s!"l3_forward.ipv4_routes[{index}].destination_ip_address must be a valid IPv4 address"
  else if 32 < route.prefixLength then
    .error s!"l3_forward.ipv4_routes[{index}].prefix_length must be between 0 and 32"
  else .ok ()

/-- `ValidateL3EthernetDestination`. -/
def validateL3EthernetDestination (destination : EthernetDestination) (index : Nat) :
    Except String Unit :=
  if !hasValidMacAddress destination.macAddress then
    .error (s!"l3_forward.ethernet_destinations[{index}].mac_address must use " ++
      "MM:MM:MM:MM:MM:MM format")
  else .ok ()

/-- `HasEthernetDestination`. -/
def hasEthernetDestination (config : L3ForwardConfig) (portId : BitVec 16) : Bool :=
  config.ethernetDestinations.any fun destination ↦ destination.portId = portId

/-- The check of one route in `ValidateL3Ipv4RouteDestinations`. -/
def validateRouteDestination (config : L3ForwardConfig) (route : Ipv4Route) (index : Nat) :
    Except String Unit :=
  if !hasEthernetDestination config route.outputPort then
    .error (s!"l3_forward.ipv4_routes[{index}].output_port={route.outputPort.toNat} " ++
      "has no matching ethernet_destinations entry")
  else .ok ()

/-- `ValidateL3ForwardConfig`, less the checks of options that forwarding does not read. -/
def validateL3ForwardConfig (inetPton : InetPton) (config : L3ForwardConfig) :
    Except String Unit := do
  validateAll (validateL3Ipv4Route inetPton) config.ipv4Routes 0
  validateAll validateL3EthernetDestination config.ethernetDestinations 0
  if config.enabled then validateAll (validateRouteDestination config) config.ipv4Routes 0

/-- Every route of an accepted configuration has a destination address for its port. -/
theorem hasEthernetDestination_of_valid {inetPton : InetPton} {config : L3ForwardConfig}
    (h : validateL3ForwardConfig inetPton config = .ok ()) (hl3 : config.enabled = true)
    {route : Ipv4Route} (hroute : route ∈ config.ipv4Routes) :
    hasEthernetDestination config route.outputPort = true := by
  unfold validateL3ForwardConfig at h
  cases h₁ : validateAll (validateL3Ipv4Route inetPton) config.ipv4Routes 0 with
  | error e =>
      rw [h₁] at h
      cases h
  | ok u =>
      cases h₂ : validateAll validateL3EthernetDestination config.ethernetDestinations 0 with
      | error e =>
          rw [h₁, h₂] at h
          cases h
      | ok v =>
          rw [h₁, h₂, if_pos hl3] at h
          obtain ⟨i, hi⟩ := validateAll_ok (h : _ = Except.ok ()) route hroute
          unfold validateRouteDestination at hi
          split at hi
          · cases hi
          · rename_i hhas
            simpa using hhas

/-! ## The tables of a worker -/

/-- `HexValue`. -/
def hexValue (c : Char) : Nat :=
  if '0' ≤ c ∧ c ≤ '9' then c.toNat - '0'.toNat
  else if 'a' ≤ c ∧ c ≤ 'f' then c.toNat - 'a'.toNat + 10
  else c.toNat - 'A'.toNat + 10

/-- `ParseMacAddress`, on an address that `HasValidMacAddress` accepts. -/
def parseMacAddress (address : String) : EtherAddr :=
  let chars := address.toList
  (List.range 6).foldl (fun mac k ↦
    mac <<< 8 ||| BitVec.ofNat 48
      (16 * hexValue (chars.getD (3 * k) '0') + hexValue (chars.getD (3 * k + 1) '0'))) 0

/-- `std::ranges::sort` by descending prefix length: some sorted permutation. -/
structure RouteSort where
  sort : List L3RouteEntry → List L3RouteEntry
  perm : ∀ routes, (sort routes).Perm routes
  sorted : ∀ routes, (sort routes).Pairwise fun lhs rhs ↦ rhs.prefixLength ≤ lhs.prefixLength

/-- The entry of one configured route; an address that does not parse is skipped. -/
def l3RouteEntry (inetPton : InetPton) (route : Ipv4Route) : Option L3RouteEntry :=
  match parseIpv4Address inetPton route.destinationIpAddress with
  | .error _ => none
  | .ok address =>
      let mask := prefixMask route.prefixLength
      some { networkAddress := address &&& mask, prefixMask := mask
             prefixLength := route.prefixLength, outputPort := route.outputPort }

/-- `BuildL3Routes`. -/
def buildL3Routes (inetPton : InetPton) (rs : RouteSort) (config : L3ForwardConfig) :
    List L3RouteEntry :=
  rs.sort (config.ipv4Routes.filterMap (l3RouteEntry inetPton))

/-- `BuildEthernetDestinations`. -/
def buildEthernetDestinations (config : L3ForwardConfig) : List EthernetDestinationEntry :=
  config.ethernetDestinations.map fun destination ↦
    { portId := destination.portId, macAddress := parseMacAddress destination.macAddress }

/-- The part of `PrepareWorkerContext` about ports and routes. -/
def prepareWorkerContext (env : Environment) (inetPton : InetPton) (rs : RouteSort)
    (l3 : L3ForwardConfig) (ctx : WorkerContext) : WorkerContext :=
  { ctx with
    l3Routes := some (buildL3Routes inetPton rs l3)
    ethernetDestinations := some (buildEthernetDestinations l3)
    l3Forwarding := l3.enabled
    activePorts := env.activePorts
    portCount := env.portCount
    portMacAddress := env.getPortMacAddress }

/-- `kMinBurstCapacity`. -/
def kMinBurstCapacity : Nat := 1

/-- `kMaxBurstCapacity`. -/
def kMaxBurstCapacity : Nat := 256

/-- `burst_size_`: the configured size, clamped. -/
def clampBurstSize (burstSize : BitVec 16) : Nat :=
  max kMinBurstCapacity (min burstSize.toNat kMaxBurstCapacity)

end DpdkSpi
