import DpdkSpi.Types

/-!
# Filters and ACL rules

Compiled filters and groups, and the `rte_acl` rules that are built from them, after
`spi_rule_engine.hpp` and `BuildAclRule` of `spi_rule_engine.cpp`.  An ACL rule
matches on five fields: two addresses under a prefix mask, two port ranges and the
protocol under a bit mask.  `AclRule.Matches` says what the fields of a rule mean;
how the library finds a matching rule is its own business.
-/

namespace DpdkSpi

/-! ## Compiled filters -/

/-- Hot-path representation of a single filter. -/
structure CompiledFilter where
  protocol : Protocol
  sourceIpAddress : BitVec 32 := 0
  destinationIpAddress : BitVec 32 := 0
  destinationNetwork : BitVec 32 := 0
  destinationPrefixMask : BitVec 32 := 0
  destinationPrefixLength : BitVec 32 := 0
  sourcePort : BitVec 16 := 0
  destinationPort : BitVec 16 := 0
  matchSourceIp : Bool := false
  matchDestinationIp : Bool := false
  matchDestinationCidr : Bool := false
  matchSourcePort : Bool := false
  matchDestinationPort : Bool := false
  label : String := ""
deriving DecidableEq, Repr

/-- `kDefaultPrecedence`. -/
def kDefaultPrecedence : BitVec 32 := 100

/-- Hot-path representation of a filter group. -/
structure CompiledFilterGroup where
  name : String := ""
  precedence : BitVec 32 := kDefaultPrecedence
  action : Action := .kForward
  filters : List CompiledFilter := []
  categoryIndex : BitVec 32 := 0
  l7Required : Bool := false
  boundDpiFilterIndex : BitVec 32 := kNoDpiLink
  boundDpiName : String := ""
deriving DecidableEq, Repr

/-! ## The input of a classification -/

/-- `kIpProtoTcp`. -/
def kIpProtoTcp : BitVec 8 := 6

/-- `kIpProtoUdp`. -/
def kIpProtoUdp : BitVec 8 := 17

/-- `ProtocolToIpProto`. -/
def protocolToIpProto : Protocol → BitVec 8
  | .kTcp => kIpProtoTcp
  | .kUdp => kIpProtoUdp

theorem protocolToIpProto_injective {p q : Protocol}
    (h : protocolToIpProto p = protocolToIpProto q) : p = q := by
  cases p <;> cases q <;> first | rfl | exact absurd h (by decide)

/-- 5-tuple input of `rte_acl_classify`, in network byte order. -/
structure AclInputData where
  srcIpBe : BitVec 32
  dstIpBe : BitVec 32
  srcPortBe : BitVec 16
  dstPortBe : BitVec 16
  protocol : BitVec 8
deriving DecidableEq, Repr

/-- The input `Match` and `MatchBulk` build for a packet.  Of an IPv6 address only the
first four bytes take part. -/
def aclInput (packet : PacketMetadata) : AclInputData where
  srcIpBe := match packet.ipVersion with
    | .kIpv4 => packet.sourceIpBe
    | .kIpv6 => packet.sourceIp6Address.loadWord 0
  dstIpBe := match packet.ipVersion with
    | .kIpv4 => packet.destinationIpBe
    | .kIpv6 => packet.destinationIp6Address.loadWord 0
  srcPortBe := packet.sourcePortBe
  dstPortBe := packet.destinationPortBe
  protocol := protocolToIpProto packet.protocol

/-! ## Rules -/

/-- `RTE_ACL_MAX_PRIORITY`. -/
def rteAclMaxPriority : BitVec 32 := 0x1FFFFFFF

/-- One `rte_acl_rule` with the five fields of `kAclFieldDefs`: a value with a bit mask,
two values with a prefix length, two ranges. -/
structure AclRule where
  userdata : BitVec 32
  priority : Int
  protocolValue : BitVec 8
  protocolMask : BitVec 8
  srcIpValue : BitVec 32
  srcIpPrefix : BitVec 32
  dstIpValue : BitVec 32
  dstIpPrefix : BitVec 32
  srcPortLow : BitVec 16
  srcPortHigh : BitVec 16
  dstPortLow : BitVec 16
  dstPortHigh : BitVec 16
deriving DecidableEq, Repr

/-- The bit mask a field of type `RTE_ACL_FIELD_TYPE_MASK` derives from its prefix
length. -/
def aclMask (prefixLength : BitVec 32) : BitVec 32 :=
  if prefixLength = 0 then 0 else BitVec.allOnes 32 <<< (32 - prefixLength.toNat)

/-- Whether the fields of a rule, in host order, match an input, in network order. -/
def AclRule.Matches (r : AclRule) (input : AclInputData) : Prop :=
  input.protocol &&& r.protocolMask = r.protocolValue &&& r.protocolMask ∧
    rteBeToCpu32 input.srcIpBe &&& aclMask r.srcIpPrefix =
      r.srcIpValue &&& aclMask r.srcIpPrefix ∧
    rteBeToCpu32 input.dstIpBe &&& aclMask r.dstIpPrefix =
      r.dstIpValue &&& aclMask r.dstIpPrefix ∧
    (r.srcPortLow ≤ rteBeToCpu16 input.srcPortBe ∧
      rteBeToCpu16 input.srcPortBe ≤ r.srcPortHigh) ∧
    (r.dstPortLow ≤ rteBeToCpu16 input.dstPortBe ∧
      rteBeToCpu16 input.dstPortBe ≤ r.dstPortHigh)

instance (r : AclRule) (input : AclInputData) : Decidable (r.Matches input) := by
  unfold AclRule.Matches
  infer_instance

/-- The userdata of a rule: the index of the group plus one in the upper half, that of
the filter plus one in the lower half. -/
def encodeUserdata (groupIndex filterIndex : BitVec 32) : BitVec 32 :=
  ((groupIndex + 1) <<< 16) ||| ((filterIndex + 1) &&& 0xFFFF)

/-- `BuildAclRule`.  The priority is computed in 32-bit arithmetic and read as a signed
number. -/
def buildAclRule (filter : CompiledFilter) (groupIndex filterIndex precedence : BitVec 32) :
    AclRule where
  userdata := encodeUserdata groupIndex filterIndex
  priority := (rteAclMaxPriority - precedence).toInt
  protocolValue := protocolToIpProto filter.protocol
  protocolMask := 0xFF
  srcIpValue := filter.sourceIpAddress
  srcIpPrefix := if filter.matchSourceIp then 32 else 0
  dstIpValue :=
    if filter.matchDestinationCidr then filter.destinationNetwork
    else if filter.matchDestinationIp then filter.destinationIpAddress
    else 0
  dstIpPrefix :=
    if filter.matchDestinationCidr then filter.destinationPrefixLength
    else if filter.matchDestinationIp then 32
    else 0
  srcPortLow := if filter.matchSourcePort then filter.sourcePort else 0
  srcPortHigh := if filter.matchSourcePort then filter.sourcePort else 65535
  dstPortLow := if filter.matchDestinationPort then filter.destinationPort else 0
  dstPortHigh := if filter.matchDestinationPort then filter.destinationPort else 65535

/-- `FilterMatchesPortProtocol`. -/
def filterMatchesPortProtocol (filter : CompiledFilter) (packet : PacketMetadata) : Bool :=
  if filter.protocol ≠ packet.protocol then false
  else if filter.matchDestinationPort ∧
      filter.destinationPort ≠ rteBeToCpu16 packet.destinationPortBe then false
  else if filter.matchSourcePort ∧
      filter.sourcePort ≠ rteBeToCpu16 packet.sourcePortBe then false
  else true

end DpdkSpi
