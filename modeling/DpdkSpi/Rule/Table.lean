import Mathlib.Data.List.FinRange
import DpdkSpi.Flow.Key
import DpdkSpi.Rule.Acl

/-!
# The rule table

`RuleTable` and the operations the packet path calls on it, after `spi_rule_engine.hpp`
and `spi_rule_engine.cpp`: single and bulk classification, the membership pre-filter,
the tuple-space index over fully specified filters, and the two hand-written moves.

Contexts of the DPDK libraries are handles.  What a library answers for a handle is
part of `Dpdk`, a parameter of every operation.
-/

namespace DpdkSpi

/-! ## Keys as bytes -/

/-- Sixteen raw bytes. -/
abbrev TssKey := Vector (BitVec 8) 16

/-- The byte of an enumerator. -/
def Protocol.code : Protocol → BitVec 8
  | .kTcp => 0
  | .kUdp => 1

/-- The object bytes of a key on a little-endian host. -/
def FlowKey.bytes (key : FlowKey) : TssKey :=
  #v[key.srcIp.extractLsb' 0 8, key.srcIp.extractLsb' 8 8, key.srcIp.extractLsb' 16 8,
    key.srcIp.extractLsb' 24 8,
    key.dstIp.extractLsb' 0 8, key.dstIp.extractLsb' 8 8, key.dstIp.extractLsb' 16 8,
    key.dstIp.extractLsb' 24 8,
    key.srcPort.extractLsb' 0 8, key.srcPort.extractLsb' 8 8,
    key.dstPort.extractLsb' 0 8, key.dstPort.extractLsb' 8 8,
    key.protocol.code,
    key.pad.extractLsb' 0 8, key.pad.extractLsb' 8 8, key.pad.extractLsb' 16 8]

/-! ## The libraries -/

/-- Key of the membership set: destination address, destination port and protocol. -/
structure MemberKey where
  dstIpBe : BitVec 32
  dstPortBe : BitVec 16
  protocol : BitVec 8
deriving DecidableEq, Repr

/-- `RTE_MEMBER_NO_MATCH`. -/
def rteMemberNoMatch : BitVec 16 := 0

/-- What the DPDK libraries answer. -/
structure Dpdk where
  /-- `rte_acl_classify` on a context with one category, as a function of the input;
  `none` when the call fails. -/
  aclClassify : Nat → Option (AclInputData → BitVec 32)
  /-- `rte_member_lookup` in a set. -/
  memberLookup : Nat → MemberKey → BitVec 16
  /-- `rte_hash_crc` of sixteen bytes, with initial value 0. -/
  hashCrc : TssKey → BitVec 32

/-! ## The table -/

/-- ACL context holding a bounded set of filter groups. -/
structure AclChunk where
  ctx : Option Nat := none
  startGroupIndex : Nat := 0
  groupCount : Nat := 0
deriving DecidableEq, Repr

/-- The classify implementations of `rte_acl`. -/
inductive AclClassifyAlg where
  | default | scalar | sse | avx2 | neon | altivec | avx512x16 | avx512x32
deriving DecidableEq, Repr

/-- The number behind a classify implementation. -/
def AclClassifyAlg.code : AclClassifyAlg → Nat
  | .default => 0
  | .scalar => 1
  | .sse => 2
  | .avx2 => 3
  | .neon => 4
  | .altivec => 5
  | .avx512x16 => 6
  | .avx512x32 => 7

/-- `kNoTssHit`: no exact match found, and the mark of an unused slot. -/
def kNoTssHit : BitVec 32 := BitVec.allOnes 32

/-- `kTssCapacity`. -/
def kTssCapacity : Nat := 128

/-- A slot of the tuple-space index. -/
structure TssEntry where
  key : TssKey := Vector.replicate 16 0
  groupIdx : BitVec 32 := kNoTssHit
deriving DecidableEq, Repr

/-- The members of a rule table that `BuildTssFromGroups` writes. -/
structure TssIndex where
  tss : Fin kTssCapacity → TssEntry := fun _ ↦ {}
  tssSize : Nat := 0
  hasWildcardIpRules : Bool := false

/-- Table of compiled filter groups. -/
structure RuleTable extends TssIndex where
  groups : List CompiledFilterGroup := []
  aclChunks : List AclChunk := []
  aclCtx : Option Nat := none
  precedenceOrder : List (BitVec 32) := []
  aclBuildMaxSize : Nat := 0
  aclClassifyAlgorithm : AclClassifyAlg := .default
  fibCtx : Option Nat := none
  memberCtx : Option Nat := none

namespace RuleTable

/-! ## The tuple-space index -/

/-- `IsTssEligible`: the filter fixes the whole 5-tuple. -/
def isTssEligible (filter : CompiledFilter) : Bool :=
  filter.matchSourceIp && filter.matchDestinationIp && !filter.matchDestinationCidr &&
    filter.matchSourcePort && filter.matchDestinationPort

/-- The key under which a filter is indexed. -/
def filterKey (filter : CompiledFilter) : FlowKey where
  srcIp := filter.sourceIpAddress
  dstIp := filter.destinationIpAddress
  srcPort := filter.sourcePort
  dstPort := filter.destinationPort
  protocol := filter.protocol

/-- The slots of the linear probe that starts at a hash value, with wrap-around. -/
def tssProbe (hash : BitVec 32) : List (Fin kTssCapacity) :=
  (List.range kTssCapacity).map fun probe ↦
    ⟨(hash.toNat + probe) % kTssCapacity, Nat.mod_lt _ (by decide)⟩

/-- Whether the member set cannot cover the destinations of a filter. -/
def isWildcardIpRule (filter : CompiledFilter) : Bool :=
  !filter.matchDestinationIp &&
    (!filter.matchDestinationCidr || decide (filter.destinationPrefixLength < 20))

end RuleTable

namespace TssIndex

open RuleTable

/-- Store an entry in the first unused slot of the probe. -/
def insert (x : TssIndex) (hash : BitVec 32) (entry : TssEntry) : TssIndex :=
  match (tssProbe hash).find? fun slot ↦ (x.tss slot).groupIdx = kNoTssHit with
  | none => x
  | some slot => { x with tss := Function.update x.tss slot entry, tssSize := x.tssSize + 1 }

/-- The body of the loop of `BuildTssFromGroups` over the filters of a group; `crc` is
`rte_hash_crc` of sixteen bytes with initial value 0. -/
def buildTssFilter (crc : TssKey → BitVec 32) (categoryIndex : BitVec 32) (x : TssIndex)
    (filter : CompiledFilter) : TssIndex :=
  let x := if isWildcardIpRule filter then { x with hasWildcardIpRules := true } else x
  if isTssEligible filter then
    x.insert (crc (filterKey filter).bytes)
      { key := (filterKey filter).bytes, groupIdx := categoryIndex }
  else x

/-- `BuildTssFromGroups`.  The slots are not cleared first. -/
def buildTssFromGroups (crc : TssKey → BitVec 32) (groups : List CompiledFilterGroup)
    (x : TssIndex) : TssIndex :=
  groups.foldl (fun x group ↦ group.filters.foldl (buildTssFilter crc group.categoryIndex) x)
    { x with tssSize := 0, hasWildcardIpRules := false }

/-- The loop of `ProbeTss`. -/
def probeTssLoop (x : TssIndex) (key : TssKey) : List (Fin kTssCapacity) → BitVec 32
  | [] => kNoTssHit
  | slot :: rest =>
      if (x.tss slot).groupIdx = kNoTssHit then kNoTssHit
      else if (x.tss slot).key = key then (x.tss slot).groupIdx
      else probeTssLoop x key rest

/-- `ProbeTss`, for the bytes of a key. -/
def probeTss (x : TssIndex) (crc : TssKey → BitVec 32) (key : TssKey) : BitVec 32 :=
  if x.tssSize = 0 then kNoTssHit else x.probeTssLoop key (tssProbe (crc key))

end TssIndex

namespace RuleTable

/-- `BuildTssFromGroups` on the members of a table. -/
def buildTssFromGroups (d : Dpdk) (t : RuleTable) : RuleTable :=
  { t with toTssIndex := t.toTssIndex.buildTssFromGroups d.hashCrc t.groups }

/-- `ProbeTss` on the members of a table. -/
def probeTss (t : RuleTable) (d : Dpdk) (key : FlowKey) : BitVec 32 :=
  t.toTssIndex.probeTss d.hashCrc key.bytes

/-- `ResultForCategory`. -/
def resultForCategory (t : RuleTable) (catIndex : BitVec 32) : ClassificationResult :=
  match t.groups[catIndex.toNat]? with
  | none => {}
  | some group =>
      { groupName := group.name
        groupPrecedence := group.precedence
        boundDpiFilterIndex := group.boundDpiFilterIndex
        action := group.action
        matched := true
        l7Required := group.l7Required }

/-! ## Construction and moves -/

/-- The constructor from ACL chunks. -/
def ofChunks (d : Dpdk) (groups : List CompiledFilterGroup) (aclChunks : List AclChunk)
    (precedenceOrder : List (BitVec 32)) (fibCtx memberCtx : Option Nat) (aclBuildMaxSize : Nat)
    (aclClassifyAlgorithm : AclClassifyAlg) : RuleTable :=
  buildTssFromGroups d
    { groups, aclChunks, precedenceOrder, fibCtx, memberCtx, aclBuildMaxSize,
      aclClassifyAlgorithm, aclCtx := aclChunks.head?.bind AclChunk.ctx }

/-- The backward-compatible constructor from a single ACL context. -/
def ofAclCtx (d : Dpdk) (groups : List CompiledFilterGroup) (aclCtx : Option Nat)
    (precedenceOrder : List (BitVec 32)) : RuleTable :=
  buildTssFromGroups d
    { groups, aclCtx, precedenceOrder
      aclChunks := match aclCtx with
        | none => []
        | some ctx => [{ ctx := some ctx, startGroupIndex := 0, groupCount := 1 }] }

/-- What a move leaves behind: empty vectors and null contexts. -/
def movedFrom (other : RuleTable) : RuleTable :=
  { other with
    groups := []
    aclChunks := []
    precedenceOrder := []
    aclCtx := none
    fibCtx := none
    memberCtx := none }

/-- The move constructor: the new table.  The members its initialiser list does not name
have their default values. -/
def moveConstruct (other : RuleTable) : RuleTable where
  groups := other.groups
  aclChunks := other.aclChunks
  aclCtx := other.aclCtx
  precedenceOrder := other.precedenceOrder
  aclBuildMaxSize := other.aclBuildMaxSize
  aclClassifyAlgorithm := other.aclClassifyAlgorithm
  fibCtx := other.fibCtx
  memberCtx := other.memberCtx

/-- Move assignment: the table assigned to.  Its own contexts are freed first. -/
def moveAssign (self other : RuleTable) : RuleTable :=
  { self with
    aclChunks := other.aclChunks
    groups := other.groups
    aclCtx := other.aclCtx
    precedenceOrder := other.precedenceOrder
    aclBuildMaxSize := other.aclBuildMaxSize
    aclClassifyAlgorithm := other.aclClassifyAlgorithm
    fibCtx := other.fibCtx
    memberCtx := other.memberCtx }

/-- The ACL contexts of a table, which its destructor and a move assignment to it
free. -/
def ownedAclCtxs (t : RuleTable) : List Nat := t.aclChunks.filterMap AclChunk.ctx

/-! ## Classification -/

/-- What a classification result of one context comes to: the filter it encodes, when
there is one and its ports and protocol fit. -/
def decode (t : RuleTable) (packet : PacketMetadata) (userdata : BitVec 32) :
    Option ClassificationResult :=
  if userdata = 0 then none
  else
    let groupIdx := (userdata >>> 16) - 1
    let filterIdx := (userdata &&& 0xFFFF) - 1
    match t.groups[groupIdx.toNat]? with
    | none => none
    | some group =>
        match group.filters[filterIdx.toNat]? with
        | none => none
        | some filter =>
            if filterMatchesPortProtocol filter packet then
              some
                { groupName := group.name
                  label := filter.label
                  groupPrecedence := group.precedence
                  boundDpiFilterIndex := group.boundDpiFilterIndex
                  action := group.action
                  matched := true
                  l7Required := group.l7Required }
            else none

/-- Neither chunks nor a context: there is nothing to classify with. -/
def hasNoAcl (t : RuleTable) : Bool := t.aclChunks.isEmpty && t.aclCtx.isNone

/-- The loop of `Match` over the chunks. -/
def matchLoop (t : RuleTable) (d : Dpdk) (packet : PacketMetadata) :
    List AclChunk → ClassificationResult
  | [] => {}
  | chunk :: rest =>
      match chunk.ctx.bind d.aclClassify with
      | none => t.matchLoop d packet rest
      | some classify =>
          match t.decode packet (classify (aclInput packet)) with
          | none => t.matchLoop d packet rest
          | some result => result

/-- `Match`. -/
def matchPacket (t : RuleTable) (d : Dpdk) (packet : PacketMetadata) : ClassificationResult :=
  if t.hasNoAcl then {} else t.matchLoop d packet t.aclChunks

/-- The width of the internal arrays of `MatchBulk` and `MemberFilterBulk`. -/
def kBulkWidth : Nat := 64

/-- The loop body of `MatchBulk` for one packet and the classify result of one chunk. -/
def bulkStep (t : RuleTable) (classify : AclInputData → BitVec 32)
    (p : PacketMetadata × ClassificationResult) : PacketMetadata × ClassificationResult :=
  if p.2.matched then p
  else
    match t.decode p.1 (classify (aclInput p.1)) with
    | none => p
    | some result => (p.1, result)

/-- The loop of `MatchBulk` over the chunks, on the packets with their results so far.
It ends early when every packet is matched. -/
def bulkLoop (t : RuleTable) (d : Dpdk) :
    List AclChunk → List (PacketMetadata × ClassificationResult) →
      List (PacketMetadata × ClassificationResult)
  | [], ps => ps
  | chunk :: rest, ps =>
      match chunk.ctx.bind d.aclClassify with
      | none => t.bulkLoop d rest ps
      | some classify =>
          let ps' := ps.map (t.bulkStep classify)
          if ps'.all fun p ↦ p.2.matched then ps' else t.bulkLoop d rest ps'

/-- `MatchBulk`: the results after the call.  `results` is at least as long as
`packets`; at most 64 packets are classified. -/
def matchBulk (t : RuleTable) (d : Dpdk) (packets : List PacketMetadata)
    (results : List ClassificationResult) : List ClassificationResult :=
  if packets.isEmpty then results
  else if t.hasNoAcl then
    List.replicate packets.length ({} : ClassificationResult) ++ results.drop packets.length
  else
    let burst := packets.take kBulkWidth
    (t.bulkLoop d t.aclChunks (burst.map fun packet ↦ (packet, {}))).map Prod.snd ++
      results.drop burst.length

/-- `FibLookupBulk`, which leaves every result as it is. -/
def fibLookupBulk (_t : RuleTable) (_packets : List PacketMetadata)
    (results : List ClassificationResult) : List ClassificationResult := results

/-! ## The membership pre-filter -/

/-- The key of a packet in the member set, with its destination port or with port 0. -/
def memberKey (packet : PacketMetadata) (portBe : BitVec 16) : MemberKey where
  dstIpBe := packet.destinationIpBe
  dstPortBe := portBe
  protocol := protocolToIpProto packet.protocol

/-- The set of a packet: the exact key first, and for a packet that misses, the key with
the wildcard port. -/
def memberSetId (d : Dpdk) (memberCtx : Nat) (packet : PacketMetadata) : BitVec 16 :=
  let setId := d.memberLookup memberCtx (memberKey packet packet.destinationPortBe)
  if setId = rteMemberNoMatch then d.memberLookup memberCtx (memberKey packet 0) else setId

/-- The last loop of `MemberFilterBulk`. -/
def markSkips (d : Dpdk) (memberCtx : Nat) : List PacketMetadata → List Bool → List Bool
  | packet :: packets, skip :: skips =>
      (if memberSetId d memberCtx packet = rteMemberNoMatch then true else skip) ::
        markSkips d memberCtx packets skips
  | _, skips => skips

/-- `MemberFilterBulk`: which packets may skip the ACL.  Both lookups are done in bulk;
each packet's answer depends on that packet alone. -/
def memberFilterBulk (t : RuleTable) (d : Dpdk) (packets : List PacketMetadata)
    (skipAcl : List Bool) : List Bool :=
  match t.memberCtx with
  | none => skipAcl
  | some memberCtx =>
      if t.hasWildcardIpRules then skipAcl
      else markSkips d memberCtx (packets.take kBulkWidth) skipAcl

end RuleTable

end DpdkSpi
