import DpdkSpi.Pipeline.Forward

/-!
# Classifying one packet

`ClassifyPacket` and `ForwardPacket`, the path of the flow-hash mode, and
`TryDpiClassify`, which both modes share, after `spi_pipeline.cpp`.  The outcome of a
flow-cache miss depends on five insertions that may fail, each with its own idea of what
a failure means for the packet.
-/

namespace DpdkSpi

variable {cap : Nat} {μ σ : Type}

/-- `kTlsPort`. -/
def kTlsPort : BitVec 16 := 443

/-- `kHttpPort`. -/
def kHttpPort : BitVec 16 := 80

/-- `kWellKnownPortMax`. -/
def kWellKnownPortMax : BitVec 16 := 1024

/-- `kMaxTcpInspectionPayload`. -/
def kMaxTcpInspectionPayload : Nat := 65536

/-- `MakeMatched`. -/
def makeMatched (ctx : WorkerContext) (svc : Services μ σ) (metadata : PacketMetadata)
    (action : Action) (key : FlowKey) (st : BurstState cap μ σ) :
    PacketClassification × BurstState cap μ σ :=
  match st.insertFlow svc key action with
  | (.kOk, st) =>
      ({ metadata, action, parsed := true, matched := true },
        st.count fun c ↦ { c with matched := c.matched + 1 })
  | (.kFull, st) =>
      let st := st.count fun c ↦ { c with flowTableFull := c.flowTableFull + 1 }
      if ctx.flowOverflowDrop then
        ({ metadata, action := .kDrop, parsed := true, matched := true },
          st.count fun c ↦ { c with matched := c.matched + 1 })
      else
        ({ metadata, action := .kForward, parsed := true, matched := false },
          st.count fun c ↦ { c with unknown := c.unknown + 1 })

/-! ## DPI -/

/-- `MatchDpi`. -/
def matchDpi (svc : Services μ σ) (metadata : PacketMetadata) (st : BurstState cap μ σ) :
    Option DpiMatch × BurstState cap μ σ :=
  match metadata.hostname with
  | none => (none, st)
  | some hostname =>
      let answer := svc.dpiLookup hostname st.world
      let st := { st with world := answer.2 }
      (answer.1.result, st.count fun c ↦
        if answer.1.cacheHit then { c with dpiCacheHits := c.dpiCacheHits + 1 }
        else { c with dpiCacheMisses := c.dpiCacheMisses + 1 })

/-- What `TryDpiClassify` leaves in its reference arguments. -/
structure DpiVerdict where
  metadata : PacketMetadata
  action : Action := .kForward
  matched : Bool := false
  deferSpiCache : Bool := false

/-- Store a hostname if one was found. -/
def setHostname (metadata : PacketMetadata) (hostname : Option (List (BitVec 8))) :
    PacketMetadata :=
  match hostname with
  | none => metadata
  | some h => { metadata with hostname := some h }

/-- The part of `TryDpiClassify` that looks for a hostname: a verdict that ends the call, or
the metadata to go on with. -/
def findHostname (ctx : WorkerContext) (svc : Services μ σ) (packet : μ)
    (metadata : PacketMetadata) (st : BurstState cap μ σ) :
    (DpiVerdict ⊕ PacketMetadata) × BurstState cap μ σ :=
  match svc.tcpReassembler with
  | none => (.inr (setHostname metadata (svc.extractHostname packet metadata)), st)
  | some insert =>
      let payloadLength := min metadata.tcpPayloadLength.toNat kMaxTcpInspectionPayload
      match svc.pktmbufRead packet metadata.tcpPayloadOffset.toNat payloadLength with
      | none => (.inl { metadata, deferSpiCache := true }, st)
      | some payload =>
          let stream := insert metadata payload ctx.currentBurstTsc st.world
          let st := { st with world := stream.2 }
          match stream.1.status with
          | .kConflictingOverlap | .kResourceLimit =>
              (.inl { metadata, action := .kDrop, matched := true },
                st.count fun c ↦ { c with matched := c.matched + 1 })
          | .kWaiting | .kReady =>
              let metadata := setHostname metadata
                (if rteBeToCpu16 metadata.destinationPortBe = kTlsPort then
                  svc.extractTlsSni stream.1.contiguousPayload
                else svc.extractHttpHost stream.1.contiguousPayload)
              if metadata.hostname = none then (.inl { metadata, deferSpiCache := true }, st)
              else (.inr metadata, st)
          | .kDisabled => (.inr metadata, st)

/-- The end of `TryDpiClassify`: match the hostname and cache the verdict. -/
def classifyHostname (ctx : WorkerContext) (svc : Services μ σ) (metadata : PacketMetadata)
    (spiMatch : ClassificationResult) (key : FlowKey) (st : BurstState cap μ σ) :
    DpiVerdict × BurstState cap μ σ :=
  match matchDpi svc metadata st with
  | (none, st) => ({ metadata }, st)
  | (some _, st) =>
      let finalAction := if spiMatch.matched then spiMatch.action else .kForward
      match st.insertFlow svc key finalAction with
      | (.kOk, st) =>
          ({ metadata, action := finalAction, matched := true },
            st.count fun c ↦ { c with matched := c.matched + 1 })
      | (.kFull, st) =>
          let st := st.count fun c ↦ { c with flowTableFull := c.flowTableFull + 1 }
          if ctx.flowOverflowDrop then
            ({ metadata, action := .kDrop, matched := true },
              st.count fun c ↦ { c with matched := c.matched + 1 })
          else ({ metadata }, st)

/-- The ways through `TryDpiClassify`.  Which of them a packet takes does not depend on the
state. -/
inductive DpiRoute where
  /-- DPI is off. -/
  | disabled
  /-- The packet is left to the rules. -/
  | skipped
  /-- The group has a static link. -/
  | linked
  /-- The payload is searched for a hostname. -/
  | inspected
deriving DecidableEq, Repr

/-- The tests of `TryDpiClassify`, in its order. -/
def dpiRoute (ctx : WorkerContext) (metadata : PacketMetadata) (spiMatch : ClassificationResult) :
    DpiRoute :=
  let dstPort := rteBeToCpu16 metadata.destinationPortBe
  let srcPort := rteBeToCpu16 metadata.sourcePortBe
  if !ctx.dpiEnabled then .disabled
  else if spiMatch.matched ∧ spiMatch.action = .kDrop then .skipped
  else if spiMatch.matched ∧ spiMatch.action = .kForward ∧ !spiMatch.l7Required then .skipped
  else if spiMatch.matched ∧ spiMatch.boundDpiFilterIndex ≠ kNoDpiLink then .linked
  else if metadata.protocol ≠ .kTcp then .skipped
  else if dstPort ≠ kTlsPort ∧ dstPort ≠ kHttpPort then .skipped
  -- the response direction
  else if (srcPort = kHttpPort ∨ srcPort = kTlsPort) ∧ kWellKnownPortMax ≤ dstPort then .skipped
  else .inspected

/-- What `TryDpiClassify` does on each way. -/
def DpiRoute.run (ctx : WorkerContext) (svc : Services μ σ) (packet : μ)
    (metadata : PacketMetadata) (spiMatch : ClassificationResult) (key : FlowKey)
    (st : BurstState cap μ σ) : DpiRoute → DpiVerdict × BurstState cap μ σ
  | .disabled => ({ metadata }, st)
  | .skipped =>
      ({ metadata }, st.count fun c ↦ { c with dpiSkippedBySpi := c.dpiSkippedBySpi + 1 })
  | .linked =>
      -- a failed insertion under `reclassify` leaves the packet unmatched
      match st.insertFlow svc key spiMatch.action with
      | (.kOk, st) =>
          ({ metadata, action := spiMatch.action, matched := true },
            st.count fun c ↦
              { c with dpiSkippedByLink := c.dpiSkippedByLink + 1, matched := c.matched + 1 })
      | (.kFull, st) =>
          let st := st.count fun c ↦ { c with flowTableFull := c.flowTableFull + 1 }
          if ctx.flowOverflowDrop then
            ({ metadata, action := .kDrop, matched := true },
              st.count fun c ↦ { c with matched := c.matched + 1 })
          else ({ metadata }, st)
  | .inspected =>
      match findHostname ctx svc packet metadata st with
      | (.inl verdict, st) => (verdict, st)
      | (.inr metadata, st) => classifyHostname ctx svc metadata spiMatch key st

/-- `TryDpiClassify`, on an action and a match that are at their initial values. -/
def tryDpiClassify (ctx : WorkerContext) (svc : Services μ σ) (packet : μ)
    (metadata : PacketMetadata) (spiMatch : ClassificationResult) (key : FlowKey)
    (st : BurstState cap μ σ) : DpiVerdict × BurstState cap μ σ :=
  (dpiRoute ctx metadata spiMatch).run ctx svc packet metadata spiMatch key st

/-- `TryDpiClassify` looks at the payload. -/
def Inspected (ctx : WorkerContext) (metadata : PacketMetadata) (spiMatch : ClassificationResult) :
    Prop :=
  ctx.dpiEnabled = true ∧
    ¬ (spiMatch.matched = true ∧ spiMatch.action = .kDrop) ∧
    ¬ (spiMatch.matched = true ∧ spiMatch.action = .kForward ∧ (!spiMatch.l7Required) = true) ∧
    ¬ (spiMatch.matched = true ∧ spiMatch.boundDpiFilterIndex ≠ kNoDpiLink) ∧
    metadata.protocol = .kTcp ∧
    (rteBeToCpu16 metadata.destinationPortBe = kTlsPort ∨
      rteBeToCpu16 metadata.destinationPortBe = kHttpPort) ∧
    ¬ ((rteBeToCpu16 metadata.sourcePortBe = kHttpPort ∨
        rteBeToCpu16 metadata.sourcePortBe = kTlsPort) ∧
      kWellKnownPortMax ≤ rteBeToCpu16 metadata.destinationPortBe)

theorem dpiRoute_inspected_iff {ctx : WorkerContext} {metadata : PacketMetadata}
    {spiMatch : ClassificationResult} :
    dpiRoute ctx metadata spiMatch = .inspected ↔ Inspected ctx metadata spiMatch := by
  unfold dpiRoute Inspected
  grind

theorem dpiRoute_linked {ctx : WorkerContext} {metadata : PacketMetadata}
    {spiMatch : ClassificationResult} (h : dpiRoute ctx metadata spiMatch = .linked) :
    spiMatch.matched = true ∧ spiMatch.boundDpiFilterIndex ≠ kNoDpiLink := by
  unfold dpiRoute at h
  grind

/-! ## The flow-hash path -/

/-- The SPI result of a packet: the tuple-space index first, then the ACL. -/
def spiLookup (svc : Services μ σ) (rules : RuleTable) (metadata : PacketMetadata)
    (key : FlowKey) : ClassificationResult :=
  let tssHit := rules.probeTss svc.dpdk key
  if tssHit ≠ kNoTssHit then rules.resultForCategory tssHit
  else rules.matchPacket svc.dpdk metadata

/-- `ClassifyPacket` behind a flow-cache miss, given the SPI result. -/
def classifyMiss (ctx : WorkerContext) (svc : Services μ σ) (packet : μ)
    (metadata : PacketMetadata) (spiMatch : ClassificationResult) (key : FlowKey)
    (st : BurstState cap μ σ) : PacketClassification × BurstState cap μ σ :=
  if spiMatch.matched ∧ spiMatch.boundDpiFilterIndex ≠ kNoDpiLink then
    -- the static link; a failed insertion under `reclassify` keeps the verdict
    match st.insertFlow svc key spiMatch.action with
    | (.kOk, st) =>
        ({ metadata, action := spiMatch.action, parsed := true, matched := true },
          st.count fun c ↦
            { c with dpiSkippedByLink := c.dpiSkippedByLink + 1, matched := c.matched + 1 })
    | (.kFull, st) =>
        let st := st.count fun c ↦ { c with flowTableFull := c.flowTableFull + 1 }
        if ctx.flowOverflowDrop then
          ({ metadata, action := .kDrop, parsed := true, matched := true },
            st.count fun c ↦ { c with matched := c.matched + 1 })
        else
          ({ metadata, action := spiMatch.action, parsed := true, matched := true },
            st.count fun c ↦ { c with matched := c.matched + 1 })
  else if !ctx.dpiEnabled then
    if spiMatch.matched then makeMatched ctx svc metadata spiMatch.action key st
    else
      ({ metadata, action := .kForward, parsed := true, matched := false },
        st.count fun c ↦ { c with unknown := c.unknown + 1 })
  else
    match tryDpiClassify ctx svc packet metadata spiMatch key st with
    | (verdict, st) =>
        if verdict.matched then
          ({ metadata := verdict.metadata, action := verdict.action, parsed := true
             matched := true }, st)
        else if spiMatch.matched then
          if verdict.deferSpiCache then
            ({ metadata := verdict.metadata, action := spiMatch.action, parsed := true
               matched := true }, st.count fun c ↦ { c with matched := c.matched + 1 })
          else makeMatched ctx svc verdict.metadata spiMatch.action key st
        else
          ({ metadata := verdict.metadata, action := .kForward, parsed := true, matched := false },
            st.count fun c ↦ { c with unknown := c.unknown + 1 })

/-- The worker a packet belongs to in flow-hash mode. -/
def targetWorker (ctx : WorkerContext) (svc : Services μ σ) (packet : μ)
    (receivePort : BitVec 16) : Nat :=
  (svc.hashPacketFlow packet receivePort).toNat % ctx.flowHashRings

/-- A reassembled packet that another worker has to classify. -/
def Redispatched (ctx : WorkerContext) (svc : Services μ σ) (packet : μ) (receivePort : BitVec 16)
    (wasReassembled : Bool) : Prop :=
  wasReassembled = true ∧ ctx.flowHashRings ≠ 0 ∧
    targetWorker ctx svc packet receivePort ≠ ctx.workerId

instance (ctx : WorkerContext) (svc : Services μ σ) (packet : μ) (receivePort : BitVec 16)
    (wasReassembled : Bool) : Decidable (Redispatched ctx svc packet receivePort wasReassembled) :=
  inferInstanceAs (Decidable (_ ∧ _ ∧ _))

/-- `ClassifyPacket`: the classification, the packet after the call (`none` for a null
pointer) and the new state. -/
def classifyPacket (ctx : WorkerContext) (svc : Services μ σ) (packet : μ)
    (receivePort : BitVec 16) (st : BurstState cap μ σ) :
    PacketClassification × Option μ × BurstState cap μ σ :=
  let parse := svc.parsePacketOwned packet ctx.currentBurstTsc st.world
  let st := { st with world := parse.2 }
  match parse.1 with
  | .parsed metadata packet wasReassembled =>
      if Redispatched ctx svc packet receivePort wasReassembled then
        ({ metadata, parsed := true, redispatch := true }, some packet, st)
      else
        let st := st.count fun c ↦ { c with parsed := c.parsed + 1 }
        let key := makeCanonicalFromMetadata metadata
        match st.flowTable.lookup key ctx.currentBurstTsc with
        | (some action, flowTable) =>
            ({ metadata, action, parsed := true, matched := true }, some packet,
              { st with flowTable }.count fun c ↦ { c with flowCacheHits := c.flowCacheHits + 1 })
        | (none, flowTable) =>
            let r := classifyMiss ctx svc packet metadata (spiLookup svc ctx.rules metadata key) key
              { st with flowTable }
            (r.1, some packet, r.2)
  | .waitingForFragments => ({ matched := true }, none, st)
  | .malformed packet =>
      ({}, some packet, st.count fun c ↦ { c with malformed := c.malformed + 1 })

/-- `ForwardPacket`.  Its end is what `ApplyForwardDecision` does. -/
def forwardPacket (ctx : WorkerContext) (svc : Services μ σ) (packet : μ)
    (receivePort : BitVec 16) (st : BurstState cap μ σ) : BurstState cap μ σ :=
  match classifyPacket ctx svc packet receivePort st with
  | (_, none, st) => st
  | (classification, some packet, st) =>
      if classification.redispatch then
        let sent := svc.ringEnqueue (targetWorker ctx svc packet receivePort) packet st.world
        let st := { st with world := sent.2 }
        if sent.1 then st else st.dropPacket packet
      else applyForwardDecision ctx svc packet receivePort classification st

end DpdkSpi
