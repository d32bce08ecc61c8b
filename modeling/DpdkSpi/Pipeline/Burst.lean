import DpdkSpi.Pipeline.Classify

/-!
# Bursts in queue mode

`ProcessPortBurst` and its three stages, after `spi_pipeline.cpp`: parse every packet,
look all keys up in the flow table at once, then classify the misses in bulk and decide
packet by packet.  The arrays over parsed packets are lists; a packet of the burst knows
its index in them.
-/

namespace DpdkSpi

variable {cap : Nat} {μ σ : Type}

/-! ## Parsing -/

/-- One packet of a burst after parsing, with its entry of `packet_to_parsed`. -/
inductive PacketSlot (μ : Type) where
  /-- `kPacketWaitingForFragments`. -/
  | waiting
  /-- `kPacketUnmapped`. -/
  | unmapped (packet : μ)
  | mapped (packet : μ) (parsedIdx : Nat)

/-- `ParseReceivedPackets`: the slots of the packets, and the metadata from the `nParsed`-th
on.  A packet that does not parse stays the one that was received. -/
def parseReceivedPackets (ctx : WorkerContext) (svc : Services μ σ) :
    List μ → (nParsed : Nat) → BurstState cap μ σ →
      (List (PacketSlot μ) × List PacketMetadata) × BurstState cap μ σ
  | [], _, st => (([], []), st)
  | packet :: rest, nParsed, st =>
      let parse := svc.parsePacketOwned packet ctx.currentBurstTsc st.world
      let st := { st with world := parse.2 }
      match parse.1 with
      | .parsed metadata packet _ =>
          let r := parseReceivedPackets ctx svc rest (nParsed + 1)
            (st.count fun c ↦ { c with parsed := c.parsed + 1 })
          ((.mapped packet nParsed :: r.1.1, metadata :: r.1.2), r.2)
      | .waitingForFragments =>
          let r := parseReceivedPackets ctx svc rest nParsed st
          ((.waiting :: r.1.1, r.1.2), r.2)
      | .malformed _ =>
          let r := parseReceivedPackets ctx svc rest nParsed
            (st.count fun c ↦ { c with malformed := c.malformed + 1 })
          ((.unmapped packet :: r.1.1, r.1.2), r.2)

/-! ## Flow lookup -/

/-- `kBulkChunkMax`. -/
def kBulkChunkMax : Nat := 64

/-- `BulkFlowLookup`; `fuel` bounds the number of chunks. -/
def bulkFlowLookup (now : BitVec 64) :
    (fuel : Nat) → FlowTable cap → List FlowKey → List BulkResult →
      List BulkResult × FlowTable cap
  | 0, t, _, results => (results, t)
  | _ + 1, t, [], results => (results, t)
  | fuel + 1, t, keys, results =>
      let chunk := t.lookupBulk (keys.take kBulkChunkMax) now (results.take kBulkChunkMax)
      let rest := bulkFlowLookup now fuel chunk.2 (keys.drop kBulkChunkMax)
        (results.drop kBulkChunkMax)
      (chunk.1 ++ rest.1, rest.2)

/-! ## SPI results -/

/-- What the stages of a burst know about its parsed packets. -/
structure ParsedBurst where
  metadata : List PacketMetadata
  keys : List FlowKey
  bulkResults : List BulkResult

namespace ParsedBurst

/-- The entries of one parsed packet. -/
def metadataAt (b : ParsedBurst) (i : Nat) : PacketMetadata := b.metadata.getD i {}

/-- The key of one parsed packet. -/
def keyAt (b : ParsedBurst) (i : Nat) : FlowKey := b.keys.getD i {}

/-- The flow lookup of one parsed packet. -/
def bulkAt (b : ParsedBurst) (i : Nat) : BulkResult := b.bulkResults.getD i {}

end ParsedBurst

/-- Phase 1 of `FinalizePackets`: the cache misses that the tuple-space index does not
decide, and the results of those it does. -/
def probeMisses (svc : Services μ σ) (rules : RuleTable) (b : ParsedBurst) :
    List (PacketSlot μ) → List ClassificationResult →
      List (Nat × PacketMetadata) × List ClassificationResult
  | [], spiMatches => ([], spiMatches)
  | .mapped _ i :: rest, spiMatches =>
      if (b.bulkAt i).valid then probeMisses svc rules b rest spiMatches
      else
        let tssHit := rules.probeTss svc.dpdk (b.keyAt i)
        if tssHit ≠ kNoTssHit then
          probeMisses svc rules b rest (spiMatches.set i (rules.resultForCategory tssHit))
        else
          let r := probeMisses svc rules b rest spiMatches
          ((i, b.metadataAt i) :: r.1, r.2)
  | _ :: rest, spiMatches => probeMisses svc rules b rest spiMatches

/-- Store results at the indices they belong to. -/
def storeResults (spiMatches : List ClassificationResult)
    (results : List (Nat × ClassificationResult)) : List ClassificationResult :=
  results.foldl (fun spiMatches r ↦ spiMatches.set r.1 r.2) spiMatches

/-- Phases 1 to 2 of `FinalizePackets`: the SPI results of the parsed packets.  What the
FIB does not decide and the member set does not exclude goes to the ACL in bulk. -/
def spiResults (svc : Services μ σ) (rules : RuleTable) (b : ParsedBurst)
    (slots : List (PacketSlot μ)) : List ClassificationResult :=
  let probed := probeMisses svc rules b slots (List.replicate b.metadata.length {})
  let misses := probed.1
  let fibResults := rules.fibLookupBulk (misses.map Prod.snd) (List.replicate misses.length {})
  let fibHits := (misses.zip fibResults).filter fun m ↦ m.2.matched
  let spiMatches := storeResults probed.2 (fibHits.map fun m ↦ (m.1.1, m.2))
  let realMisses := ((misses.zip fibResults).filter fun m ↦ !m.2.matched).map Prod.fst
  let skipAcl := rules.memberFilterBulk svc.dpdk (realMisses.map Prod.snd)
    (List.replicate realMisses.length false)
  let finalMisses := ((realMisses.zip skipAcl).filter fun m ↦ !m.2).map Prod.fst
  let aclResults := rules.matchBulk svc.dpdk (finalMisses.map Prod.snd)
    (List.replicate finalMisses.length {})
  storeResults spiMatches ((finalMisses.map Prod.fst).zip aclResults)

/-! ## Decisions -/

/-- The branch of phase 3 for a flow-cache miss. -/
def resolveMiss (ctx : WorkerContext) (svc : Services μ σ) (packet : μ)
    (metadata : PacketMetadata) (spiMatch : ClassificationResult) (key : FlowKey)
    (st : BurstState cap μ σ) : PacketClassification × BurstState cap μ σ :=
  match tryDpiClassify ctx svc packet metadata spiMatch key st with
  | (verdict, st) =>
      let unmatched : PacketClassification :=
        { metadata := verdict.metadata, action := verdict.action, parsed := true }
      if verdict.matched then ({ unmatched with matched := true }, st)
      else if spiMatch.matched then
        if verdict.deferSpiCache then
          ({ unmatched with action := spiMatch.action, matched := true },
            st.count fun c ↦ { c with matched := c.matched + 1 })
        else
          match st.insertFlow svc key spiMatch.action with
          | (.kOk, st) =>
              ({ unmatched with action := spiMatch.action, matched := true },
                st.count fun c ↦ { c with matched := c.matched + 1 })
          | (.kFull, st) =>
              let st := st.count fun c ↦ { c with flowTableFull := c.flowTableFull + 1 }
              if ctx.flowOverflowDrop then
                ({ unmatched with action := .kDrop, matched := true },
                  st.count fun c ↦ { c with matched := c.matched + 1 })
              else (unmatched, st.count fun c ↦ { c with unknown := c.unknown + 1 })
      else (unmatched, st.count fun c ↦ { c with unknown := c.unknown + 1 })

/-- The body of the loop of phase 3. -/
def finalizePacket (ctx : WorkerContext) (svc : Services μ σ) (portId : BitVec 16)
    (b : ParsedBurst) (spiMatches : List ClassificationResult) (st : BurstState cap μ σ) :
    PacketSlot μ → BurstState cap μ σ
  | .waiting => st
  | .unmapped packet => st.dropPacket packet
  | .mapped packet i =>
      let bulkResult := b.bulkAt i
      if bulkResult.valid then
        applyForwardDecision ctx svc packet portId
          { metadata := b.metadataAt i, action := bulkResult.action, parsed := true
            matched := true }
          (st.count fun c ↦ { c with flowCacheHits := c.flowCacheHits + 1 })
      else
        let r := resolveMiss ctx svc packet (b.metadataAt i) (spiMatches.getD i {}) (b.keyAt i) st
        applyForwardDecision ctx svc packet portId r.1 r.2

/-- `FinalizePackets`. -/
def finalizePackets (ctx : WorkerContext) (svc : Services μ σ) (portId : BitVec 16)
    (slots : List (PacketSlot μ)) (b : ParsedBurst) (st : BurstState cap μ σ) :
    BurstState cap μ σ :=
  slots.foldl (finalizePacket ctx svc portId b (spiResults svc ctx.rules b slots)) st

/-- `ProcessPortBurst` on the packets `rte_eth_rx_burst` returned. -/
def processPortBurst (ctx : WorkerContext) (svc : Services μ σ) (portId : BitVec 16)
    (received : List μ) (st : BurstState cap μ σ) : BurstState cap μ σ :=
  let st := st.count fun c ↦ { c with received := c.received + received.length }
  if received.isEmpty then st
  else
    match parseReceivedPackets ctx svc received 0 st with
    | ((slots, metadata), st) =>
        let keys := metadata.map makeCanonicalFromMetadata
        let looked := bulkFlowLookup ctx.currentBurstTsc keys.length st.flowTable keys
          (List.replicate keys.length {})
        finalizePackets ctx svc portId slots { metadata, keys, bulkResults := looked.1 }
          { st with flowTable := looked.2 }

/-- The stages of a burst before `FinalizePackets`: the slots of the packets, what is known about
those that parsed, and the state. -/
def openBurst (ctx : WorkerContext) (svc : Services μ σ) (received : List μ)
    (st : BurstState cap μ σ) :
    (List (PacketSlot μ) × ParsedBurst) × BurstState cap μ σ :=
  let parsed := parseReceivedPackets ctx svc received 0
    (st.count fun c ↦ { c with received := c.received + received.length })
  let keys := parsed.1.2.map makeCanonicalFromMetadata
  let looked := bulkFlowLookup ctx.currentBurstTsc keys.length parsed.2.flowTable keys
    (List.replicate keys.length {})
  ((parsed.1.1, { metadata := parsed.1.2, keys, bulkResults := looked.1 }),
    { parsed.2 with flowTable := looked.2 })

/-- A burst is opened and then finalized, also when it is empty. -/
theorem processPortBurst_eq (ctx : WorkerContext) (svc : Services μ σ) (portId : BitVec 16)
    (received : List μ) (st : BurstState cap μ σ) :
    processPortBurst ctx svc portId received st =
      finalizePackets ctx svc portId (openBurst ctx svc received st).1.1
        (openBurst ctx svc received st).1.2 (openBurst ctx svc received st).2 := by
  unfold processPortBurst
  cases received with
  | nil => rfl
  | cons packet received => rfl

end DpdkSpi
