import DpdkSpi.Pipeline.Burst

/-!
# What the stages do to counters and packets

One statement for each function of the pipeline about the counters that say what became of
packets, the staging buffers and the packets that were freed.  Classification only counts; the
decision that follows it drops the packet or stages it for one port.
-/

namespace DpdkSpi

variable {cap : Nat} {μ σ : Type}

/-! ## Parsing -/

/-- Parsing counts and changes the world behind the pipeline; a burst has a slot for each of its
packets. -/
theorem parseReceivedPackets_frame (ctx : WorkerContext) (svc : Services μ σ) (packets : List μ)
    (nParsed : Nat) (st : BurstState cap μ σ) :
    (parseReceivedPackets ctx svc packets nParsed st).1.1.length = packets.length ∧
      ∃ counters world, (parseReceivedPackets ctx svc packets nParsed st).2 =
        { st with counters, world } := by
  induction packets generalizing nParsed st with
  | nil => exact ⟨rfl, st.counters, st.world, rfl⟩
  | cons packet rest ih =>
      unfold parseReceivedPackets
      rcases svc.parsePacketOwned packet ctx.currentBurstTsc st.world with
        ⟨⟨metadata, packet', wasReassembled⟩ | _ | packet', world⟩
      · obtain ⟨hlength, counters, world', hst⟩ := ih (nParsed + 1)
          ({ st with world }.count fun c ↦ { c with parsed := c.parsed + 1 })
        exact ⟨congrArg (· + 1) hlength, counters, world', hst⟩
      · obtain ⟨hlength, counters, world', hst⟩ := ih nParsed { st with world }
        exact ⟨congrArg (· + 1) hlength, counters, world', hst⟩
      · obtain ⟨hlength, counters, world', hst⟩ := ih nParsed
          ({ st with world }.count fun c ↦ { c with malformed := c.malformed + 1 })
        exact ⟨congrArg (· + 1) hlength, counters, world', hst⟩

/-- What no single packet changes in the world, parsing a burst does not change. -/
theorem parseReceivedPackets_keeps {τ : Type} (part : σ → τ) {svc : Services μ σ}
    (hpart : ∀ packet tsc w, part (svc.parsePacketOwned packet tsc w).2 = part w)
    (ctx : WorkerContext) (packets : List μ) (nParsed : Nat) (st : BurstState cap μ σ) :
    part (parseReceivedPackets ctx svc packets nParsed st).2.world = part st.world := by
  induction packets generalizing nParsed st with
  | nil => rfl
  | cons packet rest ih =>
      have hone := hpart packet ctx.currentBurstTsc st.world
      unfold parseReceivedPackets
      rcases hparse : svc.parsePacketOwned packet ctx.currentBurstTsc st.world with
        ⟨⟨metadata, packet', wasReassembled⟩ | _ | packet', world⟩
      all_goals
        rw [hparse] at hone
        exact (ih _ _).trans hone

/-- Opening a burst stages and frees nothing. -/
theorem openBurst_frame (ctx : WorkerContext) (svc : Services μ σ) (received : List μ)
    (st : BurstState cap μ σ) :
    (openBurst ctx svc received st).1.1.length = received.length ∧
      (openBurst ctx svc received st).2.transmitBuffers = st.transmitBuffers ∧
      (openBurst ctx svc received st).2.freed = st.freed := by
  obtain ⟨hlength, counters, world, hst⟩ := parseReceivedPackets_frame ctx svc received 0
    (st.count fun c ↦ { c with received := c.received + received.length })
  refine ⟨hlength, ?_, ?_⟩ <;> simp only [openBurst, hst] <;> rfl

/-! ## Classification -/

/-- A classification step: packets stay where they are, and so many more of them are counted
as matched and as unknown. -/
structure Classifies (st st' : BurstState cap μ σ) (matched unknown : Nat) : Prop where
  buffers : st'.transmitBuffers = st.transmitBuffers
  freed : st'.freed = st.freed
  received : st'.counters.received = st.counters.received
  transmitted : st'.counters.transmitted = st.counters.transmitted
  parsed : st'.counters.parsed = st.counters.parsed
  malformed : st'.counters.malformed = st.counters.malformed
  dropped : st'.counters.dropped = st.counters.dropped
  droppedByRule : st'.counters.droppedByRule = st.counters.droppedByRule
  flowCacheHits : st'.counters.flowCacheHits = st.counters.flowCacheHits
  matched : st'.counters.matched = st.counters.matched + matched
  unknown : st'.counters.unknown = st.counters.unknown + unknown

namespace Classifies

theorem trans {st st' st'' : BurstState cap μ σ} {m u n v : Nat} (h : Classifies st st' m u)
    (h' : Classifies st' st'' n v) : Classifies st st'' (m + n) (u + v) where
  buffers := h'.buffers.trans h.buffers
  freed := h'.freed.trans h.freed
  received := h'.received.trans h.received
  transmitted := h'.transmitted.trans h.transmitted
  parsed := h'.parsed.trans h.parsed
  malformed := h'.malformed.trans h.malformed
  dropped := h'.dropped.trans h.dropped
  droppedByRule := h'.droppedByRule.trans h.droppedByRule
  flowCacheHits := h'.flowCacheHits.trans h.flowCacheHits
  matched := by rw [h'.matched, h.matched, Nat.add_assoc]
  unknown := by rw [h'.unknown, h.unknown, Nat.add_assoc]

theorem refl (st : BurstState cap μ σ) : Classifies st st 0 0 := by
  constructor <;> rfl

/-- One more matched packet. -/
theorem one_matched {st st' : BurstState cap μ σ} (h : Classifies st st' 0 0) :
    Classifies st (st'.count fun c ↦ { c with matched := c.matched + 1 }) 1 0 := by
  refine h.trans (n := 1) (v := 0) ?_
  constructor <;> rfl

/-- One more unknown packet. -/
theorem one_unknown {st st' : BurstState cap μ σ} (h : Classifies st st' 0 0) :
    Classifies st (st'.count fun c ↦ { c with unknown := c.unknown + 1 }) 0 1 := by
  refine h.trans (n := 0) (v := 1) ?_
  constructor <;> rfl

/-- Failed insertions are counted apart. -/
theorem table_full {st st' : BurstState cap μ σ} (h : Classifies st st' 0 0) :
    Classifies st (st'.count fun c ↦ { c with flowTableFull := c.flowTableFull + 1 }) 0 0 := by
  refine h.trans (n := 0) (v := 0) ?_
  constructor <;> rfl

/-- So are packets whose static link spares them the inspection. -/
theorem one_linked {st st' : BurstState cap μ σ} (h : Classifies st st' 0 0) :
    Classifies st (st'.count fun c ↦
      { c with dpiSkippedByLink := c.dpiSkippedByLink + 1, matched := c.matched + 1 }) 1 0 := by
  refine h.trans (n := 1) (v := 0) ?_
  constructor <;> rfl

end Classifies

/-- An insertion into the flow table counts nothing. -/
theorem insertFlow_classifies {svc : Services μ σ} {key : FlowKey} {action : Action}
    {st st' : BurstState cap μ σ} {result : FlowInsertResult}
    (h : st.insertFlow svc key action = (result, st')) : Classifies st st' 0 0 := by
  obtain rfl : (st.insertFlow svc key action).2 = st' := congrArg Prod.snd h
  constructor <;> rfl

theorem makeMatched_classifies (ctx : WorkerContext) (svc : Services μ σ)
    (metadata : PacketMetadata) (action : Action) (key : FlowKey) (st : BurstState cap μ σ) :
    Classifies st (makeMatched ctx svc metadata action key st).2
      (makeMatched ctx svc metadata action key st).1.matched.toNat
      (!(makeMatched ctx svc metadata action key st).1.matched).toNat := by
  unfold makeMatched
  rcases hinsert : st.insertFlow svc key action with ⟨_ | _, st'⟩
  · exact (insertFlow_classifies hinsert).one_matched
  · dsimp only
    split
    · exact (insertFlow_classifies hinsert).table_full.one_matched
    · exact (insertFlow_classifies hinsert).table_full.one_unknown

theorem matchDpi_classifies {svc : Services μ σ} {metadata : PacketMetadata}
    {st st' : BurstState cap μ σ} {result : Option DpiMatch}
    (h : matchDpi svc metadata st = (result, st')) : Classifies st st' 0 0 := by
  unfold matchDpi at h
  split at h
  · cases h
    exact .refl st
  · dsimp only at h
    cases h
    constructor <;> (try rfl) <;> simp only [BurstState.count] <;> split <;> rfl

theorem classifyHostname_classifies (ctx : WorkerContext) (svc : Services μ σ)
    (metadata : PacketMetadata) (spiMatch : ClassificationResult) (key : FlowKey)
    (st : BurstState cap μ σ) :
    Classifies st (classifyHostname ctx svc metadata spiMatch key st).2
      (classifyHostname ctx svc metadata spiMatch key st).1.matched.toNat 0 := by
  unfold classifyHostname
  rcases hdpi : matchDpi svc metadata st with ⟨_ | _, st₁⟩
  · exact matchDpi_classifies hdpi
  · dsimp only
    rcases hinsert : st₁.insertFlow svc key
      (if spiMatch.matched then spiMatch.action else .kForward) with ⟨_ | _, st₂⟩
    · exact ((matchDpi_classifies hdpi).trans (insertFlow_classifies hinsert)).one_matched
    · dsimp only
      have hfull := ((matchDpi_classifies hdpi).trans (insertFlow_classifies hinsert)).table_full
      split
      · exact hfull.one_matched
      · exact hfull

/-- Whether the search for a hostname has already decided the packet. -/
def decidedBySearch : DpiVerdict ⊕ PacketMetadata → Bool
  | .inl verdict => verdict.matched
  | .inr _ => false

theorem findHostname_classifies (ctx : WorkerContext) (svc : Services μ σ) (packet : μ)
    (metadata : PacketMetadata) (st : BurstState cap μ σ) :
    Classifies st (findHostname ctx svc packet metadata st).2
      (decidedBySearch (findHostname ctx svc packet metadata st).1).toNat 0 := by
  have hworld : ∀ world, Classifies st { st with world } 0 0 := by
    intro world
    constructor <;> rfl
  unfold findHostname
  split
  · exact .refl st
  · rename_i insert _
    dsimp only
    split
    · exact .refl st
    · rename_i payload _
      generalize insert metadata payload ctx.currentBurstTsc st.world = stream
      cases stream.1.status with
      | kConflictingOverlap => exact (hworld stream.2).one_matched
      | kResourceLimit => exact (hworld stream.2).one_matched
      | kWaiting =>
          dsimp only
          generalize setHostname metadata _ = found
          split <;> exact hworld stream.2
      | kReady =>
          dsimp only
          generalize setHostname metadata _ = found
          split <;> exact hworld stream.2
      | kDisabled => exact hworld stream.2

/-- `TryDpiClassify` counts a packet it decides as matched, and leaves the others to its
caller. -/
theorem tryDpiClassify_classifies (ctx : WorkerContext) (svc : Services μ σ) (packet : μ)
    (metadata : PacketMetadata) (spiMatch : ClassificationResult) (key : FlowKey)
    (st : BurstState cap μ σ) :
    Classifies st (tryDpiClassify ctx svc packet metadata spiMatch key st).2
      (tryDpiClassify ctx svc packet metadata spiMatch key st).1.matched.toNat 0 := by
  rw [tryDpiClassify]
  cases dpiRoute ctx metadata spiMatch with
  | disabled => exact .refl st
  | skipped => constructor <;> rfl
  | linked =>
      unfold DpiRoute.run
      rcases hinsert : st.insertFlow svc key spiMatch.action with ⟨_ | _, st'⟩
      · exact (insertFlow_classifies hinsert).one_linked
      · dsimp only
        split
        · exact (insertFlow_classifies hinsert).table_full.one_matched
        · exact (insertFlow_classifies hinsert).table_full
  | inspected =>
      unfold DpiRoute.run
      have hfind := findHostname_classifies ctx svc packet metadata st
      rcases hresult : findHostname ctx svc packet metadata st with ⟨verdict | metadata', st'⟩
      · rw [hresult] at hfind
        exact hfind
      · rw [hresult] at hfind
        have hhost := hfind.trans (classifyHostname_classifies ctx svc metadata' spiMatch key st')
        rwa [decidedBySearch, Bool.toNat_false, Nat.zero_add] at hhost

/-- Behind a cache miss, the queue path counts a packet as matched or as unknown. -/
theorem resolveMiss_classifies (ctx : WorkerContext) (svc : Services μ σ) (packet : μ)
    (metadata : PacketMetadata) (spiMatch : ClassificationResult) (key : FlowKey)
    (st : BurstState cap μ σ) :
    Classifies st (resolveMiss ctx svc packet metadata spiMatch key st).2
      (resolveMiss ctx svc packet metadata spiMatch key st).1.matched.toNat
      (!(resolveMiss ctx svc packet metadata spiMatch key st).1.matched).toNat := by
  have hdpi := tryDpiClassify_classifies ctx svc packet metadata spiMatch key st
  unfold resolveMiss
  rcases hverdict : tryDpiClassify ctx svc packet metadata spiMatch key st with ⟨verdict, st₁⟩
  rw [hverdict] at hdpi
  dsimp only at hdpi ⊢
  cases hmatched : verdict.matched with
  | true =>
      rw [hmatched] at hdpi
      exact hdpi
  | false =>
      rw [hmatched] at hdpi
      simp only [Bool.false_eq_true, if_false]
      split
      · split
        · exact hdpi.one_matched
        · rcases hinsert : st₁.insertFlow svc key spiMatch.action with ⟨_ | _, st₂⟩
          · exact (hdpi.trans (insertFlow_classifies hinsert)).one_matched
          · dsimp only
            have hfull := (hdpi.trans (insertFlow_classifies hinsert)).table_full
            split
            · exact hfull.one_matched
            · exact hfull.one_unknown
      · exact hdpi.one_unknown

/-- So does the flow-hash path. -/
theorem classifyMiss_classifies (ctx : WorkerContext) (svc : Services μ σ) (packet : μ)
    (metadata : PacketMetadata) (spiMatch : ClassificationResult) (key : FlowKey)
    (st : BurstState cap μ σ) :
    Classifies st (classifyMiss ctx svc packet metadata spiMatch key st).2
      (classifyMiss ctx svc packet metadata spiMatch key st).1.matched.toNat
      (!(classifyMiss ctx svc packet metadata spiMatch key st).1.matched).toNat := by
  unfold classifyMiss
  split
  · rcases hinsert : st.insertFlow svc key spiMatch.action with ⟨_ | _, st'⟩
    · exact (insertFlow_classifies hinsert).one_linked
    · dsimp only
      split
      · exact (insertFlow_classifies hinsert).table_full.one_matched
      · exact (insertFlow_classifies hinsert).table_full.one_matched
  split
  · split
    · exact makeMatched_classifies ctx svc metadata spiMatch.action key st
    · exact (Classifies.refl st).one_unknown
  · have hdpi := tryDpiClassify_classifies ctx svc packet metadata spiMatch key st
    rcases hverdict : tryDpiClassify ctx svc packet metadata spiMatch key st with ⟨verdict, st₁⟩
    rw [hverdict] at hdpi
    dsimp only at hdpi ⊢
    cases hmatched : verdict.matched with
    | true =>
        rw [hmatched] at hdpi
        exact hdpi
    | false =>
        rw [hmatched] at hdpi
        simp only [Bool.false_eq_true, if_false]
        split
        · split
          · exact hdpi.one_matched
          · have hmade := hdpi.trans (makeMatched_classifies ctx svc verdict.metadata
              spiMatch.action key st₁)
            rwa [Bool.toNat_false, Nat.zero_add, Nat.zero_add] at hmade
        · exact hdpi.one_unknown

/-- A packet is decided: it is counted as a cache hit, as matched or as unknown, and nothing else
happens to it. -/
structure Decides (st st' : BurstState cap μ σ) (matched : Bool) : Prop where
  buffers : st'.transmitBuffers = st.transmitBuffers
  freed : st'.freed = st.freed
  received : st'.counters.received = st.counters.received
  transmitted : st'.counters.transmitted = st.counters.transmitted
  parsed : st'.counters.parsed = st.counters.parsed
  malformed : st'.counters.malformed = st.counters.malformed
  dropped : st'.counters.dropped = st.counters.dropped
  droppedByRule : st'.counters.droppedByRule = st.counters.droppedByRule
  known : st'.counters.matched + st'.counters.flowCacheHits =
    st.counters.matched + st.counters.flowCacheHits + matched.toNat
  unknown : st'.counters.unknown = st.counters.unknown + (!matched).toNat

theorem Classifies.decides {st st' : BurstState cap μ σ} {matched : Bool}
    (h : Classifies st st' matched.toNat (!matched).toNat) : Decides st st' matched where
  buffers := h.buffers
  freed := h.freed
  received := h.received
  transmitted := h.transmitted
  parsed := h.parsed
  malformed := h.malformed
  dropped := h.dropped
  droppedByRule := h.droppedByRule
  known := by rw [h.matched, h.flowCacheHits, Nat.add_right_comm]
  unknown := h.unknown

/-- A cache hit decides its packet. -/
theorem decides_hit (st : BurstState cap μ σ) :
    Decides st (st.count fun c ↦ { c with flowCacheHits := c.flowCacheHits + 1 }) true := by
  constructor <;> rfl

/-! ## The decision -/

/-- What `ApplyForwardDecision` can do with a packet. -/
inductive Disposes (ctx : WorkerContext) (svc : Services μ σ) (packet : μ)
    (receivePort : BitVec 16) (classification : PacketClassification)
    (st st' : BurstState cap μ σ) : Prop
  /-- The verdict is to drop it. -/
  | byRule (hmatched : classification.matched = true) (hst : st' =
      (st.count fun c ↦ { c with droppedByRule := c.droppedByRule + 1 }).dropPacket packet)
  /-- It is unmatched, or there is no port for it. -/
  | dropped (hst : st' = st.dropPacket packet)
  /-- Its headers cannot be rewritten for the port. -/
  | stuck (transmitPort : BitVec 16) (hst : st' =
      st.dropPacket (prepareAndRewriteHeaders ctx svc transmitPort packet).2)
  | enqueued (transmitPort : BitVec 16)
      (hport : resolveTransmitPort ctx classification receivePort = some transmitPort)
      (hlt : transmitPort.toNat < ctx.portCount)
      (hrewrite : (prepareAndRewriteHeaders ctx svc transmitPort packet).1 = true)
      (hst : st' = st.enqueuePacket
        (prepareAndRewriteHeaders ctx svc transmitPort packet).2 transmitPort)

theorem applyForwardDecision_disposes (ctx : WorkerContext) (svc : Services μ σ) (packet : μ)
    (receivePort : BitVec 16) (classification : PacketClassification)
    (st : BurstState cap μ σ) :
    Disposes ctx svc packet receivePort classification st
      (applyForwardDecision ctx svc packet receivePort classification st) := by
  unfold applyForwardDecision
  split
  · rename_i hdrop
    exact .byRule hdrop.1 rfl
  split
  · exact .dropped rfl
  cases hport : resolveTransmitPort ctx classification receivePort with
  | none => exact .dropped rfl
  | some transmitPort =>
      dsimp only
      split
      · exact .dropped rfl
      · rename_i hlt
        rcases hrewrite : prepareAndRewriteHeaders ctx svc transmitPort packet with ⟨_ | _, packet'⟩
        · refine .stuck transmitPort ?_
          rw [hrewrite]
        · refine .enqueued transmitPort hport (Nat.not_le.mp hlt) ?_ ?_
          · rw [hrewrite]
          · rw [hrewrite]

/-- Whatever happens to the packet, the flow table and the world stay as they are. -/
theorem applyForwardDecision_frame (ctx : WorkerContext) (svc : Services μ σ) (packet : μ)
    (receivePort : BitVec 16) (classification : PacketClassification) (st : BurstState cap μ σ) :
    (applyForwardDecision ctx svc packet receivePort classification st).flowTable =
        st.flowTable ∧
      (applyForwardDecision ctx svc packet receivePort classification st).world = st.world := by
  cases applyForwardDecision_disposes ctx svc packet receivePort classification st with
  | byRule hmatched hst => rw [hst]; exact ⟨rfl, rfl⟩
  | dropped hst => rw [hst]; exact ⟨rfl, rfl⟩
  | stuck transmitPort hst => rw [hst]; exact ⟨rfl, rfl⟩
  | enqueued transmitPort hport hlt hrewrite hst => rw [hst]; exact ⟨rfl, rfl⟩

/-- Of the counters, at most `dropped` and, for a matched packet, `dropped_by_rule` go up. -/
theorem Disposes.counters_eq {ctx : WorkerContext} {svc : Services μ σ} {packet : μ}
    {receivePort : BitVec 16} {classification : PacketClassification} {st st' : BurstState cap μ σ}
    (h : Disposes ctx svc packet receivePort classification st st') :
    ∃ byRule dropped, byRule ≤ classification.matched.toNat ∧
      st'.counters = { st.counters with
        droppedByRule := st.counters.droppedByRule + byRule
        dropped := st.counters.dropped + dropped } := by
  cases h with
  | byRule hmatched hst =>
      refine ⟨1, 1, ?_, by rw [hst]; rfl⟩
      rw [hmatched]
      exact le_rfl
  | dropped hst => exact ⟨0, 1, Nat.zero_le _, by rw [hst]; rfl⟩
  | stuck transmitPort hst => exact ⟨0, 1, Nat.zero_le _, by rw [hst]; rfl⟩
  | enqueued transmitPort hport hlt hrewrite hst => exact ⟨0, 0, Nat.zero_le _, by rw [hst]; rfl⟩

/-! ## One packet -/

/-- What phase 3 of a burst can do with one of its packets. -/
inductive Finalizes (ctx : WorkerContext) (svc : Services μ σ) (portId : BitVec 16)
    (st st' : BurstState cap μ σ) : PacketSlot μ → Prop
  | waiting (hst : st' = st) : Finalizes ctx svc portId st st' .waiting
  | unmapped {packet : μ} (hst : st' = st.dropPacket packet) :
      Finalizes ctx svc portId st st' (.unmapped packet)
  | mapped {packet : μ} {i : Nat} (mid : BurstState cap μ σ)
      (classification : PacketClassification) (hdecides : Decides st mid classification.matched)
      (hdisposes : Disposes ctx svc packet portId classification mid st') :
      Finalizes ctx svc portId st st' (.mapped packet i)

theorem finalizePacket_finalizes (ctx : WorkerContext) (svc : Services μ σ) (portId : BitVec 16)
    (b : ParsedBurst) (spiMatches : List ClassificationResult) (st : BurstState cap μ σ)
    (slot : PacketSlot μ) :
    Finalizes ctx svc portId st (finalizePacket ctx svc portId b spiMatches st slot) slot := by
  cases slot with
  | waiting => exact .waiting rfl
  | unmapped packet => exact .unmapped rfl
  | mapped packet i =>
      unfold finalizePacket
      dsimp only
      split
      · exact .mapped _ _ (decides_hit st) (applyForwardDecision_disposes ctx svc packet portId _ _)
      · exact .mapped _ _ (resolveMiss_classifies ctx svc packet _ _ _ st).decides
          (applyForwardDecision_disposes ctx svc packet portId _ _)

/-- What `ForwardPacket` can do with a packet. -/
inductive Forwards (ctx : WorkerContext) (svc : Services μ σ) (receivePort : BitVec 16)
    (st st' : BurstState cap μ σ) (packet : μ) : Prop
  /-- The fragment table keeps it. -/
  | waiting (world : σ)
      (hparse : svc.parsePacketOwned packet ctx.currentBurstTsc st.world =
        (.waitingForFragments, world))
      (hst : st' = { st with world })
  /-- It does not parse. -/
  | malformed (packet' : μ) (world : σ)
      (hparse : svc.parsePacketOwned packet ctx.currentBurstTsc st.world =
        (.malformed packet', world))
      (hdisposes : Disposes ctx svc packet' receivePort {}
        ({ st with world }.count fun c ↦ { c with malformed := c.malformed + 1 }) st')
  /-- It is another worker's; the ring of that worker may be full. -/
  | redispatched (metadata : PacketMetadata) (packet' : μ) (wasReassembled : Bool)
      (world world' : σ)
      (hparse : svc.parsePacketOwned packet ctx.currentBurstTsc st.world =
        (.parsed metadata packet' wasReassembled, world))
      (hthere : Redispatched ctx svc packet' receivePort wasReassembled)
      (hst : st' = { st with world := world' } ∨
        st' = { st with world := world' }.dropPacket packet')
  | decided (metadata : PacketMetadata) (packet' : μ) (wasReassembled : Bool) (world : σ)
      (mid : BurstState cap μ σ) (classification : PacketClassification)
      (hparse : svc.parsePacketOwned packet ctx.currentBurstTsc st.world =
        (.parsed metadata packet' wasReassembled, world))
      (hhere : ¬ Redispatched ctx svc packet' receivePort wasReassembled)
      (hdecides : Decides ({ st with world }.count fun c ↦ { c with parsed := c.parsed + 1 }) mid
        classification.matched)
      (hdisposes : Disposes ctx svc packet' receivePort classification mid st')

/-- The decision on a cache miss is one about a parsed packet of this worker. -/
theorem classifyMiss_decides (ctx : WorkerContext) (svc : Services μ σ) (packet : μ)
    (metadata : PacketMetadata) (spiMatch : ClassificationResult) (key : FlowKey)
    (st : BurstState cap μ σ) :
    (classifyMiss ctx svc packet metadata spiMatch key st).1.parsed = true ∧
      (classifyMiss ctx svc packet metadata spiMatch key st).1.redispatch = false := by
  have hmake : ∀ metadata action (st : BurstState cap μ σ),
      (makeMatched ctx svc metadata action key st).1.parsed = true ∧
        (makeMatched ctx svc metadata action key st).1.redispatch = false := by
    intro metadata action st
    unfold makeMatched
    rcases st.insertFlow svc key action with ⟨_ | _, st'⟩
    · exact ⟨rfl, rfl⟩
    · dsimp only
      split <;> exact ⟨rfl, rfl⟩
  unfold classifyMiss
  split
  · rcases st.insertFlow svc key spiMatch.action with ⟨_ | _, st'⟩
    · exact ⟨rfl, rfl⟩
    · dsimp only
      split <;> exact ⟨rfl, rfl⟩
  split
  · split
    · exact hmake _ _ _
    · exact ⟨rfl, rfl⟩
  · rcases tryDpiClassify ctx svc packet metadata spiMatch key st with ⟨verdict, st'⟩
    dsimp only
    split
    · exact ⟨rfl, rfl⟩
    split
    · split
      · exact ⟨rfl, rfl⟩
      · exact hmake _ _ _
    · exact ⟨rfl, rfl⟩

theorem forwardPacket_forwards (ctx : WorkerContext) (svc : Services μ σ) (packet : μ)
    (receivePort : BitVec 16) (st : BurstState cap μ σ) :
    Forwards ctx svc receivePort st (forwardPacket ctx svc packet receivePort st) packet := by
  unfold forwardPacket classifyPacket
  rcases hparse : svc.parsePacketOwned packet ctx.currentBurstTsc st.world with
    ⟨⟨metadata, packet', wasReassembled⟩ | _ | packet', world⟩
  · dsimp only
    by_cases hthere : Redispatched ctx svc packet' receivePort wasReassembled
    · rw [if_pos hthere]
      refine .redispatched metadata packet' wasReassembled world
        (svc.ringEnqueue (targetWorker ctx svc packet' receivePort) packet' world).2 hparse hthere
        ?_
      dsimp only
      rw [if_pos rfl]
      split
      · exact .inl rfl
      · exact .inr rfl
    · rw [if_neg hthere]
      let st₁ := { st with world }.count fun c ↦ { c with parsed := c.parsed + 1 }
      have htable : ∀ (t : FlowTable cap) {st' : BurstState cap μ σ} {matched : Bool},
          Decides { st₁ with flowTable := t } st' matched → Decides st₁ st' matched := by
        intro t st' matched h
        obtain ⟨h₁, h₂, h₃, h₄, h₅, h₆, h₇, h₈, h₉, h₁₀⟩ := h
        exact ⟨h₁, h₂, h₃, h₄, h₅, h₆, h₇, h₈, h₉, h₁₀⟩
      rcases hlookup : st.flowTable.lookup (makeCanonicalFromMetadata metadata)
        ctx.currentBurstTsc with ⟨_ | action, flowTable⟩
      · obtain ⟨-, hmiss⟩ := classifyMiss_decides ctx svc packet' metadata
          (spiLookup svc ctx.rules metadata (makeCanonicalFromMetadata metadata))
          (makeCanonicalFromMetadata metadata) { st₁ with flowTable }
        simp only [BurstState.count_flowTable, hlookup]
        rw [if_neg (by rw [hmiss]; exact Bool.false_ne_true)]
        exact .decided metadata packet' wasReassembled world _ _ hparse hthere
          (htable flowTable (classifyMiss_classifies ctx svc packet' metadata _ _ _).decides)
          (applyForwardDecision_disposes ctx svc packet' receivePort _ _)
      · simp only [BurstState.count_flowTable, hlookup]
        rw [if_neg Bool.false_ne_true]
        exact .decided metadata packet' wasReassembled world _ _ hparse hthere
          (htable flowTable (decides_hit _))
          (applyForwardDecision_disposes ctx svc packet' receivePort _ _)
  · exact .waiting world hparse rfl
  · exact .malformed packet' world hparse (applyForwardDecision_disposes ctx svc packet' _ _ _)

end DpdkSpi
