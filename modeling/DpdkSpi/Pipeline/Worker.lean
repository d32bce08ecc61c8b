import DpdkSpi.Pipeline.Burst

/-!
# The loops of the workers and of the dispatcher

One iteration of a worker in queue mode and in flow-hash mode, one iteration of the dispatcher,
and the way from the counters of a burst to the shared ones, after `spi_pipeline.cpp`.  What
comes from outside in an iteration (the clock, the received packets, how many packets a transmit
queue accepts) is its input.
-/

namespace DpdkSpi

variable {cap : Nat} {μ σ : Type}

/-! ## Adding counters up -/

/-- `AddBurstCounters`, on the accumulator of a worker. -/
def addBurstCounters (accumulator burst : BurstCounters) : BurstCounters where
  received := accumulator.received + burst.received
  transmitted := accumulator.transmitted + burst.transmitted
  parsed := accumulator.parsed + burst.parsed
  matched := accumulator.matched + burst.matched
  unknown := accumulator.unknown + burst.unknown
  malformed := accumulator.malformed + burst.malformed
  dropped := accumulator.dropped + burst.dropped
  droppedByRule := accumulator.droppedByRule + burst.droppedByRule
  flowCacheHits := accumulator.flowCacheHits + burst.flowCacheHits
  dpiCacheHits := accumulator.dpiCacheHits + burst.dpiCacheHits
  dpiCacheMisses := accumulator.dpiCacheMisses + burst.dpiCacheMisses
  dpiSkippedBySpi := accumulator.dpiSkippedBySpi + burst.dpiSkippedBySpi
  dpiSkippedByLink := accumulator.dpiSkippedByLink + burst.dpiSkippedByLink
  flowTableFull := accumulator.flowTableFull + burst.flowTableFull
  pressureEvictions := accumulator.pressureEvictions + burst.pressureEvictions
  flowTableResizes := accumulator.flowTableResizes + burst.flowTableResizes

/-- `AddBurstStats`. -/
def addBurstStats (stats burst : BurstCounters) : BurstCounters := addBurstCounters stats burst

/-- `FlushAtomicCounters`, and `AddBurstCounters` on the shared counters. -/
def flushAtomicCounters (counters pending : BurstCounters) : BurstCounters :=
  addBurstCounters counters pending

/-- `AddDispatchedWorkerCounters`: the dispatcher has counted what was received. -/
def addDispatchedWorkerCounters (counters burst : BurstCounters) : BurstCounters where
  received := counters.received
  transmitted := counters.transmitted + burst.transmitted
  parsed := counters.parsed + burst.parsed
  matched := counters.matched + burst.matched
  unknown := counters.unknown + burst.unknown
  malformed := counters.malformed + burst.malformed
  dropped := counters.dropped + burst.dropped
  droppedByRule := counters.droppedByRule + burst.droppedByRule
  flowCacheHits := counters.flowCacheHits + burst.flowCacheHits
  dpiCacheHits := counters.dpiCacheHits + burst.dpiCacheHits
  dpiCacheMisses := counters.dpiCacheMisses + burst.dpiCacheMisses
  dpiSkippedBySpi := counters.dpiSkippedBySpi + burst.dpiSkippedBySpi
  dpiSkippedByLink := counters.dpiSkippedByLink + burst.dpiSkippedByLink
  flowTableFull := counters.flowTableFull + burst.flowTableFull
  pressureEvictions := counters.pressureEvictions + burst.pressureEvictions
  flowTableResizes := counters.flowTableResizes + burst.flowTableResizes

/-! ## Cleaning up -/

/-- What `CleanupExpiredFragments` works on. -/
structure FragmentCleanup (σ : Type) where
  /-- `ip_frag_tbl` is there. -/
  ipFragTbl : Bool := true
  fragmentCleanupIntervalCycles : BitVec 64 := 0
  /-- `rte_ip_frag_table_del_expired_entries` and `rte_ip_frag_free_death_row`. -/
  delExpiredEntries : BitVec 64 → σ → σ
  /-- `tcp_reassembler->PurgeExpired`; `none` when reassembly is disabled. -/
  purgeExpiredStreams : Option (BitVec 64 → σ → σ) := none

/-- `CleanupExpiredFragments`: the world, and `last_fragment_cleanup_tsc` after it. -/
def cleanupExpiredFragments (cleanup : FragmentCleanup σ) (currentBurstTsc lastCleanup : BitVec 64)
    (world : σ) : BitVec 64 × σ :=
  if !cleanup.ipFragTbl ∨ currentBurstTsc = 0 ∨
      currentBurstTsc - lastCleanup < cleanup.fragmentCleanupIntervalCycles then
    (lastCleanup, world)
  else
    let world := cleanup.delExpiredEntries currentBurstTsc world
    match cleanup.purgeExpiredStreams with
    | none => (currentBurstTsc, world)
    | some purge => (currentBurstTsc, purge currentBurstTsc world)

/-! ## Transmission -/

/-- One port of `FlushTransmitBuffers`, with the packets accepted for transmission so far.
`accepted` is how many packets `rte_eth_tx_burst` would take. -/
def flushPort (accepted : BitVec 16 → Nat) (r : List μ × BurstState cap μ σ) (portId : BitVec 16) :
    List μ × BurstState cap μ σ :=
  let buffer := r.2.transmitBuffers portId
  if buffer.length = 0 then r
  else
    let sent := min (accepted portId) buffer.length
    let st := r.2.count fun c ↦
      { c with transmitted := c.transmitted + sent, dropped := c.dropped + (buffer.length - sent) }
    (r.1 ++ buffer.take sent,
      { st with
        freed := st.freed ++ buffer.drop sent
        transmitBuffers := Function.update st.transmitBuffers portId [] })

/-- `FlushTransmitBuffers`: the packets that were accepted, and the state after it. -/
def flushTransmitBuffers (ctx : WorkerContext) (accepted : BitVec 16 → Nat)
    (st : BurstState cap μ σ) : List μ × BurstState cap μ σ :=
  ctx.activePorts.foldl (flushPort accepted) ([], st)

/-! ## One iteration -/

/-- What `rte_rdtsc` and `rte_eth_rx_burst` return for a port. -/
structure Poll (μ : Type) where
  tsc : BitVec 64 := 0
  received : List μ := []

/-- The loop over the ports in `ProcessWorkerIteration`. -/
def processPorts (ctx : WorkerContext) (svc : Services μ σ) (polls : BitVec 16 → Poll μ)
    (ports : List (BitVec 16)) (st : BurstState cap μ σ) : BurstState cap μ σ :=
  ports.foldl (fun st portId ↦ processPortBurst { ctx with currentBurstTsc := (polls portId).tsc }
    svc portId (polls portId).received st) st

/-- What `CleanupExpiredFragments` does to the state of a burst. -/
def cleanupState (cleanup : FragmentCleanup σ) (currentBurstTsc lastCleanup : BitVec 64)
    (st : BurstState cap μ σ) : BurstState cap μ σ :=
  { st with world := (cleanupExpiredFragments cleanup currentBurstTsc lastCleanup st.world).2 }

/-- The inputs of one iteration in queue mode.  Flow table and world are what the worker finds,
which other lcores may have changed since its last iteration. -/
structure QueueIteration (cap : Nat) (μ σ : Type) where
  ctx : WorkerContext
  svc : Services μ σ
  cleanup : FragmentCleanup σ
  lastCleanup : BitVec 64 := 0
  polls : BitVec 16 → Poll μ
  accepted : BitVec 16 → Nat
  flowTable : FlowTable cap
  world : σ

namespace QueueIteration

/-- The state at the beginning: no packet counted, no packet staged. -/
def start (i : QueueIteration cap μ σ) : BurstState cap μ σ :=
  { flowTable := i.flowTable, world := i.world }

/-- `current_burst_tsc` behind the loop over the ports. -/
def lastTsc (i : QueueIteration cap μ σ) : BitVec 64 :=
  (i.ctx.activePorts.getLast?.map fun portId ↦ (i.polls portId).tsc).getD i.ctx.currentBurstTsc

/-- The state in front of `FlushTransmitBuffers`. -/
def staged (i : QueueIteration cap μ σ) : BurstState cap μ σ :=
  cleanupState i.cleanup i.lastTsc i.lastCleanup
    (processPorts i.ctx i.svc i.polls i.ctx.activePorts i.start)

/-- `ProcessWorkerIteration` up to the counters: the packets accepted for transmission, and the
state of the burst. -/
def run (i : QueueIteration cap μ σ) : List μ × BurstState cap μ σ :=
  flushTransmitBuffers i.ctx i.accepted i.staged

/-- `burst_counters` at the end of `ProcessWorkerIteration`. -/
def counters (i : QueueIteration cap μ σ) : BurstCounters := i.run.2.counters

end QueueIteration

/-- The inputs of one iteration in flow-hash mode: packets from the worker's ring, each with the
port it was received on. -/
structure DispatchedIteration (cap : Nat) (μ σ : Type) where
  ctx : WorkerContext
  svc : Services μ σ
  cleanup : FragmentCleanup σ
  lastCleanup : BitVec 64 := 0
  dequeued : List (BitVec 16 × μ)
  accepted : BitVec 16 → Nat
  flowTable : FlowTable cap
  world : σ

namespace DispatchedIteration

/-- The state at the beginning: the packets of the ring are counted as received. -/
def start (i : DispatchedIteration cap μ σ) : BurstState cap μ σ :=
  { flowTable := i.flowTable, world := i.world, counters := { received := i.dequeued.length } }

/-- The state in front of `FlushTransmitBuffers`. -/
def staged (i : DispatchedIteration cap μ σ) : BurstState cap μ σ :=
  cleanupState i.cleanup i.ctx.currentBurstTsc i.lastCleanup
    (i.dequeued.foldl (fun st p ↦ forwardPacket i.ctx i.svc p.2 p.1 st) i.start)

/-- `ProcessDispatchedWorkerIteration` up to the counters. -/
def run (i : DispatchedIteration cap μ σ) : List μ × BurstState cap μ σ :=
  flushTransmitBuffers i.ctx i.accepted i.staged

/-- `burst_counters` at the end of `ProcessDispatchedWorkerIteration`. -/
def counters (i : DispatchedIteration cap μ σ) : BurstCounters := i.run.2.counters

end DispatchedIteration

/-! ## The dispatcher -/

/-- `DispatchPacketToWorker`; `enqueues` tells whether the ring of the packet's worker has room. -/
def dispatchPacketToWorker (enqueues : μ → Bool) (counters : BurstCounters) (packet : μ) :
    BurstCounters :=
  if enqueues packet then counters else { counters with dropped := counters.dropped + 1 }

/-- `DispatchPortQueueBurst`, on the packets of one receive queue. -/
def dispatchPortQueueBurst (enqueues : μ → Bool) (counters : BurstCounters) (received : List μ) :
    BurstCounters :=
  received.foldl (dispatchPacketToWorker enqueues)
    { counters with received := counters.received + received.length }

/-- `burst_counters` of `ProcessDispatchIteration`, on the bursts of all ports and queues. -/
def dispatchIterationCounters (enqueues : μ → Bool) (bursts : List (List μ)) : BurstCounters :=
  bursts.foldl (dispatchPortQueueBurst enqueues) {}

/-! ## From bursts to shared counters -/

/-- `kAtomicFlushBurstInterval`. -/
def kAtomicFlushBurstInterval : Nat := 256

/-- The counters a worker keeps. -/
structure WorkerCounters where
  stats : BurstCounters := {}
  pendingBurst : BurstCounters := {}
  burstsSinceFlush : Nat := 0
deriving DecidableEq, Repr

/-- The end of an iteration: the counters of the worker and the shared ones.  `flush` is
`FlushAtomicCounters` in queue mode and `AddDispatchedWorkerCounters` in flow-hash mode. -/
def endIteration (flush : BurstCounters → BurstCounters → BurstCounters) (burst : BurstCounters)
    (w : WorkerCounters) (shared : BurstCounters) : WorkerCounters × BurstCounters :=
  let stats := addBurstStats w.stats burst
  let pendingBurst := addBurstCounters w.pendingBurst burst
  if kAtomicFlushBurstInterval ≤ w.burstsSinceFlush + 1 then
    ({ stats }, flush shared pendingBurst)
  else ({ stats, pendingBurst, burstsSinceFlush := w.burstsSinceFlush + 1 }, shared)

/-- The end of `WorkerLoop` and of `DispatchWorkerLoop`. -/
def exitLoop (flush : BurstCounters → BurstCounters → BurstCounters) (w : WorkerCounters)
    (shared : BurstCounters) : WorkerCounters × BurstCounters :=
  ({ w with pendingBurst := {} }, flush shared w.pendingBurst)

end DpdkSpi
