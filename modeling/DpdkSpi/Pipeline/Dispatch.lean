import DpdkSpi.Pipeline.Affinity
import DpdkSpi.Pipeline.Flush

/-!
# The main core and the workers of flow-hash mode

`RunFlowHashDispatch` and the `DispatchWorkerLoop`s it starts, after `spi_pipeline.cpp`: the main
core takes bursts from the ports and puts the packets into the rings of the workers, a worker takes
bursts from its ring, may put a packet that it has reassembled into the ring of another worker, and
sends the others.  Every packet is a step of its own, and the steps of the cores come in any order.

An mbuf that was received is in one place until it is sent or freed, unless it is staged for an
inactive port (`flowHash_mbufs_conserved`), packets leave a ring in the order in which they were put
into it, and no staging buffer gets more than one burst (`flowHash_keeps_order`).  When the mode
ends, what is still in a ring is neither sent nor freed, and every number of packets that fits into
a ring can be left there (`flowHash_shutdown_loses`).
-/

namespace DpdkSpi

open Lib

variable {cap : Nat} {φ ρ : Type}

/-! ## Rings -/

/-- The rings of the workers; an entry is a packet with its `port`. -/
abbrev DispatchRings := Nat → List (BitVec 16 × Mbuf)

/-- How many packets fit into a ring made for `count`. -/
def rteRingCapacity (count : Nat) : Nat := count - 1

/-- `rte_ring_enqueue`, which a full ring refuses. -/
def rteRingEnqueue (count worker : Nat) (entry : BitVec 16 × Mbuf) (rings : DispatchRings) :
    Bool × DispatchRings :=
  if (rings worker).length < rteRingCapacity count then
    (true, Function.update rings worker (rings worker ++ [entry]))
  else (false, rings)

/-- `rte_ring_sc_dequeue_burst`. -/
def rteRingScDequeueBurst (worker n : Nat) (rings : DispatchRings) :
    List (BitVec 16 × Mbuf) × DispatchRings :=
  ((rings worker).take n, Function.update rings worker ((rings worker).drop n))

/-- The services of a worker beside the rings, for a packet with this `port`. -/
def ringServices (count : Nat) (receivePort : BitVec 16) (svc : Services Mbuf ρ) :
    Services Mbuf (DispatchRings × ρ) :=
  { svc.withFragments fun packet _ rings ↦ (.malformed packet, rings) with
    ringEnqueue := fun worker packet w ↦
      let sent := rteRingEnqueue count worker (receivePort, packet) w.1
      (sent.1, sent.2, w.2) }

/-! ## The system -/

/-- `rte_ip_frag`, with what a worker does to its table beside parsing. -/
structure FragTables (φ : Type) extends FragLibrary φ where
  /-- `rte_ip_frag_table_create`. -/
  create : φ
  /-- `rte_ip_frag_table_del_expired_entries` and `rte_ip_frag_free_death_row`. -/
  delExpiredEntries : BitVec 64 → φ → φ

/-- What flow-hash mode is started with. -/
structure FlowHashMode (φ ρ : Type) where
  env : Environment
  /-- `worker_contexts_.size()`. -/
  workerCount : Nat
  workers_pos : 0 < workerCount
  burstSize : Nat
  dispatchQueueSize : Nat
  l3Forwarding : Bool
  fragmentCleanupIntervalCycles : BitVec 64
  fragmentTimeoutCycles : BitVec 64
  ck : Cksums
  tables : FragTables φ
  svc : Services Mbuf ρ

/-- Where a worker is in `DispatchWorkerLoop`. -/
inductive DispatchPc where
  /-- In front of the condition of the loop. -/
  | check
  /-- In front of `rte_ring_sc_dequeue_burst`. -/
  | receive
  /-- In the loop over the packets of a burst. -/
  | packets (todo : List (BitVec 16 × Mbuf))
  | stopped
deriving DecidableEq, Repr

/-- The packets of the burst that are still to be forwarded. -/
def DispatchPc.todo : DispatchPc → List (BitVec 16 × Mbuf)
  | .packets todo => todo
  | _ => []

@[simp] theorem DispatchPc.todo_packets (todo : List (BitVec 16 × Mbuf)) :
    (DispatchPc.packets todo).todo = todo := rfl

@[simp] theorem DispatchPc.todo_check : DispatchPc.check.todo = [] := rfl

@[simp] theorem DispatchPc.todo_receive : DispatchPc.receive.todo = [] := rfl

@[simp] theorem DispatchPc.todo_stopped : DispatchPc.stopped.todo = [] := rfl

/-- A worker. -/
structure DispatchWorker (φ : Type) where
  pc : DispatchPc := .check
  currentBurstTsc : BitVec 64 := 0
  lastFragmentCleanupTsc : BitVec 64 := 0
  /-- `ip_frag_tbl`. -/
  fragments : φ
  transmitBuffers : BitVec 16 → List Mbuf := fun _ ↦ []

/-- Where the main core is. -/
inductive DispatchMain where
  /-- In the loop. -/
  | dispatch
  /-- In `StopWorkers`, with `worker_force_quit_` set. -/
  | stopWorkers
  /-- Behind `StopWorkers`. -/
  | stopped
  /-- Behind `DestroyDispatchRings`. -/
  | destroyed
deriving DecidableEq, Repr

/-- The cores and the rings, and what was done so far. -/
structure DispatchState (φ : Type) where
  rings : DispatchRings := fun _ ↦ []
  workers : Nat → DispatchWorker φ
  main : DispatchMain := .dispatch
  /-- The burst that the main core works on. -/
  dispatching : List (BitVec 16 × Mbuf) := []
  received : List Mbuf := []
  sent : List Mbuf := []
  freed : List Mbuf := []
  /-- What was staged when the counts of the staging buffers were set to zero, with the ports. -/
  overwritten : List (BitVec 16 × Mbuf) := []
  /-- What the main core has put into each ring. -/
  dispatched : DispatchRings := fun _ ↦ []
  /-- What was put into each ring. -/
  enqueued : DispatchRings := fun _ ↦ []
  /-- What each worker has given to `ForwardPacket`. -/
  forwarded : DispatchRings := fun _ ↦ []

/-- The steps of the cores.  The other tables that a worker reads and writes, which other cores
share, are what it finds there. -/
inductive DispatchAction (cap : Nat) (ρ : Type) where
  /-- `rte_eth_rx_burst`. -/
  | receive (portId : BitVec 16) (packets : List Mbuf)
  /-- `DispatchPacketToWorker`. -/
  | dispatch
  /-- `force_quit` is set. -/
  | quit
  /-- A worker tests `force_quit`. -/
  | check (worker : Nat)
  /-- A worker takes a burst from its ring. -/
  | dequeue (worker : Nat) (tsc : BitVec 64)
  /-- `ForwardPacket`. -/
  | forward (worker : Nat) (ctx : WorkerContext) (flowTable : FlowTable cap) (rest : ρ)
  /-- `CleanupExpiredFragments` and `FlushTransmitBuffers`. -/
  | flush (worker : Nat) (ctx : WorkerContext) (flowTable : FlowTable cap)
      (accepted : BitVec 16 → Nat)
  /-- The end of `StopWorkers`. -/
  | join (tsc : Nat → BitVec 64)
  /-- `DestroyDispatchRings`. -/
  | destroyRings

namespace FlowHashMode

variable (m : FlowHashMode φ ρ)

/-- The context of a worker, but for the tables. -/
def context (ctx : WorkerContext) (worker : Nat) (tsc : BitVec 64) : WorkerContext :=
  { ctx with
    flowHashRings := m.workerCount
    workerId := worker
    currentBurstTsc := tsc
    l3Forwarding := m.l3Forwarding
    activePorts := m.env.activePorts
    portCount := m.env.portCount
    portMacAddress := m.env.getPortMacAddress }

/-- The services of a worker, for a packet with this `port`. -/
def services (receivePort : BitVec 16) : Services Mbuf (φ × DispatchRings × ρ) :=
  flowHashServices m.ck m.tables.toFragLibrary
    (ringServices m.dispatchQueueSize receivePort m.svc)

/-- What `CleanupExpiredFragments` works on. -/
def cleanup : FragmentCleanup φ where
  fragmentCleanupIntervalCycles := m.fragmentCleanupIntervalCycles
  delExpiredEntries := m.tables.delExpiredEntries

/-- `DispatchPacketToWorker`. -/
def dispatchPacketToWorker (s : DispatchState φ) (receivePort : BitVec 16) (packet : Mbuf) :
    DispatchState φ :=
  let worker := (hashPacketFlow packet receivePort).toNat % m.workerCount
  let entry := (receivePort, packet)
  match rteRingEnqueue m.dispatchQueueSize worker entry s.rings with
  | (true, rings) =>
      { s with
        rings
        dispatched := Function.update s.dispatched worker (s.dispatched worker ++ [entry])
        enqueued := Function.update s.enqueued worker (s.enqueued worker ++ [entry]) }
  | (false, _) => { s with freed := s.freed ++ [packet] }

/-- `ForwardPacket` for the first packet of a burst. -/
def forwardFirst (s : DispatchState φ) (worker : Nat) (ctx : WorkerContext)
    (flowTable : FlowTable cap) (rest : ρ) (entry : BitVec 16 × Mbuf)
    (todo : List (BitVec 16 × Mbuf)) : DispatchState φ :=
  let w := s.workers worker
  let st := forwardPacket (m.context ctx worker w.currentBurstTsc) (m.services entry.1) entry.2
    entry.1
    { flowTable, transmitBuffers := w.transmitBuffers, world := (w.fragments, s.rings, rest) }
  { s with
    rings := st.world.2.1
    workers := Function.update s.workers worker
      { w with pc := .packets todo, fragments := st.world.1
               transmitBuffers := st.transmitBuffers }
    freed := s.freed ++ st.freed
    enqueued := fun k ↦ s.enqueued k ++ (st.world.2.1 k).drop (s.rings k).length
    forwarded := Function.update s.forwarded worker (s.forwarded worker ++ [entry]) }

/-- The end of `ProcessDispatchedWorkerIteration`. -/
def flushWorker (s : DispatchState φ) (worker : Nat) (ctx : WorkerContext)
    (flowTable : FlowTable cap) (accepted : BitVec 16 → Nat) : DispatchState φ :=
  let w := s.workers worker
  let cleaned := cleanupExpiredFragments m.cleanup w.currentBurstTsc w.lastFragmentCleanupTsc
    w.fragments
  let r := flushTransmitBuffers (m.context ctx worker w.currentBurstTsc) accepted
    { flowTable, transmitBuffers := w.transmitBuffers, world := () }
  { s with
    workers := Function.update s.workers worker
      { w with pc := .check, lastFragmentCleanupTsc := cleaned.1, fragments := cleaned.2
               transmitBuffers := r.2.transmitBuffers }
    sent := s.sent ++ r.1
    freed := s.freed ++ r.2.freed }

/-- One step; `none` when it is not enabled. -/
def step (s : DispatchState φ) : DispatchAction cap ρ → Option (DispatchState φ)
  | .receive portId packets =>
      if s.main = .dispatch ∧ s.dispatching = [] ∧ portId ∈ m.env.activePorts ∧
          packets.length ≤ m.burstSize then
        some { s with
          dispatching := packets.map fun packet ↦ (portId, packet)
          received := s.received ++ packets }
      else none
  | .dispatch =>
      match s.dispatching with
      | [] => none
      | (receivePort, packet) :: rest =>
          some { m.dispatchPacketToWorker s receivePort packet with dispatching := rest }
  | .quit =>
      if s.main = .dispatch ∧ s.dispatching = [] then some { s with main := .stopWorkers }
      else none
  | .check worker =>
      if worker < m.workerCount ∧ (s.workers worker).pc = .check then
        some { s with
          workers := Function.update s.workers worker { s.workers worker with
            pc := if s.main = .dispatch then .receive else .stopped } }
      else none
  | .dequeue worker tsc =>
      if worker < m.workerCount ∧ (s.workers worker).pc = .receive then
        let burst := rteRingScDequeueBurst worker m.burstSize s.rings
        some { s with
          rings := burst.2
          workers := Function.update s.workers worker { s.workers worker with
            pc := .packets burst.1, currentBurstTsc := tsc, transmitBuffers := fun _ ↦ [] }
          overwritten := s.overwritten ++ indexed allPorts (s.workers worker).transmitBuffers }
      else none
  | .forward worker ctx flowTable rest =>
      if worker < m.workerCount then
        match (s.workers worker).pc with
        | .packets (entry :: todo) => some (m.forwardFirst s worker ctx flowTable rest entry todo)
        | _ => none
      else none
  | .flush worker ctx flowTable accepted =>
      if worker < m.workerCount ∧ (s.workers worker).pc = .packets [] then
        some (m.flushWorker s worker ctx flowTable accepted)
      else none
  | .join tsc =>
      if s.main = .stopWorkers ∧ ∀ k < m.workerCount, (s.workers k).pc = .stopped then
        some { s with
          main := .stopped
          workers := fun k ↦ { s.workers k with
            fragments := m.tables.delExpiredEntries (tsc k + m.fragmentTimeoutCycles)
              (s.workers k).fragments } }
      else none
  | .destroyRings => if s.main = .stopped then some { s with main := .destroyed } else none

/-- The runs of flow-hash mode, from when the rings and the workers are there. -/
def runs (cap : Nat) : System (DispatchState φ) (DispatchAction cap ρ) :=
  System.ofPartial { workers := fun _ ↦ { fragments := m.tables.create } } m.step

end FlowHashMode

/-! ## What a worker does to the rings and its fragment table -/

/-- A decision leaves a part of the world alone. -/
structure Services.Keeps {μ σ τ : Type} (part : σ → τ) (svc : Services μ σ) : Prop where
  insertChoice : ∀ key w, part (svc.insertChoice key w).2 = part w
  tcpReassembler : ∀ insert, svc.tcpReassembler = some insert → ∀ metadata payload tsc w,
    part (insert metadata payload tsc w).2 = part w
  dpiLookup : ∀ hostname w, part (svc.dpiLookup hostname w).2 = part w

section Keeps

variable {μ σ τ : Type} {part : σ → τ} {svc : Services μ σ}

/-- Equal worlds in which the part has this value. -/
def SamePart (part : σ → τ) (x : τ) (w w' : σ) : Prop := w = w' ∧ part w = x

theorem Services.Keeps.respects (h : svc.Keeps part) (x : τ) :
    svc.Respects (SamePart part x) := by
  constructor
  · rintro key w w' ⟨rfl, hw⟩
    exact ⟨rfl, rfl, (h.insertChoice key w).trans hw⟩
  · rintro insert hinsert metadata payload tsc w w' ⟨rfl, hw⟩
    exact ⟨rfl, rfl, (h.tcpReassembler insert hinsert metadata payload tsc w).trans hw⟩
  · rintro hostname w w' ⟨rfl, hw⟩
    exact ⟨rfl, rfl, (h.dpiLookup hostname w).trans hw⟩

theorem Coupled.makeMatched {T : FlowTable cap → FlowTable cap → Prop} {W : σ → σ → Prop}
    {key : FlowKey} (hsvc : svc.Couples key T W) {st st' : BurstState cap μ σ}
    (h : Coupled T W st st') (ctx : WorkerContext) (metadata : PacketMetadata) (action : Action) :
    Agree T W (makeMatched ctx svc metadata action key st)
      (makeMatched ctx svc metadata action key st') := by
  obtain ⟨result, s, s', hst, hst', hs⟩ := h.insertFlow hsvc action
  unfold DpdkSpi.makeMatched
  rw [hst, hst']
  cases result with
  | kOk => exact (hs.count _ _).agree _
  | kFull =>
      refine Agree.ite (fun _ ↦ ?_) fun _ ↦ ?_
      · exact ((hs.count _ _).count _ _).agree _
      · exact ((hs.count _ _).count _ _).agree _

theorem Coupled.classifyMiss {T : FlowTable cap → FlowTable cap → Prop} {W : σ → σ → Prop}
    {key : FlowKey} (hsvc : svc.Couples key T W) {st st' : BurstState cap μ σ}
    (h : Coupled T W st st') (ctx : WorkerContext) (packet : μ) (metadata : PacketMetadata)
    (spiMatch : ClassificationResult) :
    Agree T W (classifyMiss ctx svc packet metadata spiMatch key st)
      (classifyMiss ctx svc packet metadata spiMatch key st') := by
  unfold DpdkSpi.classifyMiss
  refine Agree.ite (fun _ ↦ ?_) fun _ ↦ Agree.ite (fun _ ↦ Agree.ite (fun _ ↦ ?_) fun _ ↦ ?_)
    fun _ ↦ ?_
  · obtain ⟨result, s, s', hst, hst', hs⟩ := h.insertFlow hsvc spiMatch.action
    rw [hst, hst']
    cases result with
    | kOk => exact (hs.count _ _).agree _
    | kFull =>
        refine Agree.ite (fun _ ↦ ?_) fun _ ↦ ?_
        · exact ((hs.count _ _).count _ _).agree _
        · exact ((hs.count _ _).count _ _).agree _
  · exact h.makeMatched hsvc ctx metadata spiMatch.action
  · exact (h.count _ _).agree _
  · obtain ⟨verdict, s, s', hst, hst', hs⟩ :=
      h.tryDpiClassify hsvc ctx packet metadata spiMatch
    rw [hst, hst']
    refine Agree.ite (fun _ ↦ hs.agree _) fun _ ↦ Agree.ite (fun _ ↦ ?_) fun _ ↦ ?_
    · refine Agree.ite (fun _ ↦ (hs.count _ _).agree _) fun _ ↦ ?_
      exact hs.makeMatched hsvc ctx verdict.metadata spiMatch.action
    · exact (hs.count _ _).agree _

/-- The decision on a cache miss. -/
theorem Services.Keeps.classifyMiss (h : svc.Keeps part) (ctx : WorkerContext) (packet : μ)
    (metadata : PacketMetadata) (spiMatch : ClassificationResult) (key : FlowKey)
    (st : BurstState cap μ σ) :
    part (classifyMiss ctx svc packet metadata spiMatch key st).2.world = part st.world := by
  have hself : Coupled Eq (SamePart part (part st.world)) st st := ⟨rfl, rfl, rfl, rfl, rfl⟩
  obtain ⟨x, s, s', hst, -, hs⟩ := hself.classifyMiss
    ((h.respects _).couples insertsRespect_eq key) ctx packet metadata spiMatch
  rw [hst]
  exact hs.world.2

/-- **What `ForwardPacket` does to that part**: what parsing does to it, and what putting the packet
into a ring does when it is another worker's. -/
theorem Services.Keeps.forwardPacket (h : svc.Keeps part) (ctx : WorkerContext) (packet : μ)
    (receivePort : BitVec 16) (st : BurstState cap μ σ) :
    part (forwardPacket ctx svc packet receivePort st).world =
      match svc.parsePacketOwned packet ctx.currentBurstTsc st.world with
      | (.parsed _ packet' wasReassembled, world) =>
          if Redispatched ctx svc packet' receivePort wasReassembled then
            part (svc.ringEnqueue (targetWorker ctx svc packet' receivePort) packet' world).2
          else part world
      | (_, world) => part world := by
  unfold DpdkSpi.forwardPacket classifyPacket
  rcases hparse : svc.parsePacketOwned packet ctx.currentBurstTsc st.world with
    ⟨⟨metadata, packet', wasReassembled⟩ | _ | packet', world⟩
  · dsimp only
    by_cases hthere : Redispatched ctx svc packet' receivePort wasReassembled
    · rw [if_pos hthere, if_pos hthere]
      dsimp only
      rw [if_pos rfl]
      split
      · rfl
      · rfl
    · rw [if_neg hthere, if_neg hthere]
      rcases hlookup : st.flowTable.lookup (makeCanonicalFromMetadata metadata)
        ctx.currentBurstTsc with ⟨_ | action, flowTable⟩
      · obtain ⟨-, hmiss⟩ := classifyMiss_decides ctx svc packet' metadata
          (spiLookup svc ctx.rules metadata (makeCanonicalFromMetadata metadata))
          (makeCanonicalFromMetadata metadata)
          { { st with world }.count fun c ↦ { c with parsed := c.parsed + 1 } with flowTable }
        simp only [BurstState.count_flowTable, hlookup]
        rw [if_neg (by rw [hmiss]; exact Bool.false_ne_true),
          (applyForwardDecision_frame ctx svc packet' receivePort _ _).2]
        exact h.classifyMiss ctx packet' metadata _ _ _
      · simp only [BurstState.count_flowTable, hlookup]
        rw [if_neg Bool.false_ne_true,
          (applyForwardDecision_frame ctx svc packet' receivePort _ _).2]
        rfl
  · rfl
  · dsimp only
    rw [if_neg Bool.false_ne_true, (applyForwardDecision_frame ctx svc packet' receivePort _ _).2]
    rfl

/-- A packet of another worker goes into the ring of that worker, or is freed. -/
theorem forwardPacket_of_redispatched {ctx : WorkerContext} {packet packet' : μ}
    {receivePort : BitVec 16} {st : BurstState cap μ σ} {metadata : PacketMetadata}
    {wasReassembled : Bool} {world : σ}
    (hparse : svc.parsePacketOwned packet ctx.currentBurstTsc st.world =
      (.parsed metadata packet' wasReassembled, world))
    (hthere : Redispatched ctx svc packet' receivePort wasReassembled) :
    forwardPacket ctx svc packet receivePort st =
      let sent := svc.ringEnqueue (targetWorker ctx svc packet' receivePort) packet' world
      if sent.1 then { st with world := sent.2 }
      else { st with world := sent.2 }.dropPacket packet' := by
  unfold DpdkSpi.forwardPacket classifyPacket
  rw [hparse]
  dsimp only
  rw [if_pos hthere]
  dsimp only
  rw [if_pos rfl]

end Keeps

/-- The mbufs of some packets. -/
def mbufsOf (packets : List Mbuf) : List Nat := packets.flatMap Mbuf.addresses

theorem mbufsOf_append (packets packets' : List Mbuf) :
    mbufsOf (packets ++ packets') = mbufsOf packets ++ mbufsOf packets' :=
  List.flatMap_append

theorem mbufsOf_cons (packet : Mbuf) (packets : List Mbuf) :
    mbufsOf (packet :: packets) = packet.addresses ++ mbufsOf packets := rfl

theorem mbufsOf_perm {packets packets' : List Mbuf}
    (h : (packets.map Mbuf.addresses).Perm (packets'.map Mbuf.addresses)) :
    (mbufsOf packets).Perm (mbufsOf packets') := by
  unfold mbufsOf
  rw [List.flatMap_def, List.flatMap_def]
  exact h.flatten

section Forward

variable {m : FlowHashMode φ ρ}

theorem keeps_services (receivePort : BitVec 16) :
    (m.services receivePort).Keeps fun w ↦ (w.1, w.2.1) := by
  constructor
  · intro key w
    rfl
  · intro insert hinsert metadata payload tsc w
    obtain ⟨insert', hinsert', rfl⟩ := Option.map_eq_some_iff.mp hinsert
    obtain ⟨insert'', -, rfl⟩ := Option.map_eq_some_iff.mp hinsert'
    rfl
  · intro hostname w
    rfl

theorem inPlace_services (receivePort : BitVec 16) :
    (m.services receivePort).InPlace Mbuf.addresses where
  l3 packet srcAddr dstAddr := addresses_updateL3ForwardHeaders m.ck packet srcAddr dstAddr
  l2 _ _ _ := rfl

/-- What becomes of a packet from a ring, given the chain that parsing leaves with the worker. -/
inductive Settles (m : FlowHashMode φ ρ) (receivePort : BitVec 16) (rings rings' : DispatchRings)
    (st st' : BurstState cap Mbuf (φ × DispatchRings × ρ)) : Option Mbuf → Prop
  /-- The fragment table keeps it. -/
  | kept (hrings : rings' = rings) (hbuffers : st'.transmitBuffers = st.transmitBuffers)
      (hfreed : st'.freed = st.freed) : Settles m receivePort rings rings' st st' none
  /-- It is put into the ring of another worker. -/
  | redispatched {packet : Mbuf} (worker : Nat) (hworker : worker < m.workerCount)
      (hroom : (rings worker).length < rteRingCapacity m.dispatchQueueSize)
      (hrings : rings' =
        Function.update rings worker (rings worker ++ [(receivePort, packet)]))
      (hbuffers : st'.transmitBuffers = st.transmitBuffers) (hfreed : st'.freed = st.freed) :
      Settles m receivePort rings rings' st st' (some packet)
  /-- It is staged or freed. -/
  | handedOn {packet : Mbuf} (hrings : rings' = rings)
      (hperm : (st'.handedOn.map Mbuf.addresses).Perm
        (packet.addresses :: st.handedOn.map Mbuf.addresses))
      (hlength : ∀ q, (st'.transmitBuffers q).length ≤ (st.transmitBuffers q).length + 1)
      (hpaired : m.l3Forwarding = false → ∀ q, q ≠ getTransmitPort m.env.activePorts receivePort →
        (st'.transmitBuffers q).length ≤ (st.transmitBuffers q).length) :
      Settles m receivePort rings rings' st st' (some packet)

theorem Disposes.settles {ctx : WorkerContext} {worker : Nat} {tsc : BitVec 64}
    {receivePort : BitVec 16} {packet : Mbuf} {classification : PacketClassification}
    {rings rings' : DispatchRings} {st mid st' : BurstState cap Mbuf (φ × DispatchRings × ρ)}
    (h : Disposes (m.context ctx worker tsc) (m.services receivePort) packet receivePort
      classification mid st') (hbuffers : mid.transmitBuffers = st.transmitBuffers)
    (hfreed : mid.freed = st.freed) (hrings : rings' = rings) :
    Settles m receivePort rings rings' st st' (some packet) := by
  refine .handedOn hrings ?_ (fun q ↦ ?_) fun hl2 q hq ↦ ?_
  · have hone := h.handedOn (inPlace_services receivePort)
    rwa [BurstState.handedOn, BurstState.handedOn, hbuffers, hfreed] at hone
  · have hone : (st'.transmitBuffers q).length ≤ (mid.transmitBuffers q).length + true.toNat :=
      h.length_le Bool.noConfusion
    rwa [hbuffers] at hone
  · have hnone : (st'.transmitBuffers q).length ≤ (mid.transmitBuffers q).length + false.toNat :=
      h.length_le fun _ hleads ↦ hq (getTransmitPort_of_leads hl2 hleads).symm
    rwa [hbuffers] at hnone

/-- **What `ForwardPacket` does** with a packet from a ring: its chain is what parsing makes of it,
and only this chain goes into a ring, a staging buffer or to `rte_pktmbuf_free`. -/
theorem settles_forwardPacket (ctx : WorkerContext) (worker : Nat) (tsc : BitVec 64)
    (packet : Mbuf) (receivePort : BitVec 16) (st : BurstState cap Mbuf (φ × DispatchRings × ρ)) :
    let st' := forwardPacket (m.context ctx worker tsc) (m.services receivePort) packet receivePort
      st
    let parse := parsePacketOwned (some m.tables.toFragLibrary) packet tsc st.world.1
    st'.world.1 = parse.2 ∧
      Settles m receivePort st.world.2.1 st'.world.2.1 st st' parse.1.chain? := by
  intro st' parse
  have hworld := (keeps_services (m := m) receivePort).forwardPacket
    (m.context ctx worker tsc) packet receivePort st
  have hservice : (m.services receivePort).parsePacketOwned packet
      (m.context ctx worker tsc).currentBurstTsc st.world = (parse.1, parse.2, st.world.2) := rfl
  have hcase := forwardPacket_forwards (m.context ctx worker tsc) (m.services receivePort) packet
    receivePort st
  rw [hservice] at hworld
  cases hcase with
  | waiting world hparse hst =>
      obtain ⟨hresult, -⟩ := Prod.mk.inj (hservice.symm.trans hparse)
      rw [hresult] at hworld ⊢
      obtain ⟨hfragments, hrings⟩ := Prod.mk.inj hworld
      exact ⟨hfragments, .kept hrings ((congrArg BurstState.transmitBuffers hst).trans rfl)
        ((congrArg BurstState.freed hst).trans rfl)⟩
  | malformed packet' world hparse hdisposes =>
      obtain ⟨hresult, -⟩ := Prod.mk.inj (hservice.symm.trans hparse)
      rw [hresult] at hworld ⊢
      obtain ⟨hfragments, hrings⟩ := Prod.mk.inj hworld
      exact ⟨hfragments, hdisposes.settles rfl rfl hrings⟩
  | redispatched metadata packet' wasReassembled world world' hparse hthere hst =>
      obtain ⟨hresult, -⟩ := Prod.mk.inj (hservice.symm.trans hparse)
      have hforward := forwardPacket_of_redispatched
        (hservice.trans (congrArg (·, parse.2, st.world.2) hresult)) hthere
      let target := targetWorker (m.context ctx worker tsc) (m.services receivePort) packet'
        receivePort
      have htarget : target < m.workerCount := Nat.mod_lt _ m.workers_pos
      have hring : (m.services receivePort).ringEnqueue target packet' (parse.2, st.world.2) =
          let sent := rteRingEnqueue m.dispatchQueueSize target (receivePort, packet') st.world.2.1
          (sent.1, parse.2, sent.2, st.world.2.2) := rfl
      rw [hresult]
      dsimp only at hforward
      rw [hring] at hforward
      unfold rteRingEnqueue at hforward
      by_cases hroom : (st.world.2.1 target).length < rteRingCapacity m.dispatchQueueSize
      · rw [if_pos hroom] at hforward
        have hst' : st' = { st with world := (parse.2, Function.update st.world.2.1 target
          (st.world.2.1 target ++ [(receivePort, packet')]), st.world.2.2) } := hforward
        rw [hst']
        exact ⟨rfl, .redispatched target htarget hroom rfl rfl rfl⟩
      · rw [if_neg hroom] at hforward
        have hst' : st' = { st with world := (parse.2, st.world.2) }.dropPacket packet' := hforward
        rw [hst']
        have hdropped : Disposes (m.context ctx worker tsc) (m.services receivePort) packet'
            receivePort {} { st with world := (parse.2, st.world.2) }
            ({ st with world := (parse.2, st.world.2) }.dropPacket packet') := .dropped rfl
        exact ⟨rfl, hdropped.settles rfl rfl rfl⟩
  | decided metadata packet' wasReassembled world mid classification hparse hhere hdecides
      hdisposes =>
      obtain ⟨hresult, -⟩ := Prod.mk.inj (hservice.symm.trans hparse)
      rw [hresult] at hworld ⊢
      dsimp only at hworld
      rw [if_neg hhere] at hworld
      obtain ⟨hfragments, hrings⟩ := Prod.mk.inj hworld
      exact ⟨hfragments, hdisposes.settles hdecides.buffers hdecides.freed hrings⟩

end Forward

/-! ## Accounts -/

/-- Counting in families that differ in one list. -/
theorem count_flatMap_update {ι β : Type} [DecidableEq ι] [DecidableEq β] {l : List ι}
    (hnodup : l.Nodup) {i : ι} (hi : i ∈ l) {α : Type} (f : ι → α) (x : α) (g : α → List β)
    (b : β) :
    (l.flatMap fun j ↦ g (Function.update f i x j)).count b + (g (f i)).count b =
      (l.flatMap fun j ↦ g (f j)).count b + (g x).count b := by
  have hone := (flatMap_perm_of_one hnodup hi (f := fun j ↦ g (f j))
    (g := fun j ↦ g (Function.update f i x j))
    fun j hj ↦ by rw [Function.update_of_ne hj]).count_eq b
  rwa [List.count_append, List.count_append, Function.update_self] at hone

/-- What a worker has. -/
def DispatchWorker.mbufs (held : φ → List Nat) (w : DispatchWorker φ) : List Nat :=
  mbufsOf (w.pc.todo.map Prod.snd) ++
    (mbufsOf (allPorts.flatMap w.transmitBuffers) ++ held w.fragments)

/-- What is in the rings of `n` workers. -/
def DispatchState.inRings (n : Nat) (s : DispatchState φ) : List Nat :=
  (List.range n).flatMap fun k ↦ mbufsOf ((s.rings k).map Prod.snd)

/-- Where the mbufs are. -/
def DispatchState.mbufs (n : Nat) (held : φ → List Nat) (s : DispatchState φ) : List Nat :=
  mbufsOf (s.dispatching.map Prod.snd) ++ (s.inRings n ++
    ((List.range n).flatMap (fun k ↦ (s.workers k).mbufs held) ++
      mbufsOf (s.sent ++ (s.freed ++ s.overwritten.map Prod.snd))))

/-- The mbufs that the fragment library holds, and those that it has freed. -/
structure FragTables.Keeps (tables : FragTables φ) (held : φ → List Nat) : Prop where
  owns : tables.toFragLibrary.Owns held
  create : held tables.create = []
  delExpiredEntries : ∀ tsc fragments,
    (held (tables.delExpiredEntries tsc fragments)).Perm (held fragments)

theorem FragTables.Keeps.cleanup {m : FlowHashMode φ ρ} {held : φ → List Nat}
    (h : m.tables.Keeps held) (tsc last : BitVec 64) (fragments : φ) :
    (held (cleanupExpiredFragments m.cleanup tsc last fragments).2).Perm (held fragments) := by
  unfold cleanupExpiredFragments
  split
  · exact .refl _
  · exact h.delExpiredEntries tsc fragments

section Flush

variable {μ σ : Type} (accepted : BitVec 16 → Nat)

/-- Flushing a port moves packets from its buffer. -/
theorem flushPort_perm (r : List μ × BurstState cap μ σ) (portId : BitVec 16) :
    ((flushPort accepted r portId).1 ++ (flushPort accepted r portId).2.handedOn).Perm
      (r.1 ++ r.2.handedOn) := by
  classical
  unfold flushPort
  dsimp only
  split
  · exact .refl _
  · refine List.perm_iff_count.mpr fun b ↦ ?_
    have hbuffer : (allPorts.flatMap (Function.update r.2.transmitBuffers portId [])).count b +
        (r.2.transmitBuffers portId).count b =
          (allPorts.flatMap r.2.transmitBuffers).count b + ([] : List μ).count b :=
      count_flatMap_update nodup_allPorts (mem_allPorts portId) r.2.transmitBuffers [] id b
    rw [List.count_nil] at hbuffer
    have hsplit := congrArg (List.count b)
      (List.take_append_drop (min (accepted portId) (r.2.transmitBuffers portId).length)
        (r.2.transmitBuffers portId))
    rw [List.count_append] at hsplit
    simp only [BurstState.handedOn, BurstState.count, List.count_append] at hbuffer ⊢
    omega

theorem foldl_flushPort_perm (ports : List (BitVec 16)) (r : List μ × BurstState cap μ σ) :
    ((ports.foldl (flushPort accepted) r).1 ++
        (ports.foldl (flushPort accepted) r).2.handedOn).Perm (r.1 ++ r.2.handedOn) := by
  induction ports generalizing r with
  | nil => exact .refl _
  | cons portId ports ih => exact (ih _).trans (flushPort_perm accepted r portId)

/-- The buffers of the ports are empty behind the flush, and no buffer gets longer. -/
theorem foldl_flushPort_buffers (ports : List (BitVec 16)) (r : List μ × BurstState cap μ σ)
    (q : BitVec 16) :
    (ports.foldl (flushPort accepted) r).2.transmitBuffers q =
      if q ∈ ports then [] else r.2.transmitBuffers q := by
  induction ports generalizing r with
  | nil => rfl
  | cons portId ports ih =>
      have hone : (flushPort accepted r portId).2.transmitBuffers q =
          if q = portId then [] else r.2.transmitBuffers q := by
        by_cases hq : q = portId
        · subst hq
          rw [if_pos rfl]
          unfold flushPort
          dsimp only
          split
          · rename_i hempty
            exact List.length_eq_zero_iff.mp hempty
          · exact Function.update_self ..
        · rw [if_neg hq]
          exact (flushPort_flushes accepted r portId).2 q hq
      rw [List.foldl_cons, ih, hone]
      by_cases hmem : q ∈ ports
      · rw [if_pos hmem, if_pos (List.mem_cons_of_mem _ hmem)]
      · rw [if_neg hmem]
        exact if_congr ⟨fun h ↦ h ▸ List.mem_cons_self,
          fun h ↦ (List.mem_cons.mp h).resolve_right hmem⟩ rfl rfl

end Flush

section Accounts

variable {m : FlowHashMode φ ρ} {held : φ → List Nat} {s s' : DispatchState φ}

/-- Every mbuf that was received is in one place. -/
def DispatchState.Accounts (n : Nat) (held : φ → List Nat) (s : DispatchState φ) : Prop :=
  ∀ b, (mbufsOf s.received).count b = (s.mbufs n held).count b

theorem count_mbufsOf_append (packets packets' : List Mbuf) (b : Nat) :
    (mbufsOf (packets ++ packets')).count b =
      (mbufsOf packets).count b + (mbufsOf packets').count b := by
  rw [mbufsOf_append, List.count_append]

theorem DispatchState.count_mbufs (n : Nat) (held : φ → List Nat) (s : DispatchState φ) (b : Nat) :
    (s.mbufs n held).count b =
      (mbufsOf (s.dispatching.map Prod.snd)).count b + (s.inRings n).count b +
        ((List.range n).flatMap fun k ↦ (s.workers k).mbufs held).count b +
        (mbufsOf s.sent).count b + (mbufsOf s.freed).count b +
        (mbufsOf (s.overwritten.map Prod.snd)).count b := by
  unfold mbufs
  simp only [List.count_append, count_mbufsOf_append]
  omega

/-- The mbufs of a worker, counted. -/
theorem DispatchWorker.count_mbufs (held : φ → List Nat) (w : DispatchWorker φ) (b : Nat) :
    (w.mbufs held).count b = (mbufsOf (w.pc.todo.map Prod.snd)).count b +
      (mbufsOf (allPorts.flatMap w.transmitBuffers)).count b + (held w.fragments).count b := by
  unfold mbufs
  rw [List.count_append, List.count_append, Nat.add_assoc]

/-- The mbufs of a worker that changes. -/
theorem count_workers {n worker : Nat} (hworker : worker < n) (workers : Nat → DispatchWorker φ)
    (w : DispatchWorker φ) (held : φ → List Nat) (b : Nat) :
    ((List.range n).flatMap fun k ↦ (Function.update workers worker w k).mbufs held).count b +
        ((mbufsOf ((workers worker).pc.todo.map Prod.snd)).count b +
          (mbufsOf (allPorts.flatMap (workers worker).transmitBuffers)).count b +
          (held (workers worker).fragments).count b) =
      ((List.range n).flatMap fun k ↦ (workers k).mbufs held).count b +
        ((mbufsOf (w.pc.todo.map Prod.snd)).count b +
          (mbufsOf (allPorts.flatMap w.transmitBuffers)).count b + (held w.fragments).count b) := by
  have hone := count_flatMap_update List.nodup_range (List.mem_range.mpr hworker) workers w
    (DispatchWorker.mbufs held) b
  rwa [DispatchWorker.count_mbufs, DispatchWorker.count_mbufs] at hone

/-- The mbufs of a ring that changes. -/
theorem count_rings {n worker : Nat} (hworker : worker < n) (rings : DispatchRings)
    (ring : List (BitVec 16 × Mbuf)) (b : Nat) :
    ((List.range n).flatMap fun k ↦
          mbufsOf ((Function.update rings worker ring k).map Prod.snd)).count b +
        (mbufsOf ((rings worker).map Prod.snd)).count b =
      ((List.range n).flatMap fun k ↦ mbufsOf ((rings k).map Prod.snd)).count b +
        (mbufsOf (ring.map Prod.snd)).count b :=
  count_flatMap_update List.nodup_range (List.mem_range.mpr hworker) rings ring
    (fun ring ↦ mbufsOf (ring.map Prod.snd)) b

theorem count_map_snd_append (entries : List (BitVec 16 × Mbuf)) (entry : BitVec 16 × Mbuf)
    (b : Nat) : (mbufsOf ((entries ++ [entry]).map Prod.snd)).count b =
      (mbufsOf (entries.map Prod.snd)).count b + entry.2.addresses.count b := by
  rw [List.map_append, List.map_singleton, count_mbufsOf_append, mbufsOf_cons]
  simp [mbufsOf]

/-- The main core puts a packet into a ring, or frees it. -/
theorem DispatchState.Accounts.dispatch (h : s.Accounts m.workerCount held)
    {entry : BitVec 16 × Mbuf} {rest : List (BitVec 16 × Mbuf)}
    (hburst : s.dispatching = entry :: rest) :
    { m.dispatchPacketToWorker s entry.1 entry.2 with dispatching := rest }.Accounts
      m.workerCount held := by
  intro b
  have hb := h b
  rw [DispatchState.count_mbufs, hburst, List.map_cons, mbufsOf_cons, List.count_append] at hb
  rw [DispatchState.count_mbufs]
  have hworker := Nat.mod_lt (hashPacketFlow entry.2 entry.1).toNat m.workers_pos
  unfold FlowHashMode.dispatchPacketToWorker rteRingEnqueue
  dsimp only
  by_cases hroom : (s.rings ((hashPacketFlow entry.2 entry.1).toNat % m.workerCount)).length <
      rteRingCapacity m.dispatchQueueSize
  · rw [if_pos hroom]
    have hring := count_rings hworker s.rings
      (s.rings ((hashPacketFlow entry.2 entry.1).toNat % m.workerCount) ++ [(entry.1, entry.2)]) b
    rw [count_map_snd_append] at hring
    unfold DispatchState.inRings at hb ⊢
    dsimp only at hring ⊢
    omega
  · rw [if_neg hroom]
    dsimp only
    rw [count_mbufsOf_append, mbufsOf_cons, List.count_append]
    have hnil : (mbufsOf []).count b = 0 := List.count_nil
    unfold DispatchState.inRings at hb ⊢
    dsimp only
    omega

/-- What is handed on, counted. -/
theorem count_handedOn {μ' : Type} (st : BurstState cap Mbuf μ') (b : Nat) :
    (mbufsOf st.handedOn).count b =
      (mbufsOf (allPorts.flatMap st.transmitBuffers)).count b + (mbufsOf st.freed).count b :=
  count_mbufsOf_append ..

/-- A worker forwards a packet. -/
theorem DispatchState.Accounts.forward (h : s.Accounts m.workerCount held)
    (hkeeps : m.tables.Keeps held) {worker : Nat} (hworker : worker < m.workerCount)
    {entry : BitVec 16 × Mbuf} {todo : List (BitVec 16 × Mbuf)}
    (hpc : (s.workers worker).pc = .packets (entry :: todo)) (ctx : WorkerContext)
    (flowTable : FlowTable cap) (rest : ρ) :
    (m.forwardFirst s worker ctx flowTable rest entry todo).Accounts m.workerCount held := by
  intro b
  have hb := h b
  obtain ⟨hfragments, hsettles⟩ := settles_forwardPacket (m := m) ctx worker
    (s.workers worker).currentBurstTsc entry.2 entry.1
    { flowTable, transmitBuffers := (s.workers worker).transmitBuffers
      world := ((s.workers worker).fragments, s.rings, rest) }
  have howns : ∀ lib ∈ some m.tables.toFragLibrary, lib.Owns held := by
    intro lib hlib
    obtain rfl := Option.some.inj hlib
    exact hkeeps.owns
  have hhands := hands_parsePacketOwned howns entry.2 (s.workers worker).currentBurstTsc
    (s.workers worker).fragments
  rw [DispatchState.count_mbufs] at hb ⊢
  unfold FlowHashMode.forwardFirst
  dsimp only at hsettles hfragments ⊢
  generalize forwardPacket _ _ _ _ _ = st' at hfragments hsettles ⊢
  rw [← hfragments] at hhands
  have hworkers := count_workers hworker s.workers
    { s.workers worker with
      pc := .packets todo, fragments := st'.world.1, transmitBuffers := st'.transmitBuffers } held b
  rw [hpc, DispatchPc.todo_packets, DispatchPc.todo_packets, List.map_cons, mbufsOf_cons,
    List.count_append] at hworkers
  rw [count_mbufsOf_append s.freed st'.freed]
  have hnil : (mbufsOf []).count b = 0 := List.count_nil
  generalize (parsePacketOwned _ _ _ _).1.chain? = chain at hhands hsettles
  cases hsettles with
  | kept hrings hbuffers hfreed =>
      have hheld := List.Perm.count_eq hhands b
      rw [List.count_append] at hheld
      rw [hrings]
      unfold DispatchState.inRings at hb ⊢
      dsimp only at hworkers hheld hbuffers hfreed ⊢
      rw [hbuffers] at hworkers ⊢
      rw [hfreed]
      omega
  | @redispatched packet' target htarget hroom hrings hbuffers hfreed =>
      have hheld := hhands.2.count_eq b
      rw [List.count_append, List.count_append] at hheld
      have hring := count_rings htarget s.rings (s.rings target ++ [(entry.1, packet')]) b
      rw [count_map_snd_append] at hring
      rw [hrings]
      unfold DispatchState.inRings at hb ⊢
      dsimp only at hworkers hheld hring hbuffers hfreed ⊢
      rw [hbuffers] at hworkers ⊢
      rw [hfreed]
      omega
  | @handedOn packet' hrings hperm hlength hpaired =>
      have hheld := hhands.2.count_eq b
      rw [List.count_append, List.count_append] at hheld
      have hhanded := (@mbufsOf_perm _ (packet' :: _) hperm).count_eq b
      rw [mbufsOf_cons, List.count_append, count_handedOn, count_handedOn] at hhanded
      rw [hrings]
      unfold DispatchState.inRings at hb ⊢
      dsimp only at hworkers hheld hhanded ⊢
      omega

/-- A worker takes a burst from its ring. -/
theorem DispatchState.Accounts.dequeue (h : s.Accounts m.workerCount held) {worker : Nat}
    (hworker : worker < m.workerCount) (hpc : (s.workers worker).pc = .receive) (n : Nat)
    (tsc : BitVec 64) :
    { s with
      rings := (rteRingScDequeueBurst worker n s.rings).2
      workers := Function.update s.workers worker { s.workers worker with
        pc := .packets (rteRingScDequeueBurst worker n s.rings).1, currentBurstTsc := tsc
        transmitBuffers := fun _ ↦ [] }
      overwritten := s.overwritten ++
        indexed allPorts (s.workers worker).transmitBuffers }.Accounts m.workerCount held := by
  intro b
  have hb := h b
  rw [DispatchState.count_mbufs] at hb ⊢
  have hworkers := count_workers hworker s.workers
    { s.workers worker with
      pc := .packets ((s.rings worker).take n), currentBurstTsc := tsc
      transmitBuffers := fun _ ↦ [] } held b
  rw [hpc, DispatchPc.todo_receive, DispatchPc.todo_packets] at hworkers
  have hring := count_rings hworker s.rings ((s.rings worker).drop n) b
  have hsplit := count_mbufsOf_append (((s.rings worker).take n).map Prod.snd)
    (((s.rings worker).drop n).map Prod.snd) b
  rw [← List.map_append, List.take_append_drop] at hsplit
  have hnil : (mbufsOf (List.map Prod.snd ([] : List (BitVec 16 × Mbuf)))).count b = 0 :=
    List.count_nil
  have hempty : (mbufsOf (allPorts.flatMap fun _ ↦ ([] : List Mbuf))).count b = 0 := by
    rw [List.flatMap_eq_nil_iff.mpr fun _ _ ↦ rfl]
    exact List.count_nil
  unfold rteRingScDequeueBurst
  unfold DispatchState.inRings at hb ⊢
  dsimp only at hworkers ⊢
  rw [List.map_append, map_snd_indexed, count_mbufsOf_append]
  rw [hempty] at hworkers
  omega

/-- A worker sends what it has staged. -/
theorem DispatchState.Accounts.flush (h : s.Accounts m.workerCount held)
    (hkeeps : m.tables.Keeps held) {worker : Nat} (hworker : worker < m.workerCount)
    (hpc : (s.workers worker).pc = .packets []) (ctx : WorkerContext) (flowTable : FlowTable cap)
    (accepted : BitVec 16 → Nat) :
    (m.flushWorker s worker ctx flowTable accepted).Accounts m.workerCount held := by
  intro b
  have hb := h b
  rw [DispatchState.count_mbufs] at hb ⊢
  have hperm := foldl_flushPort_perm accepted
    (m.context ctx worker (s.workers worker).currentBurstTsc).activePorts
    ([], ({ flowTable, transmitBuffers := (s.workers worker).transmitBuffers, world := () } :
      BurstState cap Mbuf Unit))
  have hclean := (hkeeps.cleanup (s.workers worker).currentBurstTsc
    (s.workers worker).lastFragmentCleanupTsc (s.workers worker).fragments).count_eq b
  unfold FlowHashMode.flushWorker flushTransmitBuffers
  dsimp only
  generalize List.foldl (flushPort accepted) _ _ = r at hperm ⊢
  generalize cleanupExpiredFragments _ _ _ _ = cleaned at hclean ⊢
  have hflushed := (hperm.flatMap_right Mbuf.addresses).count_eq b
  have hcount : ∀ packets : List Mbuf,
      (packets.flatMap Mbuf.addresses).count b = (mbufsOf packets).count b := fun _ ↦ rfl
  rw [hcount, hcount, count_mbufsOf_append, count_mbufsOf_append, count_handedOn,
    count_handedOn] at hflushed
  have hworkers := count_workers hworker s.workers
    { s.workers worker with
      pc := .check, lastFragmentCleanupTsc := cleaned.1, fragments := cleaned.2
      transmitBuffers := r.2.transmitBuffers } held b
  rw [hpc, DispatchPc.todo_packets, DispatchPc.todo_check] at hworkers
  have hnil : (mbufsOf []).count b = 0 := List.count_nil
  unfold DispatchState.inRings at hb ⊢
  dsimp only at hworkers hflushed ⊢
  rw [count_mbufsOf_append, count_mbufsOf_append]
  omega

/-- Every step. -/
theorem DispatchState.Accounts.step (hkeeps : m.tables.Keeps held)
    (h : s.Accounts m.workerCount held) {a : DispatchAction cap ρ} (hstep : m.step s a = some s') :
    s'.Accounts m.workerCount held := by
  cases a with
  | receive portId packets =>
      obtain ⟨⟨-, hempty, -⟩, hs'⟩ := Option.ite_none_right_eq_some.mp hstep
      obtain rfl := Option.some.inj hs'
      intro b
      have hb := h b
      rw [DispatchState.count_mbufs, hempty, List.map_nil] at hb
      have hnil : (mbufsOf []).count b = 0 := List.count_nil
      have hpackets : (packets.map fun packet ↦ (portId, packet)).map Prod.snd = packets := by
        rw [List.map_map]
        exact List.map_id packets
      rw [DispatchState.count_mbufs]
      unfold DispatchState.inRings at hb ⊢
      dsimp only
      rw [hpackets, count_mbufsOf_append]
      omega
  | dispatch =>
      unfold FlowHashMode.step at hstep
      cases hburst : s.dispatching with
      | nil =>
          rw [hburst] at hstep
          cases hstep
      | cons entry rest =>
          rw [hburst] at hstep
          obtain rfl := Option.some.inj hstep
          exact h.dispatch hburst
  | quit =>
      obtain ⟨-, hs'⟩ := Option.ite_none_right_eq_some.mp hstep
      obtain rfl := Option.some.inj hs'
      exact h
  | check worker =>
      obtain ⟨⟨hworker, hpc⟩, hs'⟩ := Option.ite_none_right_eq_some.mp hstep
      obtain rfl := Option.some.inj hs'
      intro b
      have hb := h b
      have hworkers := count_workers hworker s.workers { s.workers worker with
        pc := if s.main = .dispatch then .receive else .stopped } held b
      have htodo : (if s.main = .dispatch then DispatchPc.receive else .stopped).todo = [] := by
        split
        · rfl
        · rfl
      rw [hpc, htodo, DispatchPc.todo_check] at hworkers
      rw [DispatchState.count_mbufs] at hb ⊢
      unfold DispatchState.inRings at hb ⊢
      dsimp only at hworkers ⊢
      omega
  | dequeue worker tsc =>
      obtain ⟨⟨hworker, hpc⟩, hs'⟩ := Option.ite_none_right_eq_some.mp hstep
      obtain rfl := Option.some.inj hs'
      exact h.dequeue hworker hpc m.burstSize tsc
  | forward worker ctx flowTable rest =>
      obtain ⟨hworker, hs'⟩ := Option.ite_none_right_eq_some.mp hstep
      cases hpc : (s.workers worker).pc with
      | packets todo =>
          rw [hpc] at hs'
          cases todo with
          | nil => cases hs'
          | cons entry todo =>
              obtain rfl := Option.some.inj hs'
              exact h.forward hkeeps hworker hpc ctx flowTable rest
      | _ =>
          rw [hpc] at hs'
          cases hs'
  | flush worker ctx flowTable accepted =>
      obtain ⟨⟨hworker, hpc⟩, hs'⟩ := Option.ite_none_right_eq_some.mp hstep
      obtain rfl := Option.some.inj hs'
      exact h.flush hkeeps hworker hpc ctx flowTable accepted
  | join tsc =>
      obtain ⟨-, hs'⟩ := Option.ite_none_right_eq_some.mp hstep
      obtain rfl := Option.some.inj hs'
      intro b
      have hb := h b
      have hworkers := List.Perm.flatMap_left (List.range m.workerCount)
        (f := fun k ↦ DispatchWorker.mbufs held { s.workers k with
          fragments := m.tables.delExpiredEntries (tsc k + m.fragmentTimeoutCycles)
            (s.workers k).fragments })
        (g := fun k ↦ (s.workers k).mbufs held) fun k _ ↦
          ((hkeeps.delExpiredEntries _ _).append_left _).append_left _
      rw [DispatchState.count_mbufs] at hb ⊢
      unfold DispatchState.inRings at hb ⊢
      dsimp only
      rw [hworkers.count_eq b]
      exact hb
  | destroyRings =>
      obtain ⟨-, hs'⟩ := Option.ite_none_right_eq_some.mp hstep
      obtain rfl := Option.some.inj hs'
      exact h

/-- Every run. -/
theorem accounts_of_reach (hkeeps : m.tables.Keeps held) (h : (m.runs cap).Reach s) :
    s.Accounts m.workerCount held := by
  refine h.invariant ?_ fun s a s' hs hstep ↦ hs.step hkeeps hstep
  rintro s rfl b
  have hworkers : ((List.range m.workerCount).flatMap fun _ ↦ DispatchWorker.mbufs held
      { fragments := m.tables.create }) = [] := by
    refine List.flatMap_eq_nil_iff.mpr fun _ _ ↦ ?_
    have hbuffers : allPorts.flatMap (fun _ ↦ ([] : List Mbuf)) = [] :=
      List.flatMap_eq_nil_iff.mpr fun _ _ ↦ rfl
    unfold DispatchWorker.mbufs
    rw [hbuffers, hkeeps.create]
    rfl
  have hrings : ((List.range m.workerCount).flatMap fun _ ↦
      mbufsOf (([] : List (BitVec 16 × Mbuf)).map Prod.snd)) = [] :=
    List.flatMap_eq_nil_iff.mpr fun _ _ ↦ rfl
  rw [DispatchState.count_mbufs]
  unfold DispatchState.inRings
  dsimp only
  rw [hworkers, hrings]
  rfl

end Accounts

/-! ## Order and room -/

/-- What a worker has between two steps. -/
structure DispatchWorker.Fits (m : FlowHashMode φ ρ) (w : DispatchWorker φ) : Prop where
  /-- What is staged for a port, and what still may be, is one burst. -/
  staged : ∀ q, (w.transmitBuffers q).length + w.pc.todo.length ≤ m.burstSize
  /-- Between two bursts nothing is staged for an active port. -/
  flushed : (∀ todo, w.pc ≠ .packets todo) → ∀ q ∈ m.env.activePorts, w.transmitBuffers q = []
  /-- Paired ports are active ones. -/
  paired : m.l3Forwarding = false → ∀ q, w.transmitBuffers q ≠ [] → q ∈ m.env.activePorts

/-- What holds between two steps. -/
structure DispatchState.Inv (m : FlowHashMode φ ρ) (s : DispatchState φ) : Prop where
  ordered : ∀ k, s.enqueued k = s.forwarded k ++ ((s.workers k).pc.todo ++ s.rings k)
  dispatched : ∀ k, (s.dispatched k).Sublist (s.enqueued k)
  room : ∀ k, (s.rings k).length ≤ rteRingCapacity m.dispatchQueueSize
  fits : ∀ k, (s.workers k).Fits m
  overwritten : ∀ e ∈ s.overwritten, e.1 ∉ m.env.activePorts
  kept : m.l3Forwarding = false → s.overwritten = []
  ports : ∀ e ∈ s.dispatching, e.1 ∈ m.env.activePorts
  enqueuedPorts : ∀ k, ∀ e ∈ s.enqueued k, e.1 ∈ m.env.activePorts
  quiet : s.main ≠ .dispatch → s.dispatching = []
  stopped : s.main = .stopped ∨ s.main = .destroyed →
    ∀ k < m.workerCount, (s.workers k).pc = .stopped

section Inv

variable {m : FlowHashMode φ ρ} {s s' : DispatchState φ}

theorem forall_update {α : Type} {p : α → Prop} {f : Nat → α} (hf : ∀ k, p (f k)) (i : Nat) {a : α}
    (ha : p a) (k : Nat) : p (Function.update f i a k) := by
  by_cases hk : k = i
  · rw [hk, Function.update_self]
    exact ha
  · rw [Function.update_of_ne hk]
    exact hf k

/-- Between two bursts only packets for inactive ports are staged. -/
theorem DispatchWorker.Fits.inactive {w : DispatchWorker φ} (h : w.Fits m)
    (hpc : ∀ todo, w.pc ≠ .packets todo) :
    ∀ e ∈ indexed allPorts w.transmitBuffers, e.1 ∉ m.env.activePorts := by
  intro e he hactive
  have hmem := mem_of_mem_indexed he
  rw [h.flushed hpc e.1 hactive] at hmem
  exact List.not_mem_nil hmem

/-- With paired ports nothing is staged then. -/
theorem DispatchWorker.Fits.nothing {w : DispatchWorker φ} (h : w.Fits m)
    (hl2 : m.l3Forwarding = false) (hpc : ∀ todo, w.pc ≠ .packets todo) :
    indexed allPorts w.transmitBuffers = [] := by
  refine List.eq_nil_iff_forall_not_mem.mpr fun e he ↦ ?_
  exact h.inactive hpc e he (h.paired hl2 e.1 (List.ne_nil_of_mem (mem_of_mem_indexed he)))

/-- A worker that is not stopped shows that the main core is not behind `StopWorkers`. -/
theorem DispatchState.Inv.running (h : s.Inv m) {worker : Nat} (hworker : worker < m.workerCount)
    (hpc : (s.workers worker).pc ≠ .stopped) : ¬ (s.main = .stopped ∨ s.main = .destroyed) :=
  fun hmain ↦ hpc (h.stopped hmain worker hworker)

/-- The main core puts a packet into a ring, or frees it. -/
theorem DispatchState.Inv.dispatch (h : s.Inv m) {entry : BitVec 16 × Mbuf}
    {rest : List (BitVec 16 × Mbuf)} (hburst : s.dispatching = entry :: rest) :
    { m.dispatchPacketToWorker s entry.1 entry.2 with dispatching := rest }.Inv m := by
  have hports := List.forall_mem_cons.mp (hburst ▸ h.ports)
  have hquiet : s.main = .dispatch := by
    by_contra hmain
    rw [h.quiet hmain] at hburst
    cases hburst
  unfold FlowHashMode.dispatchPacketToWorker rteRingEnqueue
  dsimp only
  generalize (hashPacketFlow entry.2 entry.1).toNat % m.workerCount = worker
  by_cases hroom : (s.rings worker).length < rteRingCapacity m.dispatchQueueSize
  · rw [if_pos hroom]
    refine ⟨fun k ↦ ?_, fun k ↦ ?_, ?_, h.fits, h.overwritten, h.kept, hports.2, fun k e he ↦ ?_,
      fun hmain ↦ absurd hquiet hmain, h.stopped⟩
    · by_cases hk : k = worker
      · subst hk
        dsimp only
        rw [Function.update_self, Function.update_self, h.ordered]
        simp only [List.append_assoc]
      · dsimp only
        rw [Function.update_of_ne hk, Function.update_of_ne hk]
        exact h.ordered k
    · by_cases hk : k = worker
      · subst hk
        dsimp only
        rw [Function.update_self, Function.update_self]
        exact (h.dispatched k).append_right _
      · dsimp only
        rw [Function.update_of_ne hk, Function.update_of_ne hk]
        exact h.dispatched k
    · refine forall_update (p := fun ring : List (BitVec 16 × Mbuf) ↦
        ring.length ≤ rteRingCapacity m.dispatchQueueSize) h.room worker ?_
      rw [List.length_append]
      exact hroom
    · have hnew := forall_update (p := fun log : List (BitVec 16 × Mbuf) ↦
        ∀ e ∈ log, e.1 ∈ m.env.activePorts) h.enqueuedPorts worker
        (a := s.enqueued worker ++ [(entry.1, entry.2)]) (List.forall_mem_append.mpr
          ⟨h.enqueuedPorts worker, List.forall_mem_singleton.mpr hports.1⟩)
      exact hnew k e he
  · rw [if_neg hroom]
    exact ⟨h.ordered, h.dispatched, h.room, h.fits, h.overwritten, h.kept, hports.2,
      h.enqueuedPorts, fun hmain ↦ absurd hquiet hmain, h.stopped⟩

/-- What a step of a worker does to the rings. -/
theorem Settles.rings_append {receivePort : BitVec 16} {rings rings' : DispatchRings}
    {st st' : BurstState cap Mbuf (φ × DispatchRings × ρ)} {chain : Option Mbuf}
    (h : Settles m receivePort rings rings' st st' chain) (k : Nat) :
    rings' k = rings k ++ (rings' k).drop (rings k).length ∧
      (∀ e ∈ (rings' k).drop (rings k).length, e.1 = receivePort) ∧
      ((rings k).length ≤ rteRingCapacity m.dispatchQueueSize →
        (rings' k).length ≤ rteRingCapacity m.dispatchQueueSize) := by
  have hsame : rings' = rings → rings' k = rings k ++ (rings' k).drop (rings k).length ∧
      (∀ e ∈ (rings' k).drop (rings k).length, e.1 = receivePort) ∧
      ((rings k).length ≤ rteRingCapacity m.dispatchQueueSize →
        (rings' k).length ≤ rteRingCapacity m.dispatchQueueSize) := by
    rintro rfl
    rw [List.drop_length, List.append_nil]
    exact ⟨rfl, List.forall_mem_nil _, id⟩
  cases h with
  | kept hrings hbuffers hfreed => exact hsame hrings
  | handedOn hrings hperm hlength hpaired => exact hsame hrings
  | @redispatched packet worker hworker hroom hrings hbuffers hfreed =>
      by_cases hk : k = worker
      · subst hk
        rw [hrings, Function.update_self, List.drop_left]
        refine ⟨rfl, List.forall_mem_singleton.mpr rfl, fun _ ↦ ?_⟩
        rw [List.length_append]
        exact hroom
      · rw [hrings, Function.update_of_ne hk, List.drop_length, List.append_nil]
        exact ⟨rfl, List.forall_mem_nil _, id⟩

/-- A worker has one packet less to forward, and one more staged at most. -/
theorem Settles.fits {receivePort : BitVec 16} (hport : receivePort ∈ m.env.activePorts)
    {rings rings' : DispatchRings} {st st' : BurstState cap Mbuf (φ × DispatchRings × ρ)}
    {chain : Option Mbuf} (h : Settles m receivePort rings rings' st st' chain)
    {w : DispatchWorker φ} {entry : BitVec 16 × Mbuf} {todo : List (BitVec 16 × Mbuf)}
    (hpc : w.pc = .packets (entry :: todo)) (hbuffers : st.transmitBuffers = w.transmitBuffers)
    (hfits : w.Fits m) (fragments : φ) :
    DispatchWorker.Fits m { w with
      pc := .packets todo, fragments, transmitBuffers := st'.transmitBuffers } := by
  have hstaged := hfits.staged
  rw [hpc] at hstaged
  have hlength : ∀ q, (st'.transmitBuffers q).length ≤ (w.transmitBuffers q).length + 1 := by
    intro q
    cases h with
    | kept hrings hst hfreed => rw [hst, hbuffers]; omega
    | redispatched worker hworker hroom hrings hst hfreed => rw [hst, hbuffers]; omega
    | handedOn hrings hperm hlength hpaired => exact hbuffers ▸ hlength q
  refine ⟨fun q ↦ ?_, fun hpc ↦ absurd rfl (hpc todo), fun hl2 q hq ↦ ?_⟩
  · have hold := hstaged q
    have hnew := hlength q
    rw [DispatchPc.todo_packets, List.length_cons] at hold
    rw [DispatchPc.todo_packets]
    dsimp only
    omega
  · by_contra hactive
    have hnone : w.transmitBuffers q = [] := by
      by_contra hne
      exact hactive (hfits.paired hl2 q hne)
    have hsame : (st'.transmitBuffers q).length ≤ (st.transmitBuffers q).length := by
      cases h with
      | kept hrings hst hfreed => rw [hst]
      | redispatched worker hworker hroom hrings hst hfreed => rw [hst]
      | handedOn hrings hperm hlength hpaired =>
          exact hpaired hl2 q fun heq ↦
            hactive (heq ▸ getTransmitPort_mem m.env.active_nodup hport)
    rw [hbuffers, hnone] at hsame
    exact hq (List.length_eq_zero_iff.mp (Nat.le_zero.mp hsame))

/-- A worker forwards a packet. -/
theorem DispatchState.Inv.forward (h : s.Inv m) {worker : Nat} (hworker : worker < m.workerCount)
    {entry : BitVec 16 × Mbuf} {todo : List (BitVec 16 × Mbuf)}
    (hpc : (s.workers worker).pc = .packets (entry :: todo)) (ctx : WorkerContext)
    (flowTable : FlowTable cap) (rest : ρ) :
    (m.forwardFirst s worker ctx flowTable rest entry todo).Inv m := by
  have hport : entry.1 ∈ m.env.activePorts := by
    refine h.enqueuedPorts worker entry ?_
    rw [h.ordered, hpc]
    exact List.mem_append_right _ (List.mem_append_left _ List.mem_cons_self)
  have hrunning := h.running hworker (by rw [hpc]; nofun)
  obtain ⟨-, hsettles⟩ := settles_forwardPacket (m := m) ctx worker
    (s.workers worker).currentBurstTsc entry.2 entry.1
    { flowTable, transmitBuffers := (s.workers worker).transmitBuffers
      world := ((s.workers worker).fragments, s.rings, rest) }
  unfold FlowHashMode.forwardFirst
  dsimp only at hsettles ⊢
  generalize forwardPacket _ _ _ _ _ = st' at hsettles ⊢
  refine ⟨fun k ↦ ?_, fun k ↦ (h.dispatched k).trans (List.sublist_append_left _ _),
    fun k ↦ (hsettles.rings_append k).2.2 (h.room k),
    forall_update (p := DispatchWorker.Fits m) h.fits worker
      (hsettles.fits hport hpc rfl (h.fits worker) _),
    h.overwritten, h.kept, h.ports,
    fun k ↦ List.forall_mem_append.mpr ⟨h.enqueuedPorts k, fun e he ↦ ?_⟩,
    h.quiet, fun hmain ↦ absurd hmain hrunning⟩
  · have hrings := (hsettles.rings_append k).1
    dsimp only
    by_cases hk : k = worker
    · subst hk
      rw [Function.update_self, Function.update_self, h.ordered, hpc, hrings, List.drop_left]
      simp only [DispatchPc.todo_packets, List.append_assoc, List.cons_append, List.nil_append]
    · rw [Function.update_of_ne hk, Function.update_of_ne hk, h.ordered, hrings, List.drop_left]
      simp only [List.append_assoc]
  · exact (hsettles.rings_append k).2.1 e he ▸ hport

/-- A worker takes a burst from its ring. -/
theorem DispatchState.Inv.dequeue (h : s.Inv m) {worker : Nat} (hworker : worker < m.workerCount)
    (hpc : (s.workers worker).pc = .receive) (tsc : BitVec 64) :
    DispatchState.Inv m { s with
      rings := (rteRingScDequeueBurst worker m.burstSize s.rings).2
      workers := Function.update s.workers worker { s.workers worker with
        pc := .packets (rteRingScDequeueBurst worker m.burstSize s.rings).1
        currentBurstTsc := tsc, transmitBuffers := fun _ ↦ [] }
      overwritten := s.overwritten ++
        indexed allPorts (s.workers worker).transmitBuffers } := by
  have hrunning := h.running hworker (by rw [hpc]; nofun)
  have hover : ∀ e ∈ indexed allPorts (s.workers worker).transmitBuffers,
      e.1 ∉ m.env.activePorts := (h.fits worker).inactive (by rw [hpc]; nofun)
  unfold rteRingScDequeueBurst
  refine ⟨fun k ↦ ?_, h.dispatched, ?_, ?_, List.forall_mem_append.mpr ⟨h.overwritten, hover⟩,
    fun hl2 ↦ ?_, h.ports, h.enqueuedPorts, h.quiet, fun hmain ↦ absurd hmain hrunning⟩
  · dsimp only
    by_cases hk : k = worker
    · subst hk
      rw [Function.update_self, Function.update_self, h.ordered, hpc, DispatchPc.todo_packets,
        DispatchPc.todo_receive, List.take_append_drop, List.nil_append]
    · rw [Function.update_of_ne hk, Function.update_of_ne hk]
      exact h.ordered k
  · refine forall_update (p := fun ring : List (BitVec 16 × Mbuf) ↦
      ring.length ≤ rteRingCapacity m.dispatchQueueSize) h.room worker ?_
    exact ((s.rings worker).drop_sublist _).length_le.trans (h.room worker)
  · refine forall_update (p := DispatchWorker.Fits m) h.fits worker
      ⟨fun q ↦ ?_, fun _ _ _ ↦ rfl, fun _ q hq ↦ absurd rfl hq⟩
    rw [DispatchPc.todo_packets, List.length_nil, Nat.zero_add]
    exact List.length_take_le ..
  · dsimp only
    rw [h.kept hl2, (h.fits worker).nothing hl2 (by rw [hpc]; nofun)]
    rfl

/-- A worker sends what it has staged. -/
theorem DispatchState.Inv.flush (h : s.Inv m) {worker : Nat} (hworker : worker < m.workerCount)
    (hpc : (s.workers worker).pc = .packets []) (ctx : WorkerContext) (flowTable : FlowTable cap)
    (accepted : BitVec 16 → Nat) : (m.flushWorker s worker ctx flowTable accepted).Inv m := by
  have hrunning := h.running hworker (by rw [hpc]; nofun)
  have hbuffers := foldl_flushPort_buffers accepted
    (m.context ctx worker (s.workers worker).currentBurstTsc).activePorts
    ([], ({ flowTable, transmitBuffers := (s.workers worker).transmitBuffers, world := () } :
      BurstState cap Mbuf Unit))
  unfold FlowHashMode.flushWorker flushTransmitBuffers
  dsimp only
  generalize List.foldl (flushPort accepted) _ _ = r at hbuffers ⊢
  refine ⟨fun k ↦ ?_, h.dispatched, h.room, ?_, h.overwritten, h.kept, h.ports, h.enqueuedPorts,
    h.quiet, fun hmain ↦ absurd hmain hrunning⟩
  · dsimp only
    by_cases hk : k = worker
    · subst hk
      rw [Function.update_self, h.ordered, hpc]
      rfl
    · rw [Function.update_of_ne hk]
      exact h.ordered k
  · refine forall_update (p := DispatchWorker.Fits m) h.fits worker
      ⟨fun q ↦ ?_, fun _ q hq ↦ (hbuffers q).trans (if_pos hq), fun hl2 q hq ↦ ?_⟩
    · have hold := (h.fits worker).staged q
      have hle : (r.2.transmitBuffers q).length ≤
          ((s.workers worker).transmitBuffers q).length := by
        rw [hbuffers]
        split
        · exact Nat.zero_le _
        · exact le_rfl
      rw [DispatchPc.todo_check]
      exact (Nat.add_le_add_right hle 0).trans ((Nat.le_add_right _ _).trans hold)
    · dsimp only at hq
      rw [hbuffers] at hq
      split at hq
      · exact absurd rfl hq
      · exact (h.fits worker).paired hl2 q hq

/-- Every step. -/
theorem DispatchState.Inv.step (h : s.Inv m) {a : DispatchAction cap ρ}
    (hstep : m.step s a = some s') : s'.Inv m := by
  cases a with
  | receive portId packets =>
      obtain ⟨⟨hmain, -, hactive, -⟩, hs'⟩ := Option.ite_none_right_eq_some.mp hstep
      obtain rfl := Option.some.inj hs'
      refine ⟨h.ordered, h.dispatched, h.room, h.fits, h.overwritten, h.kept, fun e he ↦ ?_,
        h.enqueuedPorts, fun hne ↦ absurd hmain hne, h.stopped⟩
      obtain ⟨packet, -, rfl⟩ := List.mem_map.mp he
      exact hactive
  | dispatch =>
      unfold FlowHashMode.step at hstep
      cases hburst : s.dispatching with
      | nil =>
          rw [hburst] at hstep
          cases hstep
      | cons entry rest =>
          rw [hburst] at hstep
          obtain rfl := Option.some.inj hstep
          exact h.dispatch hburst
  | quit =>
      obtain ⟨⟨-, hempty⟩, hs'⟩ := Option.ite_none_right_eq_some.mp hstep
      obtain rfl := Option.some.inj hs'
      refine ⟨h.ordered, h.dispatched, h.room, h.fits, h.overwritten, h.kept, h.ports,
        h.enqueuedPorts, fun _ ↦ hempty, fun hmain ↦ ?_⟩
      rcases hmain with hmain | hmain
      · cases hmain
      · cases hmain
  | check worker =>
      obtain ⟨⟨hworker, hpc⟩, hs'⟩ := Option.ite_none_right_eq_some.mp hstep
      obtain rfl := Option.some.inj hs'
      have hrunning := h.running hworker (by rw [hpc]; nofun)
      have htodo : (if s.main = .dispatch then DispatchPc.receive else .stopped).todo = [] := by
        split
        · rfl
        · rfl
      refine ⟨fun k ↦ ?_, h.dispatched, h.room,
        forall_update (p := DispatchWorker.Fits m) h.fits worker
          ⟨fun q ↦ ?_, fun _ ↦ (h.fits worker).flushed (by rw [hpc]; nofun),
            (h.fits worker).paired⟩,
        h.overwritten, h.kept, h.ports, h.enqueuedPorts, h.quiet,
        fun hmain ↦ absurd hmain hrunning⟩
      · dsimp only
        by_cases hk : k = worker
        · subst hk
          rw [Function.update_self, h.ordered, hpc]
          dsimp only
          rw [htodo]
          rfl
        · rw [Function.update_of_ne hk]
          exact h.ordered k
      · have hold := (h.fits worker).staged q
        dsimp only
        rw [htodo]
        exact (Nat.add_le_add_left (Nat.zero_le _) _).trans hold
  | dequeue worker tsc =>
      obtain ⟨⟨hworker, hpc⟩, hs'⟩ := Option.ite_none_right_eq_some.mp hstep
      obtain rfl := Option.some.inj hs'
      exact h.dequeue hworker hpc tsc
  | forward worker ctx flowTable rest =>
      obtain ⟨hworker, hs'⟩ := Option.ite_none_right_eq_some.mp hstep
      cases hpc : (s.workers worker).pc with
      | packets todo =>
          rw [hpc] at hs'
          cases todo with
          | nil => cases hs'
          | cons entry todo =>
              obtain rfl := Option.some.inj hs'
              exact h.forward hworker hpc ctx flowTable rest
      | _ =>
          rw [hpc] at hs'
          cases hs'
  | flush worker ctx flowTable accepted =>
      obtain ⟨⟨hworker, hpc⟩, hs'⟩ := Option.ite_none_right_eq_some.mp hstep
      obtain rfl := Option.some.inj hs'
      exact h.flush hworker hpc ctx flowTable accepted
  | join tsc =>
      obtain ⟨⟨hmain, hstopped⟩, hs'⟩ := Option.ite_none_right_eq_some.mp hstep
      obtain rfl := Option.some.inj hs'
      refine ⟨h.ordered, h.dispatched, h.room,
        fun k ↦ ⟨(h.fits k).staged, (h.fits k).flushed, (h.fits k).paired⟩,
        h.overwritten, h.kept, h.ports, h.enqueuedPorts, fun _ ↦ h.quiet ?_, fun _ ↦ hstopped⟩
      rw [hmain]
      nofun
  | destroyRings =>
      obtain ⟨hmain, hs'⟩ := Option.ite_none_right_eq_some.mp hstep
      obtain rfl := Option.some.inj hs'
      refine ⟨h.ordered, h.dispatched, h.room, h.fits, h.overwritten, h.kept, h.ports,
        h.enqueuedPorts, fun _ ↦ h.quiet ?_, fun _ ↦ h.stopped (.inl hmain)⟩
      rw [hmain]
      nofun

/-- Every run. -/
theorem dispatchInv_of_reach (h : (m.runs cap).Reach s) : s.Inv m := by
  refine h.invariant ?_ fun s a s' hs hstep ↦ hs.step hstep
  rintro s rfl
  refine ⟨fun _ ↦ rfl, fun _ ↦ .slnil, fun _ ↦ Nat.zero_le _,
    fun _ ↦ ⟨fun _ ↦ Nat.zero_le _, fun _ _ _ ↦ rfl, ?_⟩, List.forall_mem_nil _, fun _ ↦ rfl,
    List.forall_mem_nil _, fun _ ↦ List.forall_mem_nil _, fun _ ↦ rfl, ?_⟩
  · intro _ q hq
    exact absurd rfl hq
  · rintro (hmain | hmain)
    · cases hmain
    · cases hmain

end Inv

/-! ## Runs -/

/-- What was sent or freed. -/
def DispatchState.settled (n : Nat) (released : φ → List Nat) (s : DispatchState φ) : List Nat :=
  mbufsOf (s.sent ++ s.freed) ++ (List.range n).flatMap fun k ↦ released (s.workers k).fragments

/-- What is in a ring or in a fragment table. -/
def DispatchState.stranded (n : Nat) (inTable : φ → List Nat) (s : DispatchState φ) : List Nat :=
  s.inRings n ++ (List.range n).flatMap fun k ↦ inTable (s.workers k).fragments

/-- What is staged, or was when the counts of the buffers were set to zero, with the ports. -/
def DispatchState.leftStaged (n : Nat) (s : DispatchState φ) : List (BitVec 16 × Mbuf) :=
  s.overwritten ++ (List.range n).flatMap fun k ↦ indexed allPorts (s.workers k).transmitBuffers

section Runs

variable {m : FlowHashMode φ ρ} {s s' : DispatchState φ}

/-- The mbufs that are left in staging buffers, counted. -/
theorem DispatchState.count_leftStaged (n : Nat) (s : DispatchState φ) (b : Nat) :
    (mbufsOf ((s.leftStaged n).map Prod.snd)).count b =
      (mbufsOf (s.overwritten.map Prod.snd)).count b + ((List.range n).flatMap fun k ↦
        mbufsOf (allPorts.flatMap (s.workers k).transmitBuffers)).count b := by
  have hworkers : mbufsOf (((List.range n).flatMap fun k ↦
      indexed allPorts (s.workers k).transmitBuffers).map Prod.snd) =
        (List.range n).flatMap fun k ↦
          mbufsOf (allPorts.flatMap (s.workers k).transmitBuffers) := by
    unfold mbufsOf
    rw [List.map_flatMap, List.flatMap_assoc]
    exact List.flatMap_congr fun k _ ↦ by rw [map_snd_indexed]
  rw [leftStaged, List.map_append, count_mbufsOf_append, hworkers]

/-- Behind `StopWorkers` the cores have nothing in their hands. -/
theorem DispatchState.Accounts.settled {inTable released : φ → List Nat}
    (h : s.Accounts m.workerCount fun t ↦ inTable t ++ released t) (hinv : s.Inv m)
    (hmain : s.main = .stopped ∨ s.main = .destroyed) :
    (mbufsOf s.received).Perm (s.settled m.workerCount released ++
      (s.stranded m.workerCount inTable ++
        mbufsOf ((s.leftStaged m.workerCount).map Prod.snd))) := by
  refine List.perm_iff_count.mpr fun b ↦ ?_
  have hb := h b
  have hquiet : s.dispatching = [] := by
    refine hinv.quiet ?_
    rcases hmain with hmain | hmain
    · rw [hmain]
      nofun
    · rw [hmain]
      nofun
  have hworkers : ((List.range m.workerCount).flatMap fun k ↦
      (s.workers k).mbufs fun t ↦ inTable t ++ released t) =
        (List.range m.workerCount).flatMap fun k ↦
          mbufsOf (allPorts.flatMap (s.workers k).transmitBuffers) ++
            (inTable (s.workers k).fragments ++ released (s.workers k).fragments) := by
    refine List.flatMap_congr fun k hk ↦ ?_
    rw [DispatchWorker.mbufs, hinv.stopped hmain k (List.mem_range.mp hk)]
    rfl
  have hnil : (mbufsOf (([] : List (BitVec 16 × Mbuf)).map Prod.snd)).count b = 0 :=
    List.count_nil
  have happend : ∀ f g : Nat → List Nat,
      ((List.range m.workerCount).flatMap fun k ↦ f k ++ g k).count b =
        ((List.range m.workerCount).flatMap f).count b +
          ((List.range m.workerCount).flatMap g).count b := fun f g ↦
    ((List.flatMap_append_perm _ f g).count_eq b).symm.trans (List.count_append ..)
  rw [DispatchState.count_mbufs, hquiet, hworkers, happend, happend] at hb
  unfold DispatchState.settled DispatchState.stranded
  simp only [List.count_append, count_mbufsOf_append, DispatchState.count_leftStaged]
  omega

/-- Only packets for inactive ports are left. -/
theorem DispatchState.Inv.leftStaged (h : s.Inv m)
    (hmain : s.main = .stopped ∨ s.main = .destroyed) :
    (∀ e ∈ s.leftStaged m.workerCount, e.1 ∉ m.env.activePorts) ∧
      (m.l3Forwarding = false → s.leftStaged m.workerCount = []) := by
  have hpc : ∀ k ∈ List.range m.workerCount, ∀ todo, (s.workers k).pc ≠ .packets todo := by
    intro k hk todo
    rw [h.stopped hmain k (List.mem_range.mp hk)]
    nofun
  refine ⟨List.forall_mem_append.mpr ⟨h.overwritten, fun e he ↦ ?_⟩, fun hl2 ↦ ?_⟩
  · obtain ⟨k, hk, he⟩ := List.mem_flatMap.mp he
    exact (h.fits k).inactive (hpc k hk) e he
  · rw [DispatchState.leftStaged, h.kept hl2, List.nil_append]
    exact List.flatMap_eq_nil_iff.mpr fun k hk ↦ (h.fits k).nothing hl2 (hpc k hk)

end Runs

/-- **Mbufs are conserved in flow-hash mode**, whatever the order of the steps of the cores and
whatever the rings refuse: an mbuf that was received is in one place, as often as it was received,
or it was lost when a worker began a burst while it was staged for an inactive port, which only
routes choose.  When the mode has ended, all have been sent or freed but for those in the rings and
in the fragment tables, and those that were staged for an inactive port. -/
theorem flowHash_mbufs_conserved (m : FlowHashMode φ ρ) {inTable released : φ → List Nat}
    (hkeeps : m.tables.Keeps fun t ↦ inTable t ++ released t) {s : DispatchState φ}
    (h : (m.runs cap).Reach s) :
    (mbufsOf s.received).Perm (s.mbufs m.workerCount fun t ↦ inTable t ++ released t) ∧
      (∀ e ∈ s.overwritten, e.1 ∉ m.env.activePorts) ∧
      (m.l3Forwarding = false → s.overwritten = []) ∧
      (s.main = .destroyed →
        (mbufsOf s.received).Perm (s.settled m.workerCount released ++
          (s.stranded m.workerCount inTable ++
            mbufsOf ((s.leftStaged m.workerCount).map Prod.snd))) ∧
        (∀ e ∈ s.leftStaged m.workerCount, e.1 ∉ m.env.activePorts) ∧
        (m.l3Forwarding = false → s.leftStaged m.workerCount = [])) := by
  have haccounts := accounts_of_reach hkeeps h
  have hinv := dispatchInv_of_reach h
  exact ⟨List.perm_iff_count.mpr haccounts, hinv.overwritten, hinv.kept, fun hmain ↦
    ⟨haccounts.settled hinv (.inr hmain), hinv.leftStaged (.inr hmain)⟩⟩

/-- Tables of fragment pairs, in which nothing expires. -/
def pairTables : FragTables (List (Mbuf × Nat)) where
  toFragLibrary := pairLibrary
  create := []
  delExpiredEntries := fun _ fragments ↦ fragments

theorem pairTables_keeps : pairTables.Keeps fun t ↦ heldPairs t ++ [] := by
  refine ⟨?_, rfl, fun _ _ ↦ .refl _⟩
  simp only [List.append_nil]
  exact pairLibrary_owns

/-- Two workers, with rings of seven packets. -/
def twoDispatchWorkers : FlowHashMode (List (Mbuf × Nat)) Unit where
  env := threePorts
  workerCount := 2
  workers_pos := by decide
  burstSize := 32
  dispatchQueueSize := 8
  l3Forwarding := false
  fragmentCleanupIntervalCycles := 1000
  fragmentTimeoutCycles := 1000
  ck := zeroCksums
  tables := pairTables
  svc := bareServices

/-- A whole packet is sent by one worker, and the other one stops before it takes a fragment. -/
def dispatchTrace : Option (DispatchState (List (Mbuf × Nat))) :=
  ([.receive 0 [ackDatagram.inMbuf 3, ackFirst.inMbuf 1], .dispatch, .dispatch, .check 1,
      .dequeue 1 5, .forward 1 (oneOfTwo 1) (.new 8 true) (),
      .flush 1 (oneOfTwo 1) (.new 8 true) fun _ ↦ 8, .quit, .check 0, .check 1, .join fun _ ↦ 9,
      .destroyRings] : List (DispatchAction 8 Unit)).foldlM
    twoDispatchWorkers.step { workers := fun _ ↦ { fragments := pairTables.create } }

theorem exists_dispatchTrace : ∃ s, dispatchTrace = some s ∧
    (s.main, s.sent.length, (s.rings 0).length) = (.destroyed, 1, 1) :=
  Option.map_eq_some_iff.mp (by decide +kernel : dispatchTrace.map (fun s ↦
    (s.main, s.sent.length, (s.rings 0).length)) = some (.destroyed, 1, 1))

/-- The mbufs of that run. -/
theorem flowHash_mbufs_conserved_trace : ∃ s, dispatchTrace = some s ∧ s.sent.length = 1 ∧
    (mbufsOf s.received).Perm (s.settled 2 (fun _ ↦ []) ++
      (s.stranded 2 heldPairs ++ mbufsOf ((s.leftStaged 2).map Prod.snd))) ∧
    s.leftStaged 2 = [] := by
  obtain ⟨s, hs, hend⟩ := exists_dispatchTrace
  obtain ⟨hmain, hsent, -⟩ : s.main = .destroyed ∧ s.sent.length = 1 ∧ (s.rings 0).length = 1 := by
    simpa only [Prod.mk.injEq] using hend
  obtain ⟨-, -, -, hlast⟩ :=
    flowHash_mbufs_conserved twoDispatchWorkers pairTables_keeps (System.reach_foldlM _ hs)
  obtain ⟨hperm, -, hempty⟩ := hlast hmain
  exact ⟨s, hs, hsent, hperm, hempty rfl⟩

/-- **Rings keep the order.**  Each worker forwards what was put into its ring, each packet once
and in that order, so that packets the main core has put there are never exchanged; no ring holds
more than it has room for, and a staging buffer never gets more than one burst, with routes
too. -/
theorem flowHash_keeps_order (m : FlowHashMode φ ρ) {s : DispatchState φ}
    (h : (m.runs cap).Reach s) (worker : Nat) :
    s.enqueued worker =
        s.forwarded worker ++ ((s.workers worker).pc.todo ++ s.rings worker) ∧
      (s.dispatched worker).Sublist (s.enqueued worker) ∧
      (s.rings worker).length ≤ rteRingCapacity m.dispatchQueueSize ∧
      ∀ q, ((s.workers worker).transmitBuffers q).length ≤ m.burstSize := by
  have hinv := dispatchInv_of_reach h
  exact ⟨hinv.ordered worker, hinv.dispatched worker, hinv.room worker, fun q ↦
    (Nat.le_add_right _ _).trans ((hinv.fits worker).staged q)⟩

/-- The ring of the worker that stops. -/
theorem flowHash_keeps_order_trace : ∃ s, dispatchTrace = some s ∧ (s.rings 0).length = 1 ∧
    s.enqueued 0 = s.forwarded 0 ++ ((s.workers 0).pc.todo ++ s.rings 0) := by
  obtain ⟨s, hs, hend⟩ := exists_dispatchTrace
  obtain ⟨-, -, hring⟩ : s.main = .destroyed ∧ s.sent.length = 1 ∧ (s.rings 0).length = 1 := by
    simpa only [Prod.mk.injEq] using hend
  exact ⟨s, hs, hring,
    (flowHash_keeps_order twoDispatchWorkers (System.reach_foldlM _ hs) 0).1⟩

/-! ### The end of a run -/

section Shutdown

variable {m : FlowHashMode φ ρ} {packets : List Mbuf}

/-- The packets were received and are in the rings, and no worker has done anything with them. -/
structure DispatchState.Filled (m : FlowHashMode φ ρ) (packets : List Mbuf)
    (s : DispatchState φ) : Prop where
  dispatching : s.dispatching = []
  received : s.received = packets
  nothingSent : s.sent = []
  nothingFreed : s.freed = []
  nothingOverwritten : s.overwritten = []
  buffers : ∀ k q, (s.workers k).transmitBuffers q = []
  fragments : ∀ k, (s.workers k).fragments = m.tables.create
  rings : ∀ k, (s.rings k).length ≤ packets.length

/-- The main core fills the rings before any worker starts. -/
theorem exists_filled (cap : Nat) (hburst : 0 < m.burstSize) {portId : BitVec 16}
    (hactive : portId ∈ m.env.activePorts)
    (hroom : packets.length ≤ rteRingCapacity m.dispatchQueueSize) :
    ∃ s, (m.runs cap).Reach s ∧ s.Filled m packets ∧ s.main = .dispatch ∧
      ∀ k, (s.workers k).pc = .check := by
  induction packets using List.reverseRecOn with
  | nil => exact ⟨_, .init rfl, ⟨rfl, rfl, rfl, rfl, rfl, fun _ _ ↦ rfl, fun _ ↦ rfl,
      fun _ ↦ le_rfl⟩, rfl, fun _ ↦ rfl⟩
  | append_singleton packets packet ih =>
      rw [List.length_append, List.length_singleton] at hroom
      obtain ⟨s, hs, hfilled, hmain, hpc⟩ := ih (by omega)
      let s₁ : DispatchState φ := { s with
        dispatching := [(portId, packet)], received := s.received ++ [packet] }
      have hreceive : m.step s (.receive portId [packet] : DispatchAction cap ρ) = some s₁ :=
        if_pos ⟨hmain, hfilled.dispatching, hactive, hburst⟩
      let worker := (hashPacketFlow packet portId).toNat % m.workerCount
      have hfits : (s.rings worker).length < rteRingCapacity m.dispatchQueueSize :=
        (hfilled.rings worker).trans_lt (by omega)
      let s₂ : DispatchState φ := { s₁ with
        dispatching := []
        rings := Function.update s.rings worker (s.rings worker ++ [(portId, packet)])
        dispatched :=
          Function.update s.dispatched worker (s.dispatched worker ++ [(portId, packet)])
        enqueued := Function.update s.enqueued worker (s.enqueued worker ++ [(portId, packet)]) }
      have hdispatch : m.step s₁ (.dispatch : DispatchAction cap ρ) = some s₂ := by
        have henqueue : rteRingEnqueue m.dispatchQueueSize worker (portId, packet) s.rings =
            (true, Function.update s.rings worker (s.rings worker ++ [(portId, packet)])) :=
          if_pos hfits
        have hstep : m.step s₁ (.dispatch : DispatchAction cap ρ) =
            some { m.dispatchPacketToWorker s₁ portId packet with dispatching := [] } := rfl
        rw [hstep, FlowHashMode.dispatchPacketToWorker]
        dsimp only
        rw [henqueue]
      refine ⟨s₂, (hs.step hreceive).step hdispatch, ?_, hmain, hpc⟩
      refine ⟨rfl, congrArg (· ++ [packet]) hfilled.received, hfilled.nothingSent,
        hfilled.nothingFreed, hfilled.nothingOverwritten, hfilled.buffers, hfilled.fragments, ?_⟩
      rw [List.length_append, List.length_singleton]
      refine forall_update (p := fun ring : List (BitVec 16 × Mbuf) ↦
        ring.length ≤ packets.length + 1) (fun k ↦ (hfilled.rings k).trans (Nat.le_succ _)) worker
        ?_
      rw [List.length_append]
      exact Nat.succ_le_succ (hfilled.rings worker)

/-- Workers that have not started when `force_quit` is set stop at once. -/
theorem exists_stopped {s : DispatchState φ} (hs : (m.runs cap).Reach s)
    (hfilled : s.Filled m packets) (hmain : s.main = .dispatch)
    (hpc : ∀ k, (s.workers k).pc = .check) (n : Nat) (hn : n ≤ m.workerCount) :
    ∃ s', (m.runs cap).Reach s' ∧ s'.Filled m packets ∧ s'.main = .stopWorkers ∧
      ∀ k, (s'.workers k).pc = if k < n then .stopped else .check := by
  induction n with
  | zero =>
      refine ⟨{ s with main := .stopWorkers },
        hs.step (a := .quit) (if_pos ⟨hmain, hfilled.dispatching⟩), ?_, rfl, hpc⟩
      exact ⟨hfilled.dispatching, hfilled.received, hfilled.nothingSent, hfilled.nothingFreed,
        hfilled.nothingOverwritten, hfilled.buffers, hfilled.fragments, hfilled.rings⟩
  | succ n ih =>
      obtain ⟨s', hs', hfilled', hmain', hpc'⟩ := ih (by omega)
      have hcheck : (s'.workers n).pc = .check := (hpc' n).trans (if_neg (lt_irrefl n))
      have hquit : (if s'.main = .dispatch then DispatchPc.receive else .stopped) = .stopped :=
        if_neg (by rw [hmain']; nofun)
      refine ⟨_, hs'.step (a := .check n) (if_pos ⟨hn, hcheck⟩), ?_, hmain', fun k ↦ ?_⟩
      · refine ⟨hfilled'.dispatching, hfilled'.received, hfilled'.nothingSent,
          hfilled'.nothingFreed, hfilled'.nothingOverwritten, ?_, ?_, hfilled'.rings⟩
        · exact forall_update (p := fun w : DispatchWorker φ ↦ ∀ q, w.transmitBuffers q = [])
            hfilled'.buffers n (hfilled'.buffers n)
        · exact forall_update (p := fun w : DispatchWorker φ ↦ w.fragments = m.tables.create)
            hfilled'.fragments n (hfilled'.fragments n)
      · dsimp only
        by_cases hk : k = n
        · subst hk
          rw [Function.update_self, if_pos (Nat.lt_succ_self k)]
          exact hquit
        · rw [Function.update_of_ne hk, hpc']
          exact if_congr (by omega) rfl rfl

end Shutdown

/-- **The end of flow-hash mode loses what is in the rings.**  Any packets that fit into one ring
can be received and put into the rings before `force_quit` is set; then no worker takes them, and
when the rings are destroyed their mbufs are neither sent nor freed nor in a fragment table. -/
theorem flowHash_shutdown_loses (m : FlowHashMode φ ρ) {inTable released : φ → List Nat}
    (hkeeps : m.tables.Keeps fun t ↦ inTable t ++ released t) (cap : Nat)
    (hburst : 0 < m.burstSize) {packets : List Mbuf}
    (hroom : packets.length ≤ rteRingCapacity m.dispatchQueueSize) :
    ∃ s, (m.runs cap).Reach s ∧ s.main = .destroyed ∧ s.received = packets ∧
      s.settled m.workerCount released = [] ∧
      (mbufsOf packets).Perm (s.inRings m.workerCount) := by
  obtain ⟨portId, hactive⟩ := List.exists_mem_of_ne_nil _ m.env.active_ne_nil
  obtain ⟨s, hs, hfilled, hmain, hpc⟩ := exists_filled cap hburst hactive hroom
  obtain ⟨s', hs', hfilled', hmain', hpc'⟩ :=
    exists_stopped hs hfilled hmain hpc m.workerCount le_rfl
  have hstopped : ∀ k < m.workerCount, (s'.workers k).pc = .stopped :=
    fun k hk ↦ (hpc' k).trans (if_pos hk)
  let s₁ : DispatchState φ := { s' with
    main := .stopped
    workers := fun k ↦ { s'.workers k with
      fragments := m.tables.delExpiredEntries (0 + m.fragmentTimeoutCycles)
        (s'.workers k).fragments } }
  have hjoin : m.step s' (.join fun _ ↦ 0 : DispatchAction cap ρ) = some s₁ :=
    if_pos ⟨hmain', hstopped⟩
  have hdestroy : m.step s₁ (.destroyRings : DispatchAction cap ρ) =
      some { s₁ with main := .destroyed } := rfl
  have hend := (hs'.step hjoin).step hdestroy
  have htables : ∀ k, (inTable ((m.tables.delExpiredEntries
      (0 + m.fragmentTimeoutCycles) (s'.workers k).fragments)) ++
        released (m.tables.delExpiredEntries (0 + m.fragmentTimeoutCycles)
          (s'.workers k).fragments)) = [] := by
    intro k
    have hperm := hkeeps.delExpiredEntries (0 + m.fragmentTimeoutCycles) (s'.workers k).fragments
    rw [hfilled'.fragments, hkeeps.create] at hperm
    rw [hfilled'.fragments]
    exact hperm.eq_nil
  have hsettled : DispatchState.settled m.workerCount released
      { s₁ with main := .destroyed } = [] := by
    rw [DispatchState.settled]
    dsimp only [s₁]
    rw [hfilled'.nothingSent, hfilled'.nothingFreed]
    exact List.flatMap_eq_nil_iff.mpr fun k _ ↦ (List.append_eq_nil_iff.mp (htables k)).2
  have hleft : DispatchState.leftStaged m.workerCount { s₁ with main := .destroyed } = [] := by
    rw [DispatchState.leftStaged]
    dsimp only [s₁]
    rw [hfilled'.nothingOverwritten]
    refine List.flatMap_eq_nil_iff.mpr fun k _ ↦ List.flatMap_eq_nil_iff.mpr fun q _ ↦ ?_
    rw [hfilled'.buffers k q]
    rfl
  have hinTables : ((List.range m.workerCount).flatMap fun k ↦ inTable (s₁.workers k).fragments) =
      [] :=
    List.flatMap_eq_nil_iff.mpr fun k _ ↦ (List.append_eq_nil_iff.mp (htables k)).1
  refine ⟨_, hend, rfl, hfilled'.received, hsettled, ?_⟩
  have hperm := (accounts_of_reach hkeeps hend).settled (dispatchInv_of_reach hend) (.inr rfl)
  have hnothing : mbufsOf (([] : List (BitVec 16 × Mbuf)).map Prod.snd) = [] := rfl
  rw [hsettled, hleft, hnothing, DispatchState.stranded, hinTables] at hperm
  dsimp only [s₁] at hperm
  rw [hfilled'.received, List.append_nil, List.append_nil, List.nil_append] at hperm
  exact hperm

/-- Two fragments that nobody takes. -/
theorem flowHash_shutdown_loses_fragments : ∃ s, (twoDispatchWorkers.runs 8).Reach s ∧
    s.main = .destroyed ∧ s.received = [icmpFirst, icmpSecond] ∧ s.settled 2 (fun _ ↦ []) = [] ∧
    [1, 2].Perm (s.inRings 2) :=
  flowHash_shutdown_loses twoDispatchWorkers pairTables_keeps 8 (by decide) (by decide)

end DpdkSpi
