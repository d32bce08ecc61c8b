import DpdkSpi.Pipeline.Lookup
import DpdkSpi.Pipeline.Drop
import DpdkSpi.Pipeline.Effects
import DpdkSpi.Pipeline.Environment
import DpdkSpi.Pipeline.Pairing
import DpdkSpi.Pipeline.Worker

/-!
# The staging buffers of an iteration

The buffer of a port holds `kMaxBurstCapacity` packets, and nothing at the write checks that there
is room.  In an iteration every receive port may fill it with one burst.  Pairing gives each port
one receive port; a route gives it all receive ports but itself.
-/

namespace DpdkSpi

open Lib

variable {cap : Nat} {μ σ : Type}

/-! ## Growth -/

/-- Some packet received on a port can be staged for another one. -/
def Leads (ctx : WorkerContext) (receivePort transmitPort : BitVec 16) : Prop :=
  transmitPort.toNat < ctx.portCount ∧
    ∃ classification, resolveTransmitPort ctx classification receivePort = some transmitPort

section Growth

variable {ctx : WorkerContext} {receivePort q : BitVec 16} {isOpen : Bool}

theorem Disposes.length_le (hopen : isOpen = false → ¬ Leads ctx receivePort q)
    {svc : Services μ σ} {packet : μ}
    {classification : PacketClassification} {st st' : BurstState cap μ σ}
    (h : Disposes ctx svc packet receivePort classification st st') :
    (st'.transmitBuffers q).length ≤ (st.transmitBuffers q).length + isOpen.toNat := by
  cases h with
  | byRule hmatched hst =>
      subst hst
      exact Nat.le_add_right _ _
  | dropped hst =>
      subst hst
      exact Nat.le_add_right _ _
  | stuck transmitPort hst =>
      subst hst
      exact Nat.le_add_right _ _
  | enqueued transmitPort hport hlt hrewrite hst =>
      subst hst
      by_cases hq : q = transmitPort
      · subst hq
        cases isOpen with
        | false => exact absurd ⟨hlt, classification, hport⟩ (hopen rfl)
        | true =>
            rw [BurstState.enqueuePacket_self, List.length_append]
            exact le_rfl
      · rw [BurstState.enqueuePacket_of_ne _ hq]
        exact Nat.le_add_right _ _

theorem Finalizes.length_le (hopen : isOpen = false → ¬ Leads ctx receivePort q)
    {svc : Services μ σ} {st st' : BurstState cap μ σ} {slot : PacketSlot μ}
    (h : Finalizes ctx svc receivePort st st' slot) :
    (st'.transmitBuffers q).length ≤ (st.transmitBuffers q).length + isOpen.toNat := by
  cases h with
  | waiting hst =>
      subst hst
      exact Nat.le_add_right _ _
  | unmapped hst =>
      subst hst
      exact Nat.le_add_right _ _
  | mapped mid classification hdecides hdisposes =>
      rw [← hdecides.buffers]
      exact hdisposes.length_le hopen

theorem foldl_finalizePacket_length_le (hopen : isOpen = false → ¬ Leads ctx receivePort q)
    (svc : Services μ σ) (b : ParsedBurst) (spiMatches : List ClassificationResult)
    (slots : List (PacketSlot μ)) (st : BurstState cap μ σ) :
    ((slots.foldl (finalizePacket ctx svc receivePort b spiMatches) st).transmitBuffers q).length ≤
      (st.transmitBuffers q).length + isOpen.toNat * slots.length := by
  induction slots generalizing st with
  | nil => exact Nat.le_add_right _ _
  | cons slot slots ih =>
      have hone :=
        (finalizePacket_finalizes ctx svc receivePort b spiMatches st slot).length_le hopen
      have hrest := ih (finalizePacket ctx svc receivePort b spiMatches st slot)
      rw [List.foldl_cons, List.length_cons, Nat.mul_succ]
      omega

end Growth

/-- A burst up to the point where `k` of its packets have been decided. -/
def burstAfter (ctx : WorkerContext) (svc : Services μ σ) (portId : BitVec 16) (received : List μ)
    (k : Nat) (st : BurstState cap μ σ) : BurstState cap μ σ :=
  let opened := openBurst ctx svc received st
  beforePacket ctx svc portId opened.1.1 opened.1.2 opened.2 k

/-- Behind its last packet a burst is over. -/
theorem burstAfter_length (ctx : WorkerContext) (svc : Services μ σ) (portId : BitVec 16)
    (received : List μ) (st : BurstState cap μ σ) :
    burstAfter ctx svc portId received received.length st =
      processPortBurst ctx svc portId received st := by
  rw [processPortBurst_eq, burstAfter, ← (openBurst_frame ctx svc received st).1,
    beforePacket_length]

theorem burstAfter_length_le (ctx : WorkerContext) (svc : Services μ σ) {portId q : BitVec 16}
    {isOpen : Bool} (hopen : isOpen = false → ¬ Leads ctx portId q) {received : List μ}
    {burst : Nat} (hburst : received.length ≤ burst) (k : Nat) (st : BurstState cap μ σ) :
    ((burstAfter ctx svc portId received k st).transmitBuffers q).length ≤
      (st.transmitBuffers q).length + isOpen.toNat * burst := by
  obtain ⟨hlength, hbuffers, -⟩ := openBurst_frame ctx svc received st
  have hfold := foldl_finalizePacket_length_le hopen svc (openBurst ctx svc received st).1.2
    (spiResults svc ctx.rules (openBurst ctx svc received st).1.2
      (openBurst ctx svc received st).1.1)
    ((openBurst ctx svc received st).1.1.take k) (openBurst ctx svc received st).2
  rw [hbuffers, List.length_take, hlength] at hfold
  refine hfold.trans (Nat.add_le_add_left (Nat.mul_le_mul_left _ ?_) _)
  exact (Nat.min_le_right _ _).trans hburst

/-- The ports before have filled a buffer by one burst each, if they lead to it. -/
theorem processPorts_length_le {ctx : WorkerContext} (svc : Services μ σ)
    {polls : BitVec 16 → Poll μ} {burst : Nat} (hburst : ∀ p, (polls p).received.length ≤ burst)
    {q : BitVec 16} {isOpen : BitVec 16 → Bool}
    (hopen : ∀ p, isOpen p = false → ¬ Leads ctx p q) (ports : List (BitVec 16))
    (st : BurstState cap μ σ) :
    ((processPorts ctx svc polls ports st).transmitBuffers q).length ≤
      (st.transmitBuffers q).length + ports.countP isOpen * burst := by
  induction ports generalizing st with
  | nil => exact Nat.le_add_right _ _
  | cons portId ports ih =>
      let ctx' := { ctx with currentBurstTsc := (polls portId).tsc }
      have hport := burstAfter_length_le ctx' svc (hopen portId) (hburst portId)
        (polls portId).received.length st
      rw [burstAfter_length] at hport
      have hrest := ih (processPortBurst ctx' svc portId (polls portId).received st)
      have hcount : (portId :: ports).countP isOpen =
          (isOpen portId).toNat + ports.countP isOpen := by
        rw [List.countP_cons, Nat.add_comm]
        cases isOpen portId <;> rfl
      rw [hcount, Nat.add_mul]
      exact hrest.trans (by omega)

namespace QueueIteration

/-- The state when `k` packets of a port's burst have been decided, behind the bursts of other
ports. -/
def stateAt (i : QueueIteration cap μ σ) (done : List (BitVec 16)) (portId : BitVec 16) (k : Nat) :
    BurstState cap μ σ :=
  burstAfter { i.ctx with currentBurstTsc := (i.polls portId).tsc } i.svc portId
    (i.polls portId).received k (processPorts i.ctx i.svc i.polls done i.start)

/-- **Staging buffers do not overflow**: behind every packet of the iteration, each buffer holds
at most `kMaxBurstCapacity` packets.  A packet is written at the index that is the length before
it, so that this is a bound for the writes too. -/
def StagingFits (i : QueueIteration cap μ σ) : Prop :=
  ∀ done portId rest, i.ctx.activePorts = done ++ portId :: rest →
    ∀ k q, ((i.stateAt done portId k).transmitBuffers q).length ≤ kMaxBurstCapacity

/-- The receive ports that lead to a buffer bound it at any time. -/
theorem stateAt_length_le {i : QueueIteration cap μ σ} {burst : Nat}
    (hburst : ∀ p, (i.polls p).received.length ≤ burst) {q : BitVec 16}
    {isOpen : BitVec 16 → Bool} (hopen : ∀ p, isOpen p = false → ¬ Leads i.ctx p q)
    {done rest : List (BitVec 16)} {portId : BitVec 16}
    (hports : i.ctx.activePorts = done ++ portId :: rest) (k : Nat) :
    ((i.stateAt done portId k).transmitBuffers q).length ≤
      i.ctx.activePorts.countP isOpen * burst := by
  have hdone := processPorts_length_le i.svc hburst hopen done i.start
  have hnow := burstAfter_length_le { i.ctx with currentBurstTsc := (i.polls portId).tsc } i.svc
    (hopen portId) (hburst portId) k (processPorts i.ctx i.svc i.polls done i.start)
  have hstart : (i.start.transmitBuffers q).length = 0 := rfl
  have hcount : done.countP isOpen + (isOpen portId).toNat ≤ i.ctx.activePorts.countP isOpen := by
    rw [hports, List.countP_append, List.countP_cons]
    cases isOpen portId with
    | false => exact Nat.add_le_add_left (Nat.zero_le _) _
    | true => exact Nat.add_le_add_left (Nat.le_add_left _ _) _
  calc ((i.stateAt done portId k).transmitBuffers q).length
      ≤ ((processPorts i.ctx i.svc i.polls done i.start).transmitBuffers q).length +
          (isOpen portId).toNat * burst := hnow
    _ ≤ done.countP isOpen * burst + (isOpen portId).toNat * burst := by omega
    _ = (done.countP isOpen + (isOpen portId).toNat) * burst := (Nat.add_mul _ _ _).symm
    _ ≤ i.ctx.activePorts.countP isOpen * burst := Nat.mul_le_mul_right burst hcount

end QueueIteration

/-! ## Configurations -/

/-- A port is the output port of some destination. -/
def Routed (routes : List L3RouteEntry) (port : BitVec 16) : Prop :=
  ∃ metadata, lookupL3TransmitPort routes metadata = some port

/-- One receive port leads to a port when ports are paired. -/
theorem countP_getTransmitPort_le {activePorts : List (BitVec 16)} (hnodup : activePorts.Nodup)
    (q : BitVec 16) :
    activePorts.countP (fun p ↦ getTransmitPort activePorts p = q) ≤ 1 := by
  have hinj : ∀ p ∈ activePorts.filter (fun p ↦ getTransmitPort activePorts p = q),
      ∀ p' ∈ activePorts.filter (fun p ↦ getTransmitPort activePorts p = q), p = p' := by
    intro p hp p' hp'
    obtain ⟨hp, hpq⟩ := List.mem_filter.mp hp
    obtain ⟨hp', hpq'⟩ := List.mem_filter.mp hp'
    exact getTransmitPort_injOn hnodup hp hp'
      ((of_decide_eq_true hpq).trans (of_decide_eq_true hpq').symm)
  rw [List.countP_eq_length_filter]
  have hfilter := hnodup.filter (fun p ↦ getTransmitPort activePorts p = q)
  generalize activePorts.filter (fun p ↦ getTransmitPort activePorts p = q) = ports at *
  match ports, hinj, hfilter with
  | [], _, _ => exact Nat.zero_le 1
  | [_], _, _ => exact le_rfl
  | p :: p' :: ports, hinj, hfilter =>
      have hsame := hinj p List.mem_cons_self p' (List.mem_cons_of_mem p List.mem_cons_self)
      exact absurd (hsame ▸ List.mem_cons_self) (List.nodup_cons.mp hfilter).1

/-- A configuration under which the staging buffers suffice: ports are paired, or the receive
ports other than a routed port fill its buffer at most once. -/
def StagingSuffices (env : Environment) (routes : List L3RouteEntry) (l3 : L3ForwardConfig)
    (burst : Nat) : Prop :=
  l3.enabled = false ∨ ∀ port, Routed routes port → port.toNat < env.portCount →
    (env.activePorts.countP fun p ↦ p ≠ port) * burst ≤ kMaxBurstCapacity

/-- An iteration of a worker with a configuration: its context is prepared from it, and a burst
has no more packets than asked for. -/
structure Configured (env : Environment) (inetPton : InetPton) (rs : RouteSort)
    (l3 : L3ForwardConfig) (ctx : WorkerContext) (burstSize : BitVec 16)
    (i : QueueIteration cap μ σ) : Prop where
  context : i.ctx = prepareWorkerContext env inetPton rs l3 ctx
  burst : ∀ p, (i.polls p).received.length ≤ clampBurstSize burstSize

/-- With pairing, a port leads to its partner. -/
theorem getTransmitPort_of_leads {ctx : WorkerContext} (hl2 : ctx.l3Forwarding = false)
    {p q : BitVec 16} (h : Leads ctx p q) : getTransmitPort ctx.activePorts p = q := by
  obtain ⟨-, classification, hport⟩ := h
  rw [resolveTransmitPort, hl2] at hport
  exact Option.some.inj hport

/-- With pairing, each buffer is filled by one burst at most. -/
theorem QueueIteration.fits_of_paired {i : QueueIteration cap μ σ}
    (hnodup : i.ctx.activePorts.Nodup) (hl2 : i.ctx.l3Forwarding = false) {burst : Nat}
    (hle : burst ≤ kMaxBurstCapacity) (hburst : ∀ p, (i.polls p).received.length ≤ burst) :
    i.StagingFits := by
  intro done portId rest hports k q
  have hopen : ∀ p, decide (getTransmitPort i.ctx.activePorts p = q) = false →
      ¬ Leads i.ctx p q := by
    intro p hp hleads
    exact of_decide_eq_false hp (getTransmitPort_of_leads hl2 hleads)
  calc ((i.stateAt done portId k).transmitBuffers q).length
      ≤ (i.ctx.activePorts.countP fun p ↦ getTransmitPort i.ctx.activePorts p = q) * burst :=
        stateAt_length_le hburst hopen hports k
    _ ≤ 1 * burst := Nat.mul_le_mul_right _ (countP_getTransmitPort_le hnodup q)
    _ ≤ kMaxBurstCapacity := by rw [Nat.one_mul]; exact hle

section Configuration

variable {env : Environment} {inetPton : InetPton} {rs : RouteSort} {l3 : L3ForwardConfig}
  {ctx : WorkerContext} {burstSize : BitVec 16}

/-- With routes, a port leads to routed ports other than itself. -/
theorem routed_of_leads (hl3 : l3.enabled = true) {p q : BitVec 16}
    (h : Leads (prepareWorkerContext env inetPton rs l3 ctx) p q) :
    Routed (buildL3Routes inetPton rs l3) q ∧ q.toNat < env.portCount ∧ p ≠ q := by
  obtain ⟨hlt, classification, hport⟩ := h
  rw [resolveTransmitPort, if_neg (by simpa [prepareWorkerContext] using hl3)] at hport
  dsimp only [prepareWorkerContext] at hport
  split at hport
  · cases hport
  · cases hlookup : lookupL3TransmitPort (buildL3Routes inetPton rs l3) classification.metadata with
    | none =>
        rw [hlookup] at hport
        cases hport
    | some port =>
        rw [hlookup] at hport
        dsimp only at hport
        split at hport
        · cases hport
        · rename_i hne
          obtain rfl := Option.some.inj hport
          exact ⟨⟨_, hlookup⟩, hlt, fun h ↦ hne h.symm⟩

theorem clampBurstSize_le (burstSize : BitVec 16) : clampBurstSize burstSize ≤ kMaxBurstCapacity :=
  max_le (by decide) (min_le_right _ _)

/-- Under a sufficient configuration no iteration overflows a buffer. -/
theorem StagingSuffices.fits
    (h : StagingSuffices env (buildL3Routes inetPton rs l3) l3 (clampBurstSize burstSize))
    {i : QueueIteration cap μ σ} (hi : Configured env inetPton rs l3 ctx burstSize i) :
    i.StagingFits := by
  intro done portId rest hports k q
  have hactive : i.ctx.activePorts = env.activePorts := by rw [hi.context]; rfl
  cases hl3 : l3.enabled with
  | false =>
      refine QueueIteration.fits_of_paired ?_ ?_ (clampBurstSize_le burstSize) hi.burst done portId
        rest hports k q
      · rw [hactive]
        exact env.active_nodup
      · rw [hi.context]
        exact hl3
  | true =>
      by_cases hq : Routed (buildL3Routes inetPton rs l3) q ∧ q.toNat < env.portCount
      · have hopen : ∀ p, decide (p ≠ q) = false → ¬ Leads i.ctx p q := by
          intro p hp hleads
          rw [hi.context] at hleads
          exact of_decide_eq_false hp (routed_of_leads hl3 hleads).2.2
        refine (QueueIteration.stateAt_length_le hi.burst hopen hports k).trans ?_
        rw [hactive]
        rcases h with h | h
        · exact absurd (hl3.symm.trans h) (by decide)
        · exact h q hq.1 hq.2
      · have hopen : ∀ p, false = false → ¬ Leads i.ctx p q := by
          intro p _ hleads
          rw [hi.context] at hleads
          obtain ⟨hrouted, hlt, -⟩ := routed_of_leads hl3 hleads
          exact hq ⟨hrouted, hlt⟩
        refine (QueueIteration.stateAt_length_le hi.burst hopen hports k).trans ?_
        rw [List.countP_false, Function.const_apply, Nat.zero_mul]
        exact Nat.zero_le _

/-! ## A flood -/

/-- `plainServices` on packets whose headers can be rewritten. -/
def routingServices : Services PacketMetadata Unit :=
  { plainServices with updateL3ForwardHeaders := fun packet _ _ ↦ (true, packet) }

/-- A flow table that knows one flow and forwards it. -/
def oneFlow (key : FlowKey) : FlowTable 1 :=
  ((FlowTable.new 1 true).insert key 1 .kForward 0 (some 0)).2

theorem answer_oneFlow (key : FlowKey) : (oneFlow key).answer key = some .kForward := by
  have hok : ((FlowTable.new 1 true).insert key 1 .kForward 0 (some 0)).1 = .kOk := rfl
  rw [oneFlow, FlowTable.answer_insert_of_ok (FlowTable.apart_of_owned (FlowTable.new_owned 1)) hok,
    if_pos rfl]

/-- Packets of one flow on every port, so many on each, while the flow is in the cache. -/
def flood (ctx : WorkerContext) (metadata : PacketMetadata) (counts : BitVec 16 → Nat) :
    QueueIteration 1 PacketMetadata Unit where
  ctx := ctx
  svc := routingServices
  cleanup := { delExpiredEntries := fun _ world ↦ world }
  polls := fun p ↦ { received := List.replicate (counts p) metadata }
  accepted := fun _ ↦ 0
  flowTable := oneFlow (makeCanonicalFromMetadata metadata)
  world := ()

/-- Packets that are their own metadata all parse. -/
theorem parseReceivedPackets_routing (ctx : WorkerContext) (packets : List PacketMetadata)
    (nParsed : Nat) (st : BurstState cap PacketMetadata Unit) :
    (parseReceivedPackets ctx routingServices packets nParsed st).1 =
        ((packets.zipIdx nParsed).map fun p ↦ .mapped p.1 p.2, packets) := by
  induction packets generalizing nParsed st with
  | nil => rfl
  | cons packet packets ih =>
      have hrest := ih (nParsed + 1) (st.count fun c ↦ { c with parsed := c.parsed + 1 })
      rw [List.zipIdx_cons, List.map_cons]
      refine Prod.ext (congrArg (_ :: ·) (congrArg Prod.fst hrest)) ?_
      exact congrArg (packet :: ·) (congrArg Prod.snd hrest)

/-- So many packets of the flow are staged, all of them for one port. -/
structure Flooded (metadata : PacketMetadata) (port : BitVec 16) (n : Nat)
    (st : BurstState cap PacketMetadata Unit) : Prop where
  staged : (st.transmitBuffers port).length = n
  others : ∀ q, q ≠ port → st.transmitBuffers q = []
  cached : st.flowTable.answer (makeCanonicalFromMetadata metadata) = some .kForward

theorem Flooded.enqueue {metadata packet : PacketMetadata} {port : BitVec 16} {n : Nat}
    {st : BurstState cap PacketMetadata Unit} (h : Flooded metadata port n st) :
    Flooded metadata port (n + 1) (st.enqueuePacket packet port) where
  staged := by rw [BurstState.enqueuePacket_self, List.length_append, h.staged]; rfl
  others q hq := by rw [BurstState.enqueuePacket_of_ne packet hq, h.others q hq]
  cached := h.cached

/-- A routed packet has an output port on the other ports. -/
theorem resolveTransmitPort_routed (hl3 : l3.enabled = true) {metadata : PacketMetadata}
    {port : BitVec 16}
    (hroute : lookupL3TransmitPort (buildL3Routes inetPton rs l3) metadata = some port)
    {receivePort : BitVec 16} (hne : receivePort ≠ port) (action : Action) (matched : Bool) :
    resolveTransmitPort (prepareWorkerContext env inetPton rs l3 ctx)
      { metadata, action, parsed := true, matched } receivePort = some port := by
  rw [resolveTransmitPort, if_neg (by simpa [prepareWorkerContext] using hl3)]
  dsimp only [prepareWorkerContext]
  rw [if_neg (by decide), hroute]
  dsimp only
  rw [if_neg fun h ↦ hne h.symm]

/-- The routes are those of the configuration. -/
theorem exists_route_of_lookup {metadata : PacketMetadata} {port : BitVec 16}
    (hroute : lookupL3TransmitPort (buildL3Routes inetPton rs l3) metadata = some port) :
    ∃ route ∈ l3.ipv4Routes, route.outputPort = port := by
  obtain ⟨entry, hentry, rfl⟩ := Option.map_eq_some_iff.mp hroute
  have hmem := (rs.perm _).mem_iff.mp (List.mem_of_find?_eq_some hentry)
  obtain ⟨route, hroute, hsome⟩ := List.mem_filterMap.mp hmem
  refine ⟨route, hroute, ?_⟩
  unfold l3RouteEntry at hsome
  split at hsome
  · cases hsome
  · rw [← Option.some.inj hsome]

/-- In an accepted configuration the headers of a routed packet can be rewritten. -/
theorem prepareAndRewriteHeaders_routed (hvalid : validateL3ForwardConfig inetPton l3 = .ok ())
    (hl3 : l3.enabled = true) {metadata : PacketMetadata} {port : BitVec 16}
    (hroute : lookupL3TransmitPort (buildL3Routes inetPton rs l3) metadata = some port)
    (hlt : port.toNat < env.portCount) (packet : PacketMetadata) :
    prepareAndRewriteHeaders (prepareWorkerContext env inetPton rs l3 ctx) routingServices port
      packet = (true, packet) := by
  obtain ⟨mac, hmac⟩ := Option.isSome_iff_exists.mp ((env.isSome_getPortMacAddress port).mpr hlt)
  obtain ⟨route, hmem, rfl⟩ := exists_route_of_lookup hroute
  have hhas := hasEthernetDestination_of_valid hvalid hl3 hmem
  obtain ⟨destination, hdestination, hport⟩ := List.any_eq_true.mp hhas
  have hfound :
      (getEthernetDestination (buildEthernetDestinations l3) route.outputPort).isSome := by
    rw [getEthernetDestination, Option.isSome_map, List.find?_isSome]
    exact ⟨_, List.mem_map_of_mem hdestination, hport⟩
  obtain ⟨mac', hmac'⟩ := Option.isSome_iff_exists.mp hfound
  unfold prepareAndRewriteHeaders
  simp only [prepareWorkerContext, Option.getD_some, hmac, hl3, if_true, hmac']
  rfl

end Configuration

section Flood

variable {env : Environment} {inetPton : InetPton} {rs : RouteSort} {l3 : L3ForwardConfig}
  (ctx : WorkerContext) (hvalid : validateL3ForwardConfig inetPton l3 = .ok ())
  (hl3 : l3.enabled = true) {metadata : PacketMetadata} {port receivePort : BitVec 16}
  (hroute : lookupL3TransmitPort (buildL3Routes inetPton rs l3) metadata = some port)
  (hlt : port.toNat < env.portCount)

include hvalid hl3 hroute hlt

/-- A packet of the flow is staged for its port, as a cache hit. -/
theorem Flooded.finalize (hne : receivePort ≠ port) {n : Nat}
    {st : BurstState cap PacketMetadata Unit} (h : Flooded metadata port n st) {b : ParsedBurst}
    {idx : Nat} (hbulk : b.bulkAt idx = ⟨.kForward, true⟩) (hmeta : b.metadataAt idx = metadata)
    (spiMatches : List ClassificationResult) (packet : PacketMetadata) :
    Flooded metadata port (n + 1) (finalizePacket (prepareWorkerContext env inetPton rs l3 ctx)
      routingServices receivePort b spiMatches st (.mapped packet idx)) := by
  unfold finalizePacket
  dsimp only
  have hcount : ¬ (prepareWorkerContext env inetPton rs l3 ctx).portCount ≤ port.toNat :=
    Nat.not_le.mpr hlt
  rw [hbulk, hmeta, if_pos rfl, applyForwardDecision, if_neg (by simp), if_neg (by simp),
    resolveTransmitPort_routed hl3 hroute hne]
  dsimp only
  rw [if_neg hcount, prepareAndRewriteHeaders_routed hvalid hl3 hroute hlt]
  exact Flooded.enqueue ⟨h.staged, h.others, h.cached⟩

theorem Flooded.foldl (hne : receivePort ≠ port) {n : Nat}
    {st : BurstState cap PacketMetadata Unit} (h : Flooded metadata port n st) {b : ParsedBurst}
    (spiMatches : List ClassificationResult) {packets : List (PacketMetadata × Nat)}
    (hpackets : ∀ p ∈ packets, b.bulkAt p.2 = ⟨.kForward, true⟩ ∧ b.metadataAt p.2 = metadata) :
    Flooded metadata port (n + packets.length) ((packets.map fun p ↦ .mapped p.1 p.2).foldl
      (finalizePacket (prepareWorkerContext env inetPton rs l3 ctx) routingServices receivePort b
        spiMatches) st) := by
  induction packets generalizing n st with
  | nil => exact h
  | cons p packets ih =>
      obtain ⟨hbulk, hmeta⟩ := hpackets p List.mem_cons_self
      have hone := h.finalize ctx hvalid hl3 hroute hlt hne hbulk hmeta spiMatches p.1
      have hrest := ih hone fun p hp ↦ hpackets p (List.mem_cons_of_mem _ hp)
      rw [List.length_cons, Nat.add_comm packets.length 1, ← Nat.add_assoc]
      exact hrest

/-- A burst of the flow stages all its packets for its port. -/
theorem Flooded.burst (hne : receivePort ≠ port) {n : Nat} (m : Nat)
    {st : BurstState cap PacketMetadata Unit} (h : Flooded metadata port n st) :
    Flooded metadata port (n + m) (processPortBurst (prepareWorkerContext env inetPton rs l3 ctx)
      routingServices receivePort (List.replicate m metadata) st) := by
  let ctx' := prepareWorkerContext env inetPton rs l3 ctx
  let packets := List.replicate m metadata
  have hparsed := parseReceivedPackets_routing ctx' packets 0
    (st.count fun c ↦ { c with received := c.received + packets.length })
  obtain ⟨-, hbuffers, -⟩ := openBurst_frame ctx' routingServices packets st
  obtain ⟨hkeys, hbulk, htable⟩ := openBurst_lookup ctx' routingServices packets st
  have hslots : (openBurst ctx' routingServices packets st).1.1 =
      (packets.zipIdx 0).map fun p ↦ .mapped p.1 p.2 := congrArg Prod.fst hparsed
  have hmetadata : (openBurst ctx' routingServices packets st).1.2.metadata = packets :=
    congrArg Prod.snd hparsed
  rw [hkeys, hmetadata] at hbulk htable
  have hopened : Flooded metadata port n (openBurst ctx' routingServices packets st).2 := by
    refine ⟨by rw [hbuffers, h.staged], fun q hq ↦ by rw [hbuffers, h.others q hq], ?_⟩
    rw [htable, FlowTable.answer_lookupAll, h.cached]
  rw [processPortBurst_eq, finalizePackets]
  generalize spiResults _ _ _ _ = spiMatches
  generalize openBurst ctx' routingServices packets st = opened at *
  have hpackets : ∀ p ∈ packets.zipIdx 0,
      opened.1.2.bulkAt p.2 = ⟨.kForward, true⟩ ∧ opened.1.2.metadataAt p.2 = metadata := by
    rintro ⟨packet, idx⟩ hp
    have hidx : idx < m := by
      simpa [packets] using (List.mem_zipIdx hp).2.1
    rw [ParsedBurst.bulkAt, ParsedBurst.metadataAt, hbulk, hmetadata, List.map_replicate,
      List.map_replicate, List.getD_eq_getElem?_getD, List.getD_eq_getElem?_getD,
      List.getElem?_replicate, List.getElem?_replicate, if_pos hidx, if_pos hidx, h.cached]
    exact ⟨rfl, rfl⟩
  rw [hslots]
  have hfold := hopened.foldl ctx hvalid hl3 hroute hlt hne spiMatches hpackets
  rw [List.length_zipIdx, List.length_replicate] at hfold
  exact hfold

/-- So do the bursts of all ports. -/
theorem Flooded.ports {counts : BitVec 16 → Nat} (hcounts : counts port = 0)
    (ports : List (BitVec 16)) {n : Nat} {st : BurstState 1 PacketMetadata Unit}
    (h : Flooded metadata port n st) :
    Flooded metadata port (n + (ports.map counts).sum)
      (processPorts (prepareWorkerContext env inetPton rs l3 ctx) routingServices
        (flood (prepareWorkerContext env inetPton rs l3 ctx) metadata counts).polls ports st) := by
  induction ports generalizing n st with
  | nil => exact h
  | cons p ports ih =>
      rw [List.map_cons, List.sum_cons, ← Nat.add_assoc]
      refine ih ?_
      by_cases hp : p = port
      · subst hp
        rw [hcounts]
        simp only [flood, hcounts]
        exact ⟨h.staged, h.others, h.cached⟩
      · exact h.burst { ctx with currentBurstTsc := 0 } hvalid hl3 hroute hlt hp (counts p)

/-- The flow's packets of an iteration are all staged for its port. -/
theorem flood_flooded (counts : BitVec 16 → Nat) (hcounts : counts port = 0) :
    Flooded metadata port (env.activePorts.map counts).sum
      (flood (prepareWorkerContext env inetPton rs l3 ctx) metadata counts).staged := by
  have hstart : Flooded metadata port 0
      (flood (prepareWorkerContext env inetPton rs l3 ctx) metadata counts).start :=
    ⟨rfl, fun _ _ ↦ rfl, answer_oneFlow _⟩
  have hports := hstart.ports ctx hvalid hl3 hroute hlt hcounts env.activePorts
  rw [Nat.zero_add] at hports
  exact ⟨hports.staged, hports.others, hports.cached⟩

end Flood

/-! ## Exactly the sufficient configurations -/

/-- The last packet of an iteration leaves what is flushed. -/
theorem QueueIteration.StagingFits.staged_length_le {i : QueueIteration cap μ σ}
    (h : i.StagingFits) (hne : i.ctx.activePorts ≠ []) (q : BitVec 16) :
    (i.staged.transmitBuffers q).length ≤ kMaxBurstCapacity := by
  let portId := i.ctx.activePorts.getLast hne
  have hports : i.ctx.activePorts = i.ctx.activePorts.dropLast ++ [portId] :=
    (List.dropLast_concat_getLast hne).symm
  have hlast := h i.ctx.activePorts.dropLast portId [] hports (i.polls portId).received.length q
  have hstaged : i.stateAt i.ctx.activePorts.dropLast portId (i.polls portId).received.length =
      processPorts i.ctx i.svc i.polls i.ctx.activePorts i.start := by
    rw [QueueIteration.stateAt, burstAfter_length]
    conv_rhs => rw [hports, processPorts, List.foldl_append]
    rfl
  rw [hstaged] at hlast
  exact hlast

theorem sum_counts_eq (ports : List (BitVec 16)) (port : BitVec 16) (n : Nat) :
    (ports.map fun p ↦ if p = port then 0 else n).sum = (ports.countP fun p ↦ p ≠ port) * n := by
  induction ports with
  | nil => rw [List.map_nil, List.sum_nil, List.countP_nil, Nat.zero_mul]
  | cons p ports ih =>
      rw [List.map_cons, List.sum_cons, ih, List.countP_cons, Nat.add_mul, Nat.add_comm]
      congr 1
      by_cases hp : p = port
      · rw [if_pos hp, if_neg (by simpa using hp), Nat.zero_mul]
      · rw [if_neg hp, if_pos (by simpa using hp), Nat.one_mul]

/-- The flood that fills the buffer of a port as far as it goes. -/
def fullFlood (ctx : WorkerContext) (metadata : PacketMetadata) (port : BitVec 16) (burst : Nat) :
    QueueIteration 1 PacketMetadata Unit :=
  flood ctx metadata fun p ↦ if p = port then 0 else burst

theorem fullFlood_configured {env : Environment} {inetPton : InetPton} {rs : RouteSort}
    {l3 : L3ForwardConfig} {ctx : WorkerContext} (metadata : PacketMetadata) (port : BitVec 16)
    {burst : Nat} {burstSize : BitVec 16} (hburst : burst ≤ clampBurstSize burstSize) :
    Configured env inetPton rs l3 ctx burstSize
      (fullFlood (prepareWorkerContext env inetPton rs l3 ctx) metadata port burst) := by
  refine ⟨rfl, fun p ↦ ?_⟩
  show (List.replicate (if p = port then 0 else burst) metadata).length ≤ _
  rw [List.length_replicate]
  split
  · exact Nat.zero_le _
  · exact hburst

/-- A flood that fits is a bound for the receive ports of its port. -/
theorem countP_le_of_fits {env : Environment} {inetPton : InetPton} {rs : RouteSort}
    {l3 : L3ForwardConfig} {ctx : WorkerContext}
    (hvalid : validateL3ForwardConfig inetPton l3 = .ok ()) (hl3 : l3.enabled = true)
    {metadata : PacketMetadata} {port : BitVec 16}
    (hroute : lookupL3TransmitPort (buildL3Routes inetPton rs l3) metadata = some port)
    (hlt : port.toNat < env.portCount) {burst : Nat}
    (hfits : (fullFlood (prepareWorkerContext env inetPton rs l3 ctx) metadata port
      burst).StagingFits) :
    (env.activePorts.countP fun p ↦ p ≠ port) * burst ≤ kMaxBurstCapacity := by
  have hflooded := flood_flooded ctx hvalid hl3 hroute hlt
    (fun p ↦ if p = port then 0 else burst) (if_pos rfl)
  have hlength := hflooded.staged
  rw [sum_counts_eq] at hlength
  rw [← hlength]
  exact hfits.staged_length_le env.active_ne_nil port

/-- If nothing overflows, the configuration is sufficient. -/
theorem StagingSuffices.of_fits {env : Environment} {inetPton : InetPton} {rs : RouteSort}
    {l3 : L3ForwardConfig} (hvalid : validateL3ForwardConfig inetPton l3 = .ok ())
    {ctx : WorkerContext} {burstSize : BitVec 16}
    (h : ∀ i : QueueIteration 1 PacketMetadata Unit,
      Configured env inetPton rs l3 ctx burstSize i → i.StagingFits) :
    StagingSuffices env (buildL3Routes inetPton rs l3) l3 (clampBurstSize burstSize) := by
  by_cases hl3 : l3.enabled = true
  · refine .inr fun port ⟨metadata, hroute⟩ hlt ↦ ?_
    exact countP_le_of_fits hvalid hl3 hroute hlt
      (h _ (fullFlood_configured metadata port le_rfl))
  · exact .inl (Bool.not_eq_true _ ▸ hl3)

/-- **When the staging buffers never overflow.**  With an accepted configuration, every iteration
of a worker, whatever its traffic, keeps every staging buffer within its capacity behind each
packet, exactly when ports are paired or no routed port can get more than one buffer of packets
from the other active ports. -/
theorem staging_fits_iff (env : Environment) (inetPton : InetPton) (rs : RouteSort)
    (l3 : L3ForwardConfig) (hvalid : validateL3ForwardConfig inetPton l3 = .ok ())
    (ctx : WorkerContext) (burstSize : BitVec 16) :
    (∀ (cap : Nat) (μ σ : Type) (i : QueueIteration cap μ σ),
        Configured env inetPton rs l3 ctx burstSize i → i.StagingFits) ↔
      StagingSuffices env (buildL3Routes inetPton rs l3) l3 (clampBurstSize burstSize) := by
  constructor
  · intro h
    exact StagingSuffices.of_fits hvalid (h 1 PacketMetadata Unit)
  · intro h cap μ σ i hi
    exact h.fits hi

/-- Three ports, all active. -/
def threePorts : Environment where
  portCount := 3
  activePorts := [0, 1, 2]
  portMacAddrs := [1, 2, 3]
  portCount_lt := by omega
  active_nodup := by decide
  active_lt := by simp
  active_ne_nil := by decide
  macs_length := rfl

/-- A default route to port 2. -/
def defaultRoute : L3ForwardConfig where
  enabled := true
  ipv4Routes := [{ destinationIpAddress := "0.0.0.0", prefixLength := 0, outputPort := 2 }]
  ethernetDestinations := [{ portId := 2, macAddress := "02:00:00:00:00:01" }]

/-- `inet_pton` on the address of the route. -/
def anyAddress : InetPton := fun text ↦ if text = "0.0.0.0" then some 0 else none

/-- Sorting routes by insertion. -/
def insertionRouteSort : RouteSort where
  sort := List.insertionSort fun lhs rhs ↦ rhs.prefixLength ≤ lhs.prefixLength
  perm := List.perm_insertionSort _
  sorted := by
    have : Std.Total fun lhs rhs : L3RouteEntry ↦ rhs.prefixLength ≤ lhs.prefixLength :=
      ⟨fun _ _ ↦ BitVec.le_total _ _⟩
    have : IsTrans L3RouteEntry fun lhs rhs ↦ rhs.prefixLength ≤ lhs.prefixLength :=
      ⟨fun _ _ _ h h' ↦ BitVec.le_trans h' h⟩
    exact List.pairwise_insertionSort _

theorem defaultRoute_valid : validateL3ForwardConfig anyAddress defaultRoute = .ok () := by
  decide +kernel

/-- With bursts of 128 packets the two other ports fill the buffer of port 2, and no more. -/
theorem staging_fits_two_half_bursts :
    ∃ i : QueueIteration 1 PacketMetadata Unit,
      Configured threePorts anyAddress insertionRouteSort defaultRoute dropTcp 128 i ∧
        i.StagingFits := by
  refine ⟨_, fullFlood_configured {} 2 le_rfl, (staging_fits_iff threePorts anyAddress
    insertionRouteSort defaultRoute defaultRoute_valid dropTcp 128).mpr (.inr ?_) _ _ _ _
    (fullFlood_configured {} 2 le_rfl)⟩
  rintro port ⟨metadata, hroute⟩ hlt
  obtain ⟨route, hmem, rfl⟩ := exists_route_of_lookup hroute
  obtain rfl := List.mem_singleton.mp hmem
  decide

/-- With bursts of 256 packets, 512 packets are staged for port 2. -/
theorem two_bursts_overflow :
    validateL3ForwardConfig anyAddress defaultRoute = .ok () ∧
      ∃ i : QueueIteration 1 PacketMetadata Unit,
        Configured threePorts anyAddress insertionRouteSort defaultRoute dropTcp 256 i ∧
          (i.staged.transmitBuffers 2).length = 512 ∧ ¬ i.StagingFits := by
  have hroute : lookupL3TransmitPort (buildL3Routes anyAddress insertionRouteSort defaultRoute) {} =
      some 2 := by decide +kernel
  have hlt : (2 : BitVec 16).toNat < threePorts.portCount := by decide
  refine ⟨defaultRoute_valid, _, fullFlood_configured {} 2 le_rfl, ?_, fun hfits ↦ ?_⟩
  · rw [fullFlood, (flood_flooded dropTcp defaultRoute_valid rfl hroute hlt _ (if_pos rfl)).staged,
      sum_counts_eq]
    decide
  · exact absurd (countP_le_of_fits defaultRoute_valid rfl hroute hlt hfits) (by decide)

/-- **Pairing** sends the active ports to active ports and back, each to one other or to itself; so
when packets are forwarded by pairs, bursts of up to `kMaxBurstCapacity` packets fit into the
staging buffers. -/
theorem getTransmitPort_pairs {activePorts : List (BitVec 16)} (hnodup : activePorts.Nodup) :
    (∀ p ∈ activePorts, getTransmitPort activePorts p ∈ activePorts ∧
      getTransmitPort activePorts (getTransmitPort activePorts p) = p ∧
      ∃! receivePort, receivePort ∈ activePorts ∧ getTransmitPort activePorts receivePort = p) ∧
      ∀ {cap : Nat} {μ σ : Type} (i : QueueIteration cap μ σ) (burstSize : Nat),
        i.ctx.activePorts = activePorts → i.ctx.l3Forwarding = false →
          burstSize ≤ kMaxBurstCapacity → (∀ p, (i.polls p).received.length ≤ burstSize) →
            i.StagingFits := by
  constructor
  · intro p hp
    have hback := getTransmitPort_getTransmitPort hnodup hp
    have hmem := getTransmitPort_mem hnodup hp
    refine ⟨hmem, hback, getTransmitPort activePorts p, ⟨hmem, hback⟩, ?_⟩
    rintro q ⟨hq, hqp⟩
    exact getTransmitPort_injOn hnodup hq hmem (hqp.trans hback.symm)
  · intro cap μ σ i burstSize hactive hl2 hle hburst
    subst hactive
    exact i.fits_of_paired hnodup hl2 hle hburst

/-- Three ports without routes, and a full burst on each. -/
def pairedFlood : QueueIteration 1 PacketMetadata Unit :=
  flood (prepareWorkerContext threePorts anyAddress insertionRouteSort {} dropTcp) {} fun _ ↦ 256

/-- Ports 0 and 1 have each other, port 2 has itself, and three full bursts fit. -/
theorem getTransmitPort_pairs_three :
    getTransmitPort threePorts.activePorts 0 = 1 ∧ getTransmitPort threePorts.activePorts 2 = 2 ∧
      (∃! receivePort, receivePort ∈ threePorts.activePorts ∧
        getTransmitPort threePorts.activePorts receivePort = 0) ∧ pairedFlood.StagingFits := by
  obtain ⟨hpairs, hfits⟩ := getTransmitPort_pairs threePorts.active_nodup
  refine ⟨rfl, rfl, (hpairs 0 (by decide)).2.2, hfits pairedFlood 256 rfl rfl le_rfl fun p ↦ ?_⟩
  exact Nat.le_of_eq List.length_replicate

end DpdkSpi
