import DpdkSpi.Lib.System
import DpdkSpi.Packet.FlowHash
import DpdkSpi.Pipeline.Mbufs

/-!
# Worker affinity

In flow-hash mode the main core puts every packet into the ring of the worker that
`HashPacketFlow` chooses, and a worker that completes a datagram puts the chain into the ring of
the worker that the hash of the chain chooses.  So a packet is classified by the worker of its
hash, whatever the order of the steps.  The packets of a 5-tuple meet at one worker, and the
fragments of a datagram too, as long as the first segments show the headers that the hash is taken
from (`flowHash_affinity`).  The first fragment of a TCP datagram need not have the whole TCP
header, and then the hash of the chain lacks the ports.
-/

namespace DpdkSpi

open Lib

variable {cap : Nat} {φ ρ : Type}

/-! ## The system -/

/-- The services of a worker in flow-hash mode. -/
def flowHashServices (ck : Cksums) (lib : FragLibrary φ) (svc : Services Mbuf ρ) :
    Services Mbuf (φ × ρ) :=
  mbufServices ck (some lib) { svc with hashPacketFlow := hashPacketFlow }

/-- A packet at a worker. -/
structure Placement where
  worker : Nat
  receivePort : BitVec 16
  packet : Mbuf
deriving DecidableEq, Repr

/-- The worker is the one of the hash. -/
def Placement.ByHash (n : Nat) (p : Placement) : Prop :=
  p.worker = (hashPacketFlow p.packet p.receivePort).toNat % n

/-- The rings, the fragment tables of the workers, and what was done so far. -/
structure FlowHashState (φ : Type) where
  rings : Nat → List (BitVec 16 × Mbuf) := fun _ ↦ []
  fragments : Nat → φ
  /-- The packets that were dispatched, with the workers they were for. -/
  dispatched : List Placement := []
  /-- The packets that were classified, with the workers that did it. -/
  classified : List Placement := []

/-- What can happen.  Whether a ring has room is not known, and neither are the tables that a worker
reads and writes beside its fragment table. -/
inductive FlowHashEvent (cap : Nat) (φ ρ : Type) where
  /-- `DispatchPacketToWorker` for a received packet. -/
  | dispatch (packet : Mbuf) (receivePort : BitVec 16) (enqueued : Bool)
  /-- `ForwardPacket` for the first packet in the ring of a worker. -/
  | work (worker : Nat) (ctx : WorkerContext) (st : BurstState cap Mbuf (φ × ρ)) (enqueued : Bool)

namespace FlowHashState

/-- `rte_ring_enqueue`, which a full ring refuses. -/
def enqueue (s : FlowHashState φ) (worker : Nat) (receivePort : BitVec 16) (packet : Mbuf)
    (enqueued : Bool) : FlowHashState φ :=
  if enqueued then
    { s with
      rings := Function.update s.rings worker (s.rings worker ++ [(receivePort, packet)]) }
  else s

/-- `DispatchPacketToWorker`. -/
def dispatchPacketToWorker (n : Nat) (s : FlowHashState φ) (packet : Mbuf)
    (receivePort : BitVec 16) (enqueued : Bool) : FlowHashState φ :=
  let workerId := (hashPacketFlow packet receivePort).toNat % n
  let s : FlowHashState φ :=
    { s with dispatched := s.dispatched ++ [⟨workerId, receivePort, packet⟩] }
  s.enqueue workerId receivePort packet enqueued

/-- What becomes of a packet that a worker has classified. -/
def settle (svc : Services Mbuf (φ × ρ)) (ctx : WorkerContext) (s : FlowHashState φ)
    (receivePort : BitVec 16) (enqueued : Bool) :
    PacketClassification × Option Mbuf → FlowHashState φ
  | (_, none) => s
  | (classification, some packet) =>
      if classification.redispatch then
        s.enqueue (targetWorker ctx svc packet receivePort) receivePort packet enqueued
      else if classification.parsed then
        { s with classified := s.classified ++ [⟨ctx.workerId, receivePort, packet⟩] }
      else s

/-- One event, with `n` workers. -/
def step (svc : Services Mbuf (φ × ρ)) (n : Nat) (s : FlowHashState φ) :
    FlowHashEvent cap φ ρ → Option (FlowHashState φ)
  | .dispatch packet receivePort enqueued =>
      some (s.dispatchPacketToWorker n packet receivePort enqueued)
  | .work worker ctx st enqueued =>
      if ctx.workerId = worker ∧ ctx.flowHashRings = n then
        match s.rings worker with
        | [] => none
        | (receivePort, packet) :: rest =>
            let r := classifyPacket ctx svc packet receivePort
              { st with world := (s.fragments worker, st.world.2) }
            let s := { s with
              rings := Function.update s.rings worker rest
              fragments := Function.update s.fragments worker r.2.2.world.1 }
            some (s.settle svc ctx receivePort enqueued (r.1, r.2.1))
      else none

end FlowHashState

/-- The runs of flow-hash mode. -/
def flowHashRuns (cap : Nat) (svc : Services Mbuf (φ × ρ)) (n : Nat) (empty : Nat → φ) :
    System (FlowHashState φ) (FlowHashEvent cap φ ρ) :=
  System.ofPartial { fragments := empty } (FlowHashState.step svc n)

/-! ## Where packets are -/

/-- A packet that is accepted for classification was parsed, and belongs to this worker. -/
theorem classifyPacket_accepted {μ σ : Type} {ctx : WorkerContext} {svc : Services μ σ}
    {packet packet' : μ} {receivePort : BitVec 16} {st : BurstState cap μ σ}
    (hsome : (classifyPacket ctx svc packet receivePort st).2.1 = some packet')
    (hhere : ¬ (classifyPacket ctx svc packet receivePort st).1.redispatch = true)
    (hparsed : (classifyPacket ctx svc packet receivePort st).1.parsed = true) :
    ∃ metadata wasReassembled,
      (svc.parsePacketOwned packet ctx.currentBurstTsc st.world).1 =
          .parsed metadata packet' wasReassembled ∧
        ¬ Redispatched ctx svc packet' receivePort wasReassembled := by
  unfold classifyPacket at hsome hhere hparsed
  rcases hparse : svc.parsePacketOwned packet ctx.currentBurstTsc st.world with ⟨result, world⟩
  rw [hparse] at hsome hhere hparsed
  cases result with
  | waitingForFragments => cases hsome
  | malformed packet'' => cases hparsed
  | parsed metadata packet'' wasReassembled =>
      dsimp only at hsome hhere hparsed
      by_cases hthere : Redispatched ctx svc packet'' receivePort wasReassembled
      · rw [if_pos hthere] at hhere
        exact absurd rfl hhere
      · rw [if_neg hthere] at hsome
        refine ⟨metadata, wasReassembled, ?_, ?_⟩
        · split at hsome
          · cases hsome
            rfl
          · cases hsome
            rfl
        · split at hsome
          · cases hsome
            exact hthere
          · cases hsome
            exact hthere

section Affinity

variable {ck : Cksums} {lib : FragLibrary φ} {svc : Services Mbuf ρ} {n : Nat}

/-- The first segments show what the hash is taken from: of a packet that is dispatched, the
headers that say which datagram it is of; of a packet that the parser hands on, those that have its
5-tuple. -/
def ShowsHeaders (lib : FragLibrary φ) (s : FlowHashState φ) : FlowHashEvent cap φ ρ → Prop
  | .dispatch packet _ _ => ∀ id, datagramId packet = some id → id.headersEnd ≤ packet.dataLen
  | .work worker ctx _ _ => ∀ receivePort packet rest,
      s.rings worker = (receivePort, packet) :: rest → ∀ metadata packet' wasReassembled,
        (parsePacketOwned (some lib) packet ctx.currentBurstTsc (s.fragments worker)).1 =
            .parsed metadata packet' wasReassembled →
          ∀ t, flowTuple packet' = some t → t.headersEnd packet' ≤ packet'.dataLen

/-- The same, evaluated. -/
def showsHeaders (lib : FragLibrary φ) (s : FlowHashState φ) : FlowHashEvent cap φ ρ → Bool
  | .dispatch packet _ _ => (datagramId packet).all fun id ↦ id.headersEnd ≤ packet.dataLen
  | .work worker ctx _ _ =>
      match s.rings worker with
      | [] => true
      | (_, packet) :: _ =>
          match (parsePacketOwned (some lib) packet ctx.currentBurstTsc (s.fragments worker)).1 with
          | .parsed _ packet' _ =>
              (flowTuple packet').all fun t ↦ t.headersEnd packet' ≤ packet'.dataLen
          | _ => true

theorem showsHeaders_iff (lib : FragLibrary φ) (s : FlowHashState φ)
    (a : FlowHashEvent cap φ ρ) : showsHeaders lib s a = true ↔ ShowsHeaders lib s a := by
  cases a with
  | dispatch packet receivePort enqueued =>
      simp only [showsHeaders, ShowsHeaders, Option.all_eq_true, decide_eq_true_iff]
  | work worker ctx st enqueued =>
      unfold showsHeaders ShowsHeaders
      dsimp only
      cases s.rings worker with
      | nil => exact iff_of_true rfl fun _ _ _ h ↦ nomatch h
      | cons e rest =>
          obtain ⟨receivePort, packet⟩ := e
          dsimp only
          cases hparse : (parsePacketOwned (some lib) packet ctx.currentBurstTsc
              (s.fragments worker)).1 with
          | parsed metadata packet' wasReassembled =>
              simp only [Option.all_eq_true, decide_eq_true_iff]
              constructor
              · rintro h _ _ _ ⟨⟩ _ _ _ hparse' t ht
                obtain ⟨-, rfl, -⟩ := ParseResult.parsed.inj (hparse.symm.trans hparse')
                exact h t ht
              · exact fun h ↦ h _ _ _ rfl _ _ _ hparse
          | waitingForFragments =>
              refine iff_of_true rfl ?_
              rintro _ _ _ ⟨⟩ _ _ _ hparse'
              cases hparse.symm.trans hparse'
          | malformed packet' =>
              refine iff_of_true rfl ?_
              rintro _ _ _ ⟨⟩ _ _ _ hparse'
              cases hparse.symm.trans hparse'

instance (lib : FragLibrary φ) (s : FlowHashState φ) (a : FlowHashEvent cap φ ρ) :
    Decidable (ShowsHeaders lib s a) :=
  decidable_of_iff _ (showsHeaders_iff lib s a)

/-- Where packets are after any run, and what their first segments show. -/
structure FlowHashState.Placed (n : Nat) (s : FlowHashState φ) : Prop where
  rings : ∀ worker, ∀ e ∈ s.rings worker, Placement.ByHash n ⟨worker, e.1, e.2⟩
  dispatched : ∀ p ∈ s.dispatched, p.ByHash n ∧
    ∀ id, datagramId p.packet = some id → id.headersEnd ≤ p.packet.dataLen
  classified : ∀ p ∈ s.classified, p.ByHash n ∧
    ∀ t, flowTuple p.packet = some t → t.headersEnd p.packet ≤ p.packet.dataLen

namespace FlowHashState.Placed

variable {s : FlowHashState φ}

/-- A packet is put into the ring of its hash. -/
theorem enqueue (h : s.Placed n) {worker : Nat} {receivePort : BitVec 16} {packet : Mbuf}
    (hworker : Placement.ByHash n ⟨worker, receivePort, packet⟩) (enqueued : Bool) :
    (s.enqueue worker receivePort packet enqueued).Placed n := by
  cases enqueued with
  | false => exact h
  | true =>
      refine ⟨fun w e he ↦ ?_, h.dispatched, h.classified⟩
      by_cases hw : w = worker
      · subst hw
        have he' : e ∈ s.rings w ++ [(receivePort, packet)] := by
          rw [← Function.update_self w (s.rings w ++ [(receivePort, packet)]) s.rings]
          exact he
        rcases List.mem_append.mp he' with he' | he'
        · exact h.rings w e he'
        · obtain rfl := List.mem_singleton.mp he'
          exact hworker
      · have he' : e ∈ s.rings w := by
          rw [← Function.update_of_ne hw (s.rings worker ++ [(receivePort, packet)]) s.rings]
          exact he
        exact h.rings w e he'

/-- A packet is taken from a ring. -/
theorem dequeue (h : s.Placed n) {worker : Nat} {e : BitVec 16 × Mbuf}
    {rest : List (BitVec 16 × Mbuf)} (hring : s.rings worker = e :: rest) (fragments : Nat → φ) :
    { s with rings := Function.update s.rings worker rest, fragments }.Placed n := by
  refine ⟨fun w e' he' ↦ ?_, h.dispatched, h.classified⟩
  dsimp only at he'
  by_cases hw : w = worker
  · subst hw
    rw [Function.update_self] at he'
    refine h.rings w e' ?_
    rw [hring]
    exact List.mem_cons_of_mem e he'
  · rw [Function.update_of_ne hw] at he'
    exact h.rings w e' he'

/-- The main core dispatches a packet. -/
theorem dispatch (h : s.Placed n) {packet : Mbuf} (receivePort : BitVec 16) (enqueued : Bool)
    (hshown : ∀ id, datagramId packet = some id → id.headersEnd ≤ packet.dataLen) :
    (s.dispatchPacketToWorker n packet receivePort enqueued).Placed n := by
  have hlogged : FlowHashState.Placed n { s with dispatched := s.dispatched ++
      [⟨(hashPacketFlow packet receivePort).toNat % n, receivePort, packet⟩] } := by
    refine ⟨h.rings, fun p hp ↦ ?_, h.classified⟩
    rcases List.mem_append.mp hp with hp | hp
    · exact h.dispatched p hp
    · obtain rfl := List.mem_singleton.mp hp
      exact ⟨rfl, hshown⟩
  refine hlogged.enqueue ?_ enqueued
  rw [Placement.ByHash]

/-- A packet that a worker takes as its own is at the worker of its hash: one that came whole was
in the right ring, and the hash of a reassembled one has been checked. -/
theorem byHash_of_accepted (hn : 0 < n) {ctx : WorkerContext} {packet packet' : Mbuf}
    {receivePort : BitVec 16} {wasReassembled : Bool} {fragments : φ} {metadata : PacketMetadata}
    (hrings : ctx.flowHashRings = n)
    (hring : Placement.ByHash n ⟨ctx.workerId, receivePort, packet⟩)
    (hparse : (parsePacketOwned (some lib) packet ctx.currentBurstTsc fragments).1 =
      .parsed metadata packet' wasReassembled)
    (hhere : ¬ Redispatched ctx (flowHashServices ck lib svc) packet' receivePort wasReassembled) :
    Placement.ByHash n ⟨ctx.workerId, receivePort, packet'⟩ := by
  cases wasReassembled with
  | false =>
      have hpair : parsePacketOwned (some lib) packet ctx.currentBurstTsc fragments =
          (.parsed metadata packet' false,
            (parsePacketOwned (some lib) packet ctx.currentBurstTsc fragments).2) := by
        rw [← hparse]
      obtain ⟨rfl, -⟩ := flowTuple_of_parsed hpair
      exact hring
  | true =>
      have hne : ctx.flowHashRings ≠ 0 := by omega
      by_contra hthere
      refine hhere ⟨rfl, hne, fun htarget ↦ hthere ?_⟩
      rw [Placement.ByHash, ← hrings]
      exact htarget.symm

/-- A worker is done with a packet. -/
theorem settle (h : s.Placed n) {ctx : WorkerContext} (hrings : ctx.flowHashRings = n)
    {receivePort : BitVec 16} (enqueued : Bool) (r : PacketClassification × Option Mbuf)
    (haccepted : ∀ packet, r.2 = some packet → ¬ r.1.redispatch = true → r.1.parsed = true →
      Placement.ByHash n ⟨ctx.workerId, receivePort, packet⟩ ∧
        ∀ t, flowTuple packet = some t → t.headersEnd packet ≤ packet.dataLen) :
    (s.settle (flowHashServices ck lib svc) ctx receivePort enqueued r).Placed n := by
  rcases r with ⟨classification, _ | packet⟩
  · exact h
  unfold FlowHashState.settle
  dsimp only
  split
  · refine h.enqueue ?_ enqueued
    rw [Placement.ByHash, ← hrings]
    rfl
  rename_i hhere
  split
  · rename_i hparsed
    refine ⟨h.rings, h.dispatched, fun p hp ↦ ?_⟩
    rcases List.mem_append.mp hp with hp | hp
    · exact h.classified p hp
    · obtain rfl := List.mem_singleton.mp hp
      exact haccepted packet rfl hhere hparsed
  · exact h

/-- One event. -/
theorem step (hn : 0 < n) (h : s.Placed n) {a : FlowHashEvent cap φ ρ} {s' : FlowHashState φ}
    (hshown : ShowsHeaders lib s a)
    (hstep : FlowHashState.step (flowHashServices ck lib svc) n s a = some s') : s'.Placed n := by
  cases a with
  | dispatch packet receivePort enqueued =>
      cases hstep
      exact h.dispatch receivePort enqueued hshown
  | work worker ctx st enqueued =>
      rw [FlowHashState.step] at hstep
      split at hstep
      · rename_i hctx
        obtain ⟨rfl, hrings⟩ := hctx
        cases hring : s.rings ctx.workerId with
        | nil =>
            rw [hring] at hstep
            cases hstep
        | cons e rest =>
            obtain ⟨receivePort, packet⟩ := e
            rw [hring] at hstep
            dsimp only at hstep
            cases hstep
            refine (h.dequeue hring _).settle hrings enqueued _ ?_
            intro packet' hsome hhere hparsed
            have hplace : Placement.ByHash n ⟨ctx.workerId, receivePort, packet⟩ := by
              refine h.rings ctx.workerId (receivePort, packet) ?_
              rw [hring]
              exact List.mem_cons_self
            obtain ⟨metadata, wasReassembled, hservice, hhere⟩ :=
              classifyPacket_accepted hsome hhere hparsed
            have hparse : (parsePacketOwned (some lib) packet ctx.currentBurstTsc
                (s.fragments ctx.workerId)).1 = .parsed metadata packet' wasReassembled := hservice
            exact ⟨byHash_of_accepted hn hrings hplace hparse hhere,
              hshown receivePort packet rest hring metadata packet' wasReassembled hparse⟩
      · cases hstep

end FlowHashState.Placed

/-! ## Affinity -/

/-- The fragments of one datagram that arrive at a port are dispatched to one worker, and the
packets of one 5-tuple that arrive there are classified by one worker. -/
structure FlowHashState.Affine (s : FlowHashState φ) : Prop where
  fragments : ∀ p ∈ s.dispatched, ∀ q ∈ s.dispatched, p.receivePort = q.receivePort →
    ∀ id, datagramId p.packet = some id → datagramId q.packet = some id → p.worker = q.worker
  flows : ∀ p ∈ s.classified, ∀ q ∈ s.classified, p.receivePort = q.receivePort →
    ∀ t, flowTuple p.packet = some t → flowTuple q.packet = some t → p.worker = q.worker

/-- What is placed by one hash is at one worker. -/
theorem Placement.ByHash.worker_eq {p q : Placement} (hp : p.ByHash n) (hq : q.ByHash n)
    (hhash : hashPacketFlow p.packet p.receivePort = hashPacketFlow q.packet q.receivePort) :
    p.worker = q.worker := by
  rw [Placement.ByHash] at hp hq
  rw [hp, hq, hhash]

/-- **Workers keep to their flows** in every run in which the first segments show the headers. -/
theorem flowHash_affinity (ck : Cksums) (lib : FragLibrary φ) (svc : Services Mbuf ρ) (cap n : Nat)
    (hn : 0 < n) (empty : Nat → φ) {s : FlowHashState φ}
    (h : ((flowHashRuns cap (flowHashServices ck lib svc) n empty).restrict
      (ShowsHeaders lib)).Reach s) : s.Affine := by
  have hplaced : s.Placed n := by
    refine h.invariant (I := FlowHashState.Placed n) ?_ ?_
    · rintro s rfl
      exact ⟨fun _ _ he ↦ absurd he List.not_mem_nil, fun _ hp ↦ absurd hp List.not_mem_nil,
        fun _ hp ↦ absurd hp List.not_mem_nil⟩
    · intro s a s' hs hstep
      exact hs.step hn hstep.1 hstep.2
  refine ⟨fun p hp q hq hport id hid hid' ↦ ?_, fun p hp q hq hport t ht ht' ↦ ?_⟩
  · have hp' := hplaced.dispatched p hp
    have hq' := hplaced.dispatched q hq
    refine hp'.1.worker_eq hq'.1 ?_
    rw [hashPacketFlow_of_datagramId hid (hp'.2 id hid),
      hashPacketFlow_of_datagramId hid' (hq'.2 id hid'), hport]
  · have hp' := hplaced.classified p hp
    have hq' := hplaced.classified q hq
    refine hp'.1.worker_eq hq'.1 ?_
    rw [hashPacketFlow_of_flowTuple ht (hp'.2 t ht),
      hashPacketFlow_of_flowTuple ht' (hq'.2 t ht'), hport]

end Affinity

/-! ### A TCP header in two fragments -/

/-- A TCP segment without data. -/
def ackDatagram : Ipv4Packet where
  macs := List.replicate 12 0
  protocol := kIpprotoTcp
  source := 0x0A000001
  destination := 0x0A000002
  payload := [0x27, 0x10, 0x00, 0x50, 0, 0, 0, 1, 0, 0, 0, 0, 0x50, 0x10, 0xFF, 0xFF, 0, 0, 0, 0]

/-- Its first fragment, with the ports. -/
def ackFirst : Ipv4Packet :=
  { ackDatagram with fragment := 0x2000, payload := ackDatagram.payload.take 8 }

/-- Its second fragment. -/
def ackSecond : Ipv4Packet :=
  { ackDatagram with fragment := 1, payload := ackDatagram.payload.drop 8 }

/-- The two of them. -/
def ackChain : Mbuf := joinFragments kEtherHdrSize (ackFirst.inMbuf 1) (ackSecond.inMbuf 2) 20

/-- One of two workers. -/
def oneOfTwo (workerId : Nat) : WorkerContext where
  rules := {}
  flowHashRings := 2
  workerId

/-- A worker takes a packet from its ring. -/
def takesPacket (workerId : Nat) : FlowHashEvent 8 (List (Mbuf × Nat)) Unit :=
  .work workerId (oneOfTwo workerId) freshBurst true

/-- Two workers that reassemble datagrams of two fragments. -/
def pairRuns : System (FlowHashState (List (Mbuf × Nat)))
    (FlowHashEvent 8 (List (Mbuf × Nat)) Unit) :=
  flowHashRuns 8 (flowHashServices zeroCksums pairLibrary bareServices) 2 fun _ ↦ []

theorem ack_wellFormed : ackDatagram.WellFormed :=
  ⟨⟨rfl, rfl, by decide, by decide⟩, by decide +kernel, .inl ⟨rfl, by decide, by decide⟩⟩

theorem ack_fragmentation : Ipv4Packet.Fragmentation ackDatagram ackFirst [ackSecond] where
  valid := by
    simp only [List.forall_mem_cons]
    exact ⟨⟨rfl, rfl, by decide, by decide⟩, ⟨rfl, rfl, by decide, by decide⟩, by simp⟩
  several := List.cons_ne_nil _ _
  consecutive := ⟨rfl, by decide, by decide, rfl⟩
  payload := rfl
  first_payload := by decide
  options := rfl
  copied := by
    simp only [List.forall_mem_cons]
    exact ⟨by decide, by simp⟩
  same := by
    simp only [List.forall_mem_cons]
    exact ⟨⟨rfl, rfl, rfl, rfl⟩, ⟨rfl, rfl, rfl, rfl⟩, by simp⟩

/-- A TCP segment with twelve bytes of data. -/
def dataDatagram : Ipv4Packet :=
  { ackDatagram with payload := ackDatagram.payload ++ List.replicate 12 0x41 }

/-- Its first fragment, with the whole TCP header. -/
def dataFirst : Ipv4Packet :=
  { dataDatagram with fragment := 0x2000, payload := dataDatagram.payload.take 24 }

/-- Its second fragment. -/
def dataSecond : Ipv4Packet :=
  { dataDatagram with fragment := 3, payload := dataDatagram.payload.drop 24 }

/-- The two of them. -/
def dataChain : Mbuf := joinFragments kEtherHdrSize (dataFirst.inMbuf 1) (dataSecond.inMbuf 2) 20

theorem data_fragmentation : Ipv4Packet.Fragmentation dataDatagram dataFirst [dataSecond] where
  valid := by
    simp only [List.forall_mem_cons]
    exact ⟨⟨rfl, rfl, by decide, by decide⟩, ⟨rfl, rfl, by decide, by decide⟩, by simp⟩
  several := List.cons_ne_nil _ _
  consecutive := ⟨rfl, by decide, by decide, rfl⟩
  payload := rfl
  first_payload := by decide
  options := rfl
  copied := by
    simp only [List.forall_mem_cons]
    exact ⟨by decide, by simp⟩
  same := by
    simp only [List.forall_mem_cons]
    exact ⟨⟨rfl, rfl, rfl, rfl⟩, ⟨rfl, rfl, rfl, rfl⟩, by simp⟩

/-- The segment comes in fragments and whole. -/
def fragmentsThenWhole : List (FlowHashEvent 8 (List (Mbuf × Nat)) Unit) :=
  [.dispatch (dataFirst.inMbuf 1) 0 true, .dispatch (dataSecond.inMbuf 2) 0 true,
    .dispatch (dataDatagram.inMbuf 3) 0 true, takesPacket 0, takesPacket 0, takesPacket 1,
    takesPacket 1]

/-- The fragments meet at one worker, which hands the chain on to the other; that one classifies
the whole segment and the chain. -/
theorem flowHash_affinity_whole :
    Ipv4Packet.Fragmentation dataDatagram dataFirst [dataSecond] ∧
      ∃ s : FlowHashState (List (Mbuf × Nat)),
        s.dispatched = [⟨0, 0, dataFirst.inMbuf 1⟩, ⟨0, 0, dataSecond.inMbuf 2⟩,
            ⟨1, 0, dataDatagram.inMbuf 3⟩] ∧
          s.classified = [⟨1, 0, dataDatagram.inMbuf 3⟩, ⟨1, 0, dataChain⟩] ∧
          flowTuple dataChain = flowTuple (dataDatagram.inMbuf 3) ∧ s.Affine := by
  have hrun : (fragmentsThenWhole.foldlM (fun s a ↦
      if ShowsHeaders pairLibrary s a then
        FlowHashState.step (flowHashServices zeroCksums pairLibrary bareServices) 2 s a
      else none) { fragments := fun _ ↦ [] }).map (fun s ↦ (s.dispatched, s.classified)) =
        some ([⟨0, 0, dataFirst.inMbuf 1⟩, ⟨0, 0, dataSecond.inMbuf 2⟩,
            ⟨1, 0, dataDatagram.inMbuf 3⟩],
          [⟨1, 0, dataDatagram.inMbuf 3⟩, ⟨1, 0, dataChain⟩]) := by decide +kernel
  obtain ⟨s, hs, hdone⟩ := Option.map_eq_some_iff.mp hrun
  obtain ⟨hdispatched, hclassified⟩ := Prod.mk.inj hdone
  exact ⟨data_fragmentation, s, hdispatched, hclassified, by decide +kernel,
    flowHash_affinity zeroCksums pairLibrary bareServices 8 2 (by decide) (fun _ ↦ [])
      (System.reach_restrict_foldlM fragmentsThenWhole hs)⟩

/-- The segment comes in fragments and whole, and two workers classify it: the first fragment has
the ports, but not the whole TCP header, and the hash of the chain goes without them. -/
theorem cut_header_splits_flow :
    ackDatagram.WellFormed ∧ Ipv4Packet.Fragmentation ackDatagram ackFirst [ackSecond] ∧
      ∃ s, pairRuns.Reach s ∧ s.classified = [⟨0, 0, ackChain⟩, ⟨1, 0, ackDatagram.inMbuf 3⟩] ∧
        flowTuple ackChain = flowTuple (ackDatagram.inMbuf 3) ∧ ¬ s.Affine := by
  have hrun : ([.dispatch (ackFirst.inMbuf 1) 0 true, .dispatch (ackSecond.inMbuf 2) 0 true,
      .dispatch (ackDatagram.inMbuf 3) 0 true, takesPacket 0, takesPacket 0,
      takesPacket 1].foldlM
        (FlowHashState.step (flowHashServices zeroCksums pairLibrary bareServices) 2)
        { fragments := fun _ ↦ [] }).map FlowHashState.classified =
      some [⟨0, 0, ackChain⟩, ⟨1, 0, ackDatagram.inMbuf 3⟩] := by decide +kernel
  have htuple : flowTuple ackChain = flowTuple (ackDatagram.inMbuf 3) := by decide +kernel
  have hsome : (flowTuple ackChain).isSome := by decide +kernel
  obtain ⟨s, hs, hclassified⟩ := Option.map_eq_some_iff.mp hrun
  obtain ⟨t, ht⟩ := Option.isSome_iff_exists.mp hsome
  refine ⟨ack_wellFormed, ack_fragmentation, s, System.reach_foldlM _ hs, hclassified, htuple,
    fun h ↦ ?_⟩
  have hworker : (0 : Nat) = 1 := h.flows ⟨0, 0, ackChain⟩ (by rw [hclassified]; simp)
    ⟨1, 0, ackDatagram.inMbuf 3⟩ (by rw [hclassified]; simp) rfl t ht (htuple ▸ ht)
  exact absurd hworker Nat.zero_ne_one

end DpdkSpi
