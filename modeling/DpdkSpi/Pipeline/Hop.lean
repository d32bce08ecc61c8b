import DpdkSpi.Packet.Forwarded
import DpdkSpi.Pipeline.Mbufs
import DpdkSpi.Pipeline.Staging

/-!
# Forwarding by routes

With `l3_forwarding` on, a packet that is enqueued was rewritten by `UpdateL3ForwardHeaders`.
Neither the route lookup nor the rewriting asks whether the packet is IPv4: a default route takes
every IPv6 packet, and the TTL that is decremented is then a byte of its source address.
-/

namespace DpdkSpi

variable {cap : Nat} {μ σ φ ρ : Type}

/-! ## What is enqueued -/

theorem BurstState.enqueuePacket_inj {st : BurstState cap μ σ} {packet packet' : μ}
    {port port' : BitVec 16} (h : st.enqueuePacket packet port = st.enqueuePacket packet' port') :
    packet = packet' ∧ port = port' := by
  have hbuffers := congrFun (congrArg BurstState.transmitBuffers h) port
  rw [enqueuePacket_self] at hbuffers
  by_cases hport : port = port'
  · subst hport
    rw [enqueuePacket_self] at hbuffers
    exact ⟨(List.cons.inj (List.append_cancel_left hbuffers)).1, rfl⟩
  · rw [enqueuePacket_of_ne _ hport] at hbuffers
    exact absurd (List.append_right_eq_self.mp hbuffers) (List.cons_ne_nil _ _)

section Decision

variable {ctx : WorkerContext} {svc : Services μ σ} {packet forwarded : μ}
  {receivePort port : BitVec 16} {classification : PacketClassification} {st : BurstState cap μ σ}

/-- A packet that is enqueued was rewritten for its port. -/
theorem rewritten_of_enqueued
    (h : applyForwardDecision ctx svc packet receivePort classification st =
      st.enqueuePacket forwarded port) :
    prepareAndRewriteHeaders ctx svc port packet = (true, forwarded) := by
  have hdropped (dropped : μ) (st' : BurstState cap μ σ)
      (hst' : st'.transmitBuffers = st.transmitBuffers) :
      st'.dropPacket dropped ≠ st.enqueuePacket forwarded port := by
    intro heq
    refine st.enqueuePacket_transmitBuffers_ne forwarded port ?_
    rw [← heq]
    exact hst'
  cases applyForwardDecision_disposes ctx svc packet receivePort classification st with
  | byRule hmatched hst => exact absurd (hst.symm.trans h) (hdropped packet _ rfl)
  | dropped hst => exact absurd (hst.symm.trans h) (hdropped packet st rfl)
  | stuck transmitPort hst => exact absurd (hst.symm.trans h) (hdropped _ st rfl)
  | enqueued transmitPort hport hlt hrewrite hst =>
      obtain ⟨rfl, rfl⟩ := BurstState.enqueuePacket_inj (hst.symm.trans h)
      exact Prod.ext hrewrite rfl

/-- A packet that is kept and can be rewritten for its port is enqueued. -/
theorem enqueued_of_rewritten (hkept : classification.action ≠ .kDrop)
    (hmatched : ctx.dropUnmatched = false)
    (hport : resolveTransmitPort ctx classification receivePort = some port)
    (hlt : port.toNat < ctx.portCount)
    (hrewrite : prepareAndRewriteHeaders ctx svc port packet = (true, forwarded)) :
    applyForwardDecision ctx svc packet receivePort classification st =
      st.enqueuePacket forwarded port := by
  unfold applyForwardDecision
  rw [if_neg fun h ↦ hkept h.2, if_neg (by simp [hmatched]), hport]
  dsimp only
  rw [if_neg (Nat.not_le.mpr hlt), hrewrite]

/-- With routes, rewriting is `UpdateL3ForwardHeaders`. -/
theorem prepareAndRewriteHeaders_l3 (hl3 : ctx.l3Forwarding = true)
    (h : prepareAndRewriteHeaders ctx svc port packet = (true, forwarded)) :
    ∃ srcAddr dstAddr, svc.updateL3ForwardHeaders packet srcAddr dstAddr = (true, forwarded) := by
  unfold prepareAndRewriteHeaders at h
  cases hsource : ctx.portMacAddress port with
  | none =>
      rw [hsource] at h
      cases h
  | some srcAddr =>
      rw [hsource] at h
      dsimp only at h
      rw [if_pos hl3] at h
      cases hdestination : getEthernetDestination (ctx.ethernetDestinations.getD []) port with
      | none =>
          rw [hdestination] at h
          cases h
      | some dstAddr =>
          rw [hdestination] at h
          exact ⟨srcAddr, dstAddr, h⟩

end Decision

/-- Services with the parser of this repository, whose rewriting works on the buffers of packets.
Behind the data of its first mbuf a packet has the bytes `beyond`. -/
def roomServices (ck : Cksums) (beyond : Mbuf → Nat → BitVec 8)
    (fragTbl : Option (FragLibrary φ)) (svc : Services Mbuf ρ) : Services Mbuf (φ × ρ) :=
  { mbufServices ck fragTbl svc with
    updateL3ForwardHeaders := fun packet ↦ updateL3ForwardHeadersRoom ck (beyond packet) packet }

/-! ## One hop -/

/-- A packet is forwarded as it should be: it is IPv4, and one hop is taken. -/
structure RightlyForwarded (metadata : PacketMetadata) (packet forwarded : Mbuf) : Prop
    extends HopTaken packet forwarded where
  ipv4 : metadata.ipVersion = .kIpv4

/-- **What L3 forwarding changes.**  A parsed packet that is enqueued is forwarded as it should be
exactly when it is IPv4 and its TTL is in the first mbuf. -/
theorem rightlyForwarded_iff (ctx : WorkerContext) (ck : Cksums) (beyond : Mbuf → Nat → BitVec 8)
    (fragTbl : Option (FragLibrary φ)) (checked : φ → Prop)
    (hlib : ∀ lib ∈ fragTbl, lib.CompletesChecked checked) (svc : Services Mbuf ρ)
    (packet chain forwarded : Mbuf) (tsc : BitVec 64) (fragments : φ)
    (hchecked : checked fragments) (metadata : PacketMetadata) (wasReassembled : Bool)
    (hparse : (parsePacketOwned fragTbl packet tsc fragments).1 =
      .parsed metadata chain wasReassembled)
    (hl3 : ctx.l3Forwarding = true) (receivePort port : BitVec 16)
    (classification : PacketClassification) (st : BurstState cap Mbuf (φ × ρ))
    (henqueued : applyForwardDecision ctx (roomServices ck beyond fragTbl svc) chain receivePort
      classification st = st.enqueuePacket forwarded port) :
    RightlyForwarded metadata chain forwarded ↔
      metadata.ipVersion = .kIpv4 ∧ kEtherHdrSize + 8 < chain.dataLen := by
  obtain ⟨srcAddr, dstAddr, hupdate⟩ :=
    prepareAndRewriteHeaders_l3 hl3 (rewritten_of_enqueued henqueued)
  obtain ⟨room, rfl, hrewritten⟩ := updateL3ForwardHeadersRoom_rewritten hupdate
  constructor
  · rintro ⟨hhop, hipv4⟩
    have hheader := headerLen_of_parsed hlib hchecked hparse hipv4
    exact ⟨hipv4, (hrewritten.hopTaken_iff hheader).mp hhop⟩
  · rintro ⟨hipv4, hdata⟩
    have hheader := headerLen_of_parsed hlib hchecked hparse hipv4
    exact ⟨(hrewritten.hopTaken_iff hheader).mpr hdata, hipv4⟩

/-! ## A default route -/

/-- A worker on three ports with a default route to port 2. -/
def routedWorker : WorkerContext :=
  prepareWorkerContext threePorts anyAddress insertionRouteSort defaultRoute dropTcp

/-- Its services, when there is nothing behind the data of any packet. -/
def routedServices : Services Mbuf (List (Mbuf × Nat) × Unit) :=
  roomServices zeroCksums (fun _ _ ↦ 0) (some pairLibrary) bareServices

/-- The default route takes every packet that parses. -/
theorem routedWorker_enqueues (metadata : PacketMetadata) {packet : Mbuf}
    (h : (prepareAndRewriteHeaders routedWorker routedServices 2 packet).1 = true) :
    applyForwardDecision routedWorker routedServices packet 0 { metadata, parsed := true }
        freshBurst =
      freshBurst.enqueuePacket
        (prepareAndRewriteHeaders routedWorker routedServices 2 packet).2 2 := by
  have hroutes : buildL3Routes anyAddress insertionRouteSort defaultRoute = [⟨0, 0, 0, 2⟩] := by
    decide +kernel
  have hlookup : lookupL3TransmitPort (buildL3Routes anyAddress insertionRouteSort defaultRoute)
      metadata = some 2 := by
    rw [hroutes, lookupL3TransmitPort, List.find?_cons_of_pos]
    · rfl
    · exact decide_eq_true BitVec.and_zero
  exact enqueued_of_rewritten nofun rfl (resolveTransmitPort_routed rfl hlookup (by decide) _ _)
    (by decide) (Prod.ext h rfl)

/-- A UDP datagram in two fragments. -/
def routedChain : Mbuf := joinFragments kEtherHdrSize firstArrival.mbuf secondArrival.mbuf 20

/-- The second fragment comes first, and the datagram that is reassembled is forwarded. -/
theorem rightlyForwarded_reassembled :
    ∃ metadata forwarded,
      (parsePacketOwned (some pairLibrary) firstArrival.mbuf 0 [(secondArrival.mbuf, 20)]).1 =
          .parsed metadata routedChain true ∧
        applyForwardDecision routedWorker routedServices routedChain 0 { metadata, parsed := true }
          freshBurst = freshBurst.enqueuePacket forwarded 2 ∧
        RightlyForwarded metadata routedChain forwarded := by
  refine ⟨_, _, rfl, routedWorker_enqueues _ (by decide +kernel), ?_⟩
  refine (rightlyForwarded_iff routedWorker zeroCksums (fun _ _ ↦ 0) (some pairLibrary)
    CheckedPairs ?_ bareServices firstArrival.mbuf routedChain _ 0 [(secondArrival.mbuf, 20)] ?_
    _ true rfl rfl 0 2 _ freshBurst (routedWorker_enqueues {} (by decide +kernel))).mpr
    ⟨rfl, by decide⟩
  · intro lib hlib
    obtain rfl := Option.mem_some_iff.mp hlib
    exact pairLibrary_completesChecked
  · intro f hf
    obtain rfl := List.mem_singleton.mp hf
    exact ⟨by decide, by decide⟩

/-- A UDP datagram over IPv6. -/
def routedDatagram6 : Mbuf :=
  ⟨⟨1, { queryDatagram6 with source := Vector.replicate 16 0x20 : Ipv6Packet }.bytes⟩, []⟩

/-- The default route takes it, and the first byte of its source address is decremented. -/
theorem ipv6_source_decremented :
    ∃ metadata forwarded,
      (parsePacketOwned (some pairLibrary) routedDatagram6 0 []).1 =
          .parsed metadata routedDatagram6 false ∧
        applyForwardDecision routedWorker routedServices routedDatagram6 0
          { metadata, parsed := true } freshBurst = freshBurst.enqueuePacket forwarded 2 ∧
        routedDatagram6.bytes[kEtherHdrSize + 8]? = some 0x20 ∧
        forwarded.bytes[kEtherHdrSize + 8]? = some 0x1F ∧
        ¬ RightlyForwarded metadata routedDatagram6 forwarded := by
  refine ⟨_, _, rfl, routedWorker_enqueues _ (by decide +kernel), by decide +kernel,
    by decide +kernel, fun h ↦ ?_⟩
  cases h.ipv4

end DpdkSpi
