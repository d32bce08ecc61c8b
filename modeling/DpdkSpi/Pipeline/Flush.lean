import DpdkSpi.Lib.Families
import DpdkSpi.Pipeline.Counters
import DpdkSpi.Pipeline.Staging

/-!
# Flushing the staging buffers

A packet may be staged for any port that has a staging buffer, but only the buffers of active
ports are flushed.  What the flush leaves behind is forgotten when the next iteration starts.
-/

namespace DpdkSpi

variable {cap : Nat} {μ σ : Type}

/-! ## The flush -/

/-- What flushing some ports does: their packets are accepted, or freed and counted as
dropped. -/
structure Flushes (ports : List (BitVec 16)) (r r' : List μ × BurstState cap μ σ)
    (sent unsent : List μ) : Prop where
  accepted : r'.1 = r.1 ++ sent
  freed : r'.2.freed = r.2.freed ++ unsent
  transmitted : r'.2.counters.transmitted = r.2.counters.transmitted + sent.length
  dropped : r'.2.counters.dropped = r.2.counters.dropped + unsent.length
  parsed : r'.2.counters.parsed = r.2.counters.parsed
  malformed : r'.2.counters.malformed = r.2.counters.malformed
  perm : (sent ++ unsent).Perm (ports.flatMap r.2.transmitBuffers)

theorem flushPort_flushes (accepted : BitVec 16 → Nat) (r : List μ × BurstState cap μ σ)
    (portId : BitVec 16) :
    (∃ sent unsent, Flushes [portId] r (flushPort accepted r portId) sent unsent) ∧
      ∀ q, q ≠ portId →
        (flushPort accepted r portId).2.transmitBuffers q = r.2.transmitBuffers q := by
  unfold flushPort
  dsimp only
  split
  · rename_i hempty
    refine ⟨⟨[], [], ?_⟩, fun q hq ↦ rfl⟩
    constructor <;> simp [List.length_eq_zero_iff.mp hempty]
  · generalize hsent : min (accepted portId) (r.2.transmitBuffers portId).length = sent
    have hle : sent ≤ (r.2.transmitBuffers portId).length := hsent ▸ Nat.min_le_right _ _
    refine ⟨⟨(r.2.transmitBuffers portId).take sent, (r.2.transmitBuffers portId).drop sent, ?_⟩,
      fun q hq ↦ Function.update_of_ne hq _ _⟩
    constructor <;> simp [BurstState.count, Nat.min_eq_left hle]

theorem Flushes.nil (r : List μ × BurstState cap μ σ) : Flushes [] r r [] [] := by
  constructor <;> simp

/-- Ports are flushed one after the other; the buffers of later ports are not touched. -/
theorem Flushes.cons {portId : BitVec 16} {ports : List (BitVec 16)}
    {r r' r'' : List μ × BurstState cap μ σ} {sent unsent sent' unsent' : List μ}
    (h : Flushes [portId] r r' sent unsent) (h' : Flushes ports r' r'' sent' unsent')
    (hbuffers : ∀ q ∈ ports, r'.2.transmitBuffers q = r.2.transmitBuffers q) :
    Flushes (portId :: ports) r r'' (sent ++ sent') (unsent ++ unsent') where
  accepted := by rw [h'.accepted, h.accepted, List.append_assoc]
  freed := by rw [h'.freed, h.freed, List.append_assoc]
  transmitted := by rw [h'.transmitted, h.transmitted, List.length_append, Nat.add_assoc]
  dropped := by rw [h'.dropped, h.dropped, List.length_append, Nat.add_assoc]
  parsed := h'.parsed.trans h.parsed
  malformed := h'.malformed.trans h.malformed
  perm := by
    have hone : (sent ++ unsent).Perm (r.2.transmitBuffers portId) := by
      simpa using h.perm
    have hrest : (sent' ++ unsent').Perm (ports.flatMap r.2.transmitBuffers) := by
      rw [← List.flatMap_congr hbuffers]
      exact h'.perm
    rw [List.flatMap_cons]
    refine List.Perm.trans ?_ (hone.append hrest)
    rw [List.append_assoc, List.append_assoc]
    refine List.Perm.append_left sent ?_
    rw [← List.append_assoc, ← List.append_assoc]
    exact (List.perm_append_comm).append_right unsent'

/-- **What `FlushTransmitBuffers` does.** -/
theorem foldl_flushPort_flushes (accepted : BitVec 16 → Nat) {ports : List (BitVec 16)}
    (hnodup : ports.Nodup) (r : List μ × BurstState cap μ σ) :
    ∃ sent unsent, Flushes ports r (ports.foldl (flushPort accepted) r) sent unsent := by
  induction ports generalizing r with
  | nil => exact ⟨[], [], .nil r⟩
  | cons portId ports ih =>
      obtain ⟨hnotin, hnodup⟩ := List.nodup_cons.mp hnodup
      obtain ⟨⟨sent, unsent, hone⟩, hbuffers⟩ := flushPort_flushes accepted r portId
      obtain ⟨sent', unsent', hrest⟩ := ih hnodup (flushPort accepted r portId)
      refine ⟨sent ++ sent', unsent ++ unsent', hone.cons hrest fun q hq ↦ hbuffers q ?_⟩
      rintro rfl
      exact hnotin hq

/-! ## What is staged -/

/-- The ports with a staging buffer. -/
def portIds (portCount : Nat) : List (BitVec 16) := (List.range portCount).map (BitVec.ofNat 16)

theorem mem_portIds {portCount : Nat} (hlt : portCount < 2 ^ 16) {p : BitVec 16} :
    p ∈ portIds portCount ↔ p.toNat < portCount := by
  rw [portIds, List.mem_map]
  constructor
  · rintro ⟨n, hn, rfl⟩
    rw [List.mem_range] at hn
    rw [BitVec.toNat_ofNat, Nat.mod_eq_of_lt (hn.trans hlt)]
    exact hn
  · intro hp
    refine ⟨p.toNat, List.mem_range.mpr hp, ?_⟩
    rw [BitVec.ofNat_toNat, BitVec.setWidth_eq]

theorem nodup_portIds {portCount : Nat} (hlt : portCount < 2 ^ 16) : (portIds portCount).Nodup := by
  refine List.Nodup.map_on ?_ List.nodup_range
  intro n hn m hm h
  have hnat := congrArg BitVec.toNat h
  rw [List.mem_range] at hn hm
  rwa [BitVec.toNat_ofNat, BitVec.toNat_ofNat, Nat.mod_eq_of_lt (hn.trans hlt),
    Nat.mod_eq_of_lt (hm.trans hlt)] at hnat

/-- The packets in the staging buffers. -/
def stagedPackets (portCount : Nat) (st : BurstState cap μ σ) : List μ :=
  (portIds portCount).flatMap st.transmitBuffers

/-- A packet is staged, dropped, or with the fragment table. -/
theorem Disposes.staged {ctx : WorkerContext} (hports : ctx.portCount < 2 ^ 16)
    {svc : Services μ σ} {packet : μ} {port : BitVec 16} {classification : PacketClassification}
    {st st' : BurstState cap μ σ} (h : Disposes ctx svc packet port classification st st') :
    (stagedPackets ctx.portCount st').length + st'.counters.dropped =
      (stagedPackets ctx.portCount st).length + st.counters.dropped + 1 := by
  cases h with
  | byRule hmatched hst =>
      subst hst
      rfl
  | dropped hst =>
      subst hst
      rfl
  | stuck transmitPort hst =>
      subst hst
      rfl
  | enqueued transmitPort hport hlt hrewrite hst =>
      subst hst
      have hone := (Lib.flatMap_perm_of_append (nodup_portIds hports) ((mem_portIds hports).mpr hlt)
        (st.enqueuePacket_self (prepareAndRewriteHeaders ctx svc transmitPort packet).2
          transmitPort)
        fun p hp ↦ BurstState.enqueuePacket_of_ne _ hp st).length_eq
      have hdropped : (st.enqueuePacket (prepareAndRewriteHeaders ctx svc transmitPort packet).2
          transmitPort).counters.dropped = st.counters.dropped := rfl
      rw [stagedPackets, hone, hdropped, Nat.add_right_comm]
      rfl

theorem Finalizes.staged {ctx : WorkerContext} (hports : ctx.portCount < 2 ^ 16)
    {svc : Services μ σ} {portId : BitVec 16} {st st' : BurstState cap μ σ} {slot : PacketSlot μ}
    (h : Finalizes ctx svc portId st st' slot) :
    (stagedPackets ctx.portCount st').length + st'.counters.dropped =
      (stagedPackets ctx.portCount st).length + st.counters.dropped +
        (slot.isMapped.toNat + slot.isUnmapped.toNat) := by
  cases h with
  | waiting hst =>
      subst hst
      rfl
  | unmapped hst =>
      subst hst
      rfl
  | mapped mid classification hdecides hdisposes =>
      have hstaged := hdisposes.staged hports
      rw [hdecides.dropped] at hstaged
      rw [stagedPackets, stagedPackets, hdecides.buffers] at hstaged
      exact hstaged

/-- Phase 3 stages or drops every packet that is not with the fragment table. -/
theorem foldl_finalizePacket_staged {ctx : WorkerContext} (hports : ctx.portCount < 2 ^ 16)
    (svc : Services μ σ) (portId : BitVec 16) (b : ParsedBurst)
    (spiMatches : List ClassificationResult) (slots : List (PacketSlot μ))
    (st : BurstState cap μ σ) :
    (stagedPackets ctx.portCount
          (slots.foldl (finalizePacket ctx svc portId b spiMatches) st)).length +
        (slots.foldl (finalizePacket ctx svc portId b spiMatches) st).counters.dropped =
      (stagedPackets ctx.portCount st).length + st.counters.dropped +
        (slots.countP PacketSlot.isMapped + slots.countP PacketSlot.isUnmapped) := by
  induction slots generalizing st with
  | nil => rfl
  | cons slot slots ih =>
      have hone := (finalizePacket_finalizes ctx svc portId b spiMatches st slot).staged hports
      have hrest := ih (finalizePacket ctx svc portId b spiMatches st slot)
      have hcount : ∀ p : PacketSlot μ → Bool,
          (slot :: slots).countP p = (p slot).toNat + slots.countP p := by
        intro p
        rw [List.countP_cons, Nat.add_comm]
        cases p slot <;> rfl
      rw [List.foldl_cons, hrest, hone, hcount, hcount]
      omega

/-- What a burst counts as parsed and as malformed is staged or dropped; nothing is transmitted
yet. -/
def StagedBalance (portCount : Nat) (st : BurstState cap μ σ) : Prop :=
  st.counters.transmitted = 0 ∧
    (stagedPackets portCount st).length + st.counters.dropped =
      st.counters.parsed + st.counters.malformed

theorem StagedBalance.burst (ctx : WorkerContext) (hports : ctx.portCount < 2 ^ 16)
    (svc : Services μ σ) (portId : BitVec 16) (received : List μ) {st : BurstState cap μ σ}
    (h : StagedBalance ctx.portCount st) :
    StagedBalance ctx.portCount (processPortBurst ctx svc portId received st) := by
  obtain ⟨-, hcounters⟩ := parseReceivedPackets_counters ctx svc received 0
    (st.count fun c ↦ { c with received := c.received + received.length })
  obtain ⟨-, hbuffers, -⟩ := openBurst_frame ctx svc received st
  rw [processPortBurst_eq, finalizePackets]
  generalize spiResults _ _ _ _ = spiMatches
  have hopened : (openBurst ctx svc received st).2.counters =
      { st.counters with
        received := st.counters.received + received.length
        parsed := st.counters.parsed +
          (openBurst ctx svc received st).1.1.countP PacketSlot.isMapped
        malformed := st.counters.malformed +
          (openBurst ctx svc received st).1.1.countP PacketSlot.isUnmapped } := hcounters
  generalize openBurst ctx svc received st = opened at *
  have htallies := foldl_finalizePacket_tallies ctx svc portId opened.1.2 spiMatches opened.1.1
    opened.2
  have hstaged := foldl_finalizePacket_staged hports svc portId opened.1.2 spiMatches opened.1.1
    opened.2
  have hsame : stagedPackets ctx.portCount opened.2 = stagedPackets ctx.portCount st := by
    rw [stagedPackets, hbuffers, stagedPackets]
  obtain ⟨htransmitted, hbalance⟩ := h
  refine ⟨?_, ?_⟩
  · rw [htallies.transmitted, hopened]
    exact htransmitted
  · rw [hstaged, htallies.parsed, htallies.malformed, hsame, hopened]
    dsimp only
    omega

theorem StagedBalance.ports {ctx : WorkerContext} (hports : ctx.portCount < 2 ^ 16)
    (svc : Services μ σ) (polls : BitVec 16 → Poll μ) (ports : List (BitVec 16))
    {st : BurstState cap μ σ} (h : StagedBalance ctx.portCount st) :
    StagedBalance ctx.portCount (processPorts ctx svc polls ports st) := by
  induction ports generalizing st with
  | nil => exact h
  | cons portId ports ih =>
      have hburst : StagedBalance ctx.portCount
          (processPortBurst { ctx with currentBurstTsc := (polls portId).tsc } svc portId
            (polls portId).received st) :=
        StagedBalance.burst { ctx with currentBurstTsc := (polls portId).tsc } hports svc portId _ h
      exact ih hburst

theorem QueueIteration.staged_balance {i : QueueIteration cap μ σ}
    (hports : i.ctx.portCount < 2 ^ 16) : StagedBalance i.ctx.portCount i.staged := by
  have hzero : stagedPackets i.ctx.portCount i.start = [] :=
    List.flatMap_eq_nil_iff.mpr fun _ _ ↦ rfl
  have hstart : StagedBalance i.ctx.portCount i.start := by
    refine ⟨rfl, ?_⟩
    rw [hzero]
    rfl
  exact hstart.ports hports i.svc i.polls i.ctx.activePorts

/-! ## What is flushed -/

namespace QueueIteration

/-- **Every staged packet is flushed**: the buffers hold what was staged, each packet in them is
accepted for transmission, or freed and counted as dropped, and so the counters of the iteration
account for every packet that came to a decision. -/
structure Flushed (i : QueueIteration cap μ σ) : Prop where
  fits : i.StagingFits
  packets : ∃ unsent, i.run.2.freed = i.staged.freed ++ unsent ∧
    i.run.2.counters.dropped = i.staged.counters.dropped + unsent.length ∧
    (stagedPackets i.ctx.portCount i.staged).Perm (i.run.1 ++ unsent)
  balance : i.counters.parsed + i.counters.malformed =
    i.counters.transmitted + i.counters.dropped

theorem run_flushes {i : QueueIteration cap μ σ} (hnodup : i.ctx.activePorts.Nodup) :
    ∃ sent unsent, Flushes i.ctx.activePorts ([], i.staged) i.run sent unsent :=
  foldl_flushPort_flushes i.accepted hnodup ([], i.staged)

end QueueIteration

/-- A configuration under which every staging buffer in use is flushed: ports are paired, or every
routed port with a staging buffer is active. -/
def FlushCovers (env : Environment) (routes : List L3RouteEntry) (l3 : L3ForwardConfig) : Prop :=
  l3.enabled = false ∨ ∀ port, Routed routes port → port.toNat < env.portCount →
    port ∈ env.activePorts

section Configuration

variable {env : Environment} {inetPton : InetPton} {rs : RouteSort} {l3 : L3ForwardConfig}
  {ctx : WorkerContext} {burstSize : BitVec 16}

/-- Then nothing is staged for other ports. -/
theorem FlushCovers.staged_eq_nil (h : FlushCovers env (buildL3Routes inetPton rs l3) l3)
    {i : QueueIteration cap μ σ} (hi : Configured env inetPton rs l3 ctx burstSize i)
    {q : BitVec 16} (hq : q ∉ env.activePorts) : i.staged.transmitBuffers q = [] := by
  have hactive : i.ctx.activePorts = env.activePorts := by rw [hi.context]; rfl
  have hopen : ∀ p, decide (p ∉ env.activePorts) = false → ¬ Leads i.ctx p q := by
    intro p hp hleads
    have hp : p ∈ env.activePorts := not_not.mp (of_decide_eq_false hp)
    rw [hi.context] at hleads
    cases hl3 : l3.enabled with
    | false =>
        have hpair : getTransmitPort env.activePorts p = q := getTransmitPort_of_leads hl3 hleads
        rw [← hpair] at hq
        exact hq (getTransmitPort_mem env.active_nodup hp)
    | true =>
        obtain ⟨hrouted, hlt, -⟩ := routed_of_leads hl3 hleads
        rcases h with h | h
        · exact absurd (hl3.symm.trans h) (by decide)
        · exact hq (h q hrouted hlt)
  have hnone : env.activePorts.countP (fun p ↦ p ∉ env.activePorts) = 0 := by
    rw [List.countP_eq_zero]
    exact fun p hp hnot ↦ of_decide_eq_true hnot hp
  have hlength := processPorts_length_le i.svc hi.burst hopen i.ctx.activePorts i.start
  rw [hactive, hnone, Nat.zero_mul] at hlength
  rw [← hactive] at hlength
  exact List.length_eq_zero_iff.mp (Nat.le_zero.mp hlength)

/-- The packets of the active ports are then all that is staged. -/
theorem FlushCovers.perm (h : FlushCovers env (buildL3Routes inetPton rs l3) l3)
    {i : QueueIteration cap μ σ} (hi : Configured env inetPton rs l3 ctx burstSize i) :
    (stagedPackets env.portCount i.staged).Perm
      (env.activePorts.flatMap i.staged.transmitBuffers) := by
  have hnodup := nodup_portIds env.portCount_lt
  have hsplit := List.filter_append_perm (fun p ↦ p ∈ env.activePorts) (portIds env.portCount)
  have hactive : ((portIds env.portCount).filter fun p ↦ p ∈ env.activePorts).Perm
      env.activePorts := by
    refine (List.perm_ext_iff_of_nodup (hnodup.filter _) env.active_nodup).mpr fun p ↦ ?_
    rw [List.mem_filter, mem_portIds env.portCount_lt, decide_eq_true_iff, and_iff_right_iff_imp]
    exact env.active_lt p
  have hrest : ((portIds env.portCount).filter fun p ↦ !decide (p ∈ env.activePorts)).flatMap
      i.staged.transmitBuffers = [] := by
    refine List.flatMap_eq_nil_iff.mpr fun p hp ↦ h.staged_eq_nil hi ?_
    simpa using (List.mem_filter.mp hp).2
  refine (hsplit.flatMap_right i.staged.transmitBuffers).symm.trans ?_
  rw [List.flatMap_append, hrest, List.append_nil]
  exact hactive.flatMap_right i.staged.transmitBuffers

theorem Configured.flushed
    (hfits : StagingSuffices env (buildL3Routes inetPton rs l3) l3 (clampBurstSize burstSize))
    (hcovers : FlushCovers env (buildL3Routes inetPton rs l3) l3)
    {i : QueueIteration cap μ σ} (hi : Configured env inetPton rs l3 ctx burstSize i) :
    i.Flushed := by
  have hactive : i.ctx.activePorts = env.activePorts := by rw [hi.context]; rfl
  have hcount : i.ctx.portCount = env.portCount := by rw [hi.context]; rfl
  obtain ⟨sent, unsent, hflush⟩ := i.run_flushes (hactive ▸ env.active_nodup)
  have hperm := (hcovers.perm hi).trans (hactive ▸ hflush.perm.symm)
  obtain ⟨htransmitted, hbalance⟩ := i.staged_balance (hcount ▸ env.portCount_lt)
  rw [← hcount] at hperm
  refine ⟨hfits.fits hi, ⟨unsent, hflush.freed, hflush.dropped, ?_⟩, ?_⟩
  · rw [hflush.accepted]
    exact hperm
  · have hlength := hperm.length_eq
    rw [List.length_append] at hlength
    rw [QueueIteration.counters, hflush.parsed, hflush.malformed, hflush.transmitted,
      hflush.dropped]
    dsimp only
    omega

/-- A packet for an inactive port stays behind. -/
theorem mem_of_flushed (hvalid : validateL3ForwardConfig inetPton l3 = .ok ())
    (hl3 : l3.enabled = true) {metadata : PacketMetadata} {port : BitVec 16}
    (hroute : lookupL3TransmitPort (buildL3Routes inetPton rs l3) metadata = some port)
    (hlt : port.toNat < env.portCount)
    (h : (fullFlood (prepareWorkerContext env inetPton rs l3 ctx) metadata port 1).Flushed) :
    port ∈ env.activePorts := by
  by_contra hport
  have hflooded := flood_flooded ctx hvalid hl3 hroute hlt
    (fun p ↦ if p = port then 0 else 1) (if_pos rfl)
  obtain ⟨sent, unsent, hflush⟩ := (fullFlood (prepareWorkerContext env inetPton rs l3 ctx) metadata
    port 1).run_flushes env.active_nodup
  have hnil : sent ++ unsent = [] := by
    refine List.perm_nil.mp (hflush.perm.trans (.of_eq (List.flatMap_eq_nil_iff.mpr ?_)))
    intro q hq
    exact hflooded.others q fun h ↦ hport (h ▸ hq)
  obtain ⟨rfl, rfl⟩ := List.append_eq_nil_iff.mp hnil
  obtain ⟨unsent, hfreed, -, hperm⟩ := h.packets
  rw [hflush.freed] at hfreed
  obtain rfl : unsent = [] := (List.append_cancel_left hfreed).symm
  rw [hflush.accepted] at hperm
  have hempty := List.flatMap_eq_nil_iff.mp (List.perm_nil.mp hperm) port
    ((mem_portIds env.portCount_lt).mpr hlt)
  have hstaged := hflooded.staged
  rw [sum_counts_eq, Nat.mul_one] at hstaged
  have hall : env.activePorts.countP (fun p ↦ p ≠ port) = env.activePorts.length := by
    rw [List.countP_eq_length]
    exact fun p hp ↦ decide_eq_true fun h ↦ hport (h ▸ hp)
  rw [hall] at hstaged
  have hzero : env.activePorts.length = 0 := hstaged.symm.trans (congrArg List.length hempty)
  exact env.active_ne_nil (List.length_eq_zero_iff.mp hzero)

end Configuration

/-- **When every staged packet is flushed.**  With an accepted configuration, every iteration of a
worker, whatever its traffic, flushes the packets it stages and accounts for them, exactly when
the staging buffers suffice and every routed port that has one is active. -/
theorem staged_flushed_iff (env : Environment) (inetPton : InetPton) (rs : RouteSort)
    (l3 : L3ForwardConfig) (hvalid : validateL3ForwardConfig inetPton l3 = .ok ())
    (ctx : WorkerContext) (burstSize : BitVec 16) :
    (∀ (cap : Nat) (μ σ : Type) (i : QueueIteration cap μ σ),
        Configured env inetPton rs l3 ctx burstSize i → i.Flushed) ↔
      StagingSuffices env (buildL3Routes inetPton rs l3) l3 (clampBurstSize burstSize) ∧
        FlushCovers env (buildL3Routes inetPton rs l3) l3 := by
  constructor
  · intro h
    refine ⟨.of_fits hvalid fun i hi ↦ (h _ _ _ i hi).fits, ?_⟩
    by_cases hl3 : l3.enabled = true
    · refine .inr fun port ⟨metadata, hroute⟩ hlt ↦ ?_
      have hone : 1 ≤ clampBurstSize burstSize := Nat.le_max_left _ _
      exact mem_of_flushed hvalid hl3 hroute hlt
        (h _ _ _ _ (fullFlood_configured metadata port hone))
    · exact .inl (Bool.not_eq_true _ ▸ hl3)
  · rintro ⟨hfits, hcovers⟩ cap μ σ i hi
    exact hi.flushed hfits hcovers

/-- Bursts of 128 packets on three active ports with a default route are flushed. -/
theorem staged_flushed_default_route :
    ∃ i : QueueIteration 1 PacketMetadata Unit,
      Configured threePorts anyAddress insertionRouteSort defaultRoute dropTcp 128 i ∧
        i.Flushed := by
  refine ⟨_, fullFlood_configured {} 2 le_rfl, (staged_flushed_iff threePorts anyAddress
    insertionRouteSort defaultRoute defaultRoute_valid dropTcp 128).mpr ⟨.inr ?_, .inr ?_⟩ _ _ _ _
    (fullFlood_configured {} 2 le_rfl)⟩
  · rintro port ⟨metadata, hroute⟩ hlt
    obtain ⟨route, hmem, rfl⟩ := exists_route_of_lookup hroute
    obtain rfl := List.mem_singleton.mp hmem
    decide
  · rintro port ⟨metadata, hroute⟩ hlt
    obtain ⟨route, hmem, rfl⟩ := exists_route_of_lookup hroute
    obtain rfl := List.mem_singleton.mp hmem
    decide

/-- Three ports, of which the port mask leaves two. -/
def twoOfThreePorts : Environment :=
  { threePorts with
    activePorts := [0, 1]
    active_nodup := by decide
    active_lt := by simp [threePorts]
    active_ne_nil := by decide }

/-- Two packets for the inactive port are staged; they are neither sent nor freed, and the
counters miss them. -/
theorem inactive_port_loses_packets :
    validateL3ForwardConfig anyAddress defaultRoute = .ok () ∧
      ∃ i : QueueIteration 1 PacketMetadata Unit,
        Configured twoOfThreePorts anyAddress insertionRouteSort defaultRoute dropTcp 32 i ∧
          (i.staged.transmitBuffers 2).length = 2 ∧ i.run.1 = [] ∧ i.run.2.freed = [] ∧
          i.counters.parsed = 2 ∧ i.counters.transmitted = 0 ∧ i.counters.dropped = 0 ∧
          ¬ i.Flushed := by
  have hburst : 1 ≤ clampBurstSize 32 := by decide
  have hroute : lookupL3TransmitPort (buildL3Routes anyAddress insertionRouteSort defaultRoute) {} =
      some 2 := by decide +kernel
  refine ⟨defaultRoute_valid, _, fullFlood_configured {} 2 hburst, by decide +kernel,
    by decide +kernel, by decide +kernel, by decide +kernel, by decide +kernel, by decide +kernel,
    fun h ↦ ?_⟩
  exact absurd (mem_of_flushed defaultRoute_valid rfl hroute (by decide) h) (by decide)

end DpdkSpi
