import DpdkSpi.Pipeline.Burst

/-!
# States that decisions cannot tell apart

What phase 3 of a burst does with a packet depends on the flow table only through its insertions,
on the world only through the services, and not at all on the counters.  Two states that are
coupled by relations the insertions and the services respect get the same decision and stay
coupled.
-/

namespace DpdkSpi

variable {cap : Nat} {μ σ φ ρ : Type}

/-- Insertions have the same outcome in related tables and keep them related. -/
def InsertsRespect (T : FlowTable cap → FlowTable cap → Prop) : Prop :=
  ∀ {t t' : FlowTable cap}, T t t' → ∀ key action now slot,
    (t.insert key 1 action now slot).1 = (t'.insert key 1 action now slot).1 ∧
      T (t.insert key 1 action now slot).2 (t'.insert key 1 action now slot).2

/-- The services behind a decision answer alike in related worlds and keep them related. -/
structure Services.Respects (svc : Services μ σ) (W : σ → σ → Prop) : Prop where
  insertChoice : ∀ key {w w'}, W w w' →
    (svc.insertChoice key w).1 = (svc.insertChoice key w').1 ∧
      W (svc.insertChoice key w).2 (svc.insertChoice key w').2
  tcpReassembler : ∀ insert, svc.tcpReassembler = some insert → ∀ metadata payload tsc {w w'},
    W w w' → (insert metadata payload tsc w).1 = (insert metadata payload tsc w').1 ∧
      W (insert metadata payload tsc w).2 (insert metadata payload tsc w').2
  dpiLookup : ∀ hostname {w w'}, W w w' →
    (svc.dpiLookup hostname w).1 = (svc.dpiLookup hostname w').1 ∧
      W (svc.dpiLookup hostname w).2 (svc.dpiLookup hostname w').2

/-- What a decision on one flow does to tables and worlds, it does alike on both sides.  The two
clocks need not show the same time, and nothing is said about insertions of other flows. -/
structure Services.Couples (svc : Services μ σ) (key : FlowKey)
    (T : FlowTable cap → FlowTable cap → Prop) (W : σ → σ → Prop) : Prop where
  insertFlow : ∀ action {t t' : FlowTable cap} {w w'}, T t t' → W w w' →
    (t.insert key 1 action (svc.insertChoice key w).1.1 (svc.insertChoice key w).1.2).1 =
        (t'.insert key 1 action (svc.insertChoice key w').1.1 (svc.insertChoice key w').1.2).1 ∧
      T (t.insert key 1 action (svc.insertChoice key w).1.1 (svc.insertChoice key w).1.2).2
        (t'.insert key 1 action (svc.insertChoice key w').1.1 (svc.insertChoice key w').1.2).2 ∧
      W (svc.insertChoice key w).2 (svc.insertChoice key w').2
  tcpReassembler : ∀ insert, svc.tcpReassembler = some insert → ∀ metadata payload tsc {w w'},
    W w w' → (insert metadata payload tsc w).1 = (insert metadata payload tsc w').1 ∧
      W (insert metadata payload tsc w).2 (insert metadata payload tsc w').2
  dpiLookup : ∀ hostname {w w'}, W w w' →
    (svc.dpiLookup hostname w).1 = (svc.dpiLookup hostname w').1 ∧
      W (svc.dpiLookup hostname w).2 (svc.dpiLookup hostname w').2

theorem Services.Respects.couples {svc : Services μ σ} {T : FlowTable cap → FlowTable cap → Prop}
    {W : σ → σ → Prop} (hW : svc.Respects W) (hT : InsertsRespect T) (key : FlowKey) :
    svc.Couples key T W where
  insertFlow := by
    intro action t t' w w' ht hw
    obtain ⟨hchoice, hworld⟩ := hW.insertChoice key hw
    rw [hchoice]
    exact ⟨(hT ht key action _ _).1, (hT ht key action _ _).2, hworld⟩
  tcpReassembler := hW.tcpReassembler
  dpiLookup := hW.dpiLookup

/-- Coupled states: related tables and worlds, the same staged and freed packets. -/
structure Coupled (T : FlowTable cap → FlowTable cap → Prop) (W : σ → σ → Prop)
    (st st' : BurstState cap μ σ) : Prop where
  flowTable : T st.flowTable st'.flowTable
  buffers : st.transmitBuffers = st'.transmitBuffers
  freed : st.freed = st'.freed
  world : W st.world st'.world

/-- Two computations agree: they return the same, in coupled states. -/
def Agree (T : FlowTable cap → FlowTable cap → Prop) (W : σ → σ → Prop) {α : Type}
    (r r' : α × BurstState cap μ σ) : Prop :=
  ∃ x s s', r = (x, s) ∧ r' = (x, s') ∧ Coupled T W s s'

section Coupling

variable {T : FlowTable cap → FlowTable cap → Prop} {W : σ → σ → Prop}
  {st st' : BurstState cap μ σ}

namespace Coupled

/-- Counting does not matter. -/
theorem count (h : Coupled T W st st') (f g : BurstCounters → BurstCounters) :
    Coupled T W (st.count f) (st'.count g) :=
  ⟨h.flowTable, h.buffers, h.freed, h.world⟩

theorem withWorld (h : Coupled T W st st') {w w' : σ} (hw : W w w') :
    Coupled T W { st with world := w } { st' with world := w' } :=
  ⟨h.flowTable, h.buffers, h.freed, hw⟩

theorem dropPacket (h : Coupled T W st st') (packet : μ) :
    Coupled T W (st.dropPacket packet) (st'.dropPacket packet) :=
  ⟨h.flowTable, h.buffers, congrArg (· ++ [packet]) h.freed, h.world⟩

theorem enqueuePacket (h : Coupled T W st st') (packet : μ) (port : BitVec 16) :
    Coupled T W (st.enqueuePacket packet port) (st'.enqueuePacket packet port) := by
  refine ⟨h.flowTable, ?_, h.freed, h.world⟩
  rw [BurstState.enqueuePacket, BurstState.enqueuePacket, h.buffers]

/-- The last stage decides by its arguments alone. -/
theorem applyForwardDecision (h : Coupled T W st st') (ctx : WorkerContext) (svc : Services μ σ)
    (packet : μ) (port : BitVec 16) (classification : PacketClassification) :
    Coupled T W (applyForwardDecision ctx svc packet port classification st)
      (applyForwardDecision ctx svc packet port classification st') := by
  unfold DpdkSpi.applyForwardDecision
  split
  · exact (h.count _ _).dropPacket packet
  split
  · exact h.dropPacket packet
  cases resolveTransmitPort ctx classification port with
  | none => exact h.dropPacket packet
  | some transmitPort =>
      dsimp only
      split
      · exact h.dropPacket packet
      · rcases prepareAndRewriteHeaders ctx svc transmitPort packet with ⟨_ | _, packet'⟩
        · exact h.dropPacket packet'
        · exact h.enqueuePacket packet' transmitPort

end Coupled

theorem Coupled.agree (h : Coupled T W st st') {α : Type} (x : α) : Agree T W (x, st) (x, st') :=
  ⟨x, st, st', rfl, rfl, h⟩

theorem Agree.ite {α : Type} {c : Prop} [Decidable c] {r₁ r₂ r₁' r₂' : α × BurstState cap μ σ}
    (hpos : c → Agree T W r₁ r₁') (hneg : ¬ c → Agree T W r₂ r₂') :
    Agree T W (if c then r₁ else r₂) (if c then r₁' else r₂') := by
  split
  · rename_i h
    exact hpos h
  · rename_i h
    exact hneg h

variable {svc : Services μ σ} {key : FlowKey} (hsvc : svc.Couples key T W)

include hsvc

/-- An insertion, with its outcome. -/
theorem Coupled.insertFlow (h : Coupled T W st st') (action : Action) :
    Agree T W (st.insertFlow svc key action) (st'.insertFlow svc key action) := by
  obtain ⟨hresult, htable, hworld⟩ := hsvc.insertFlow action h.flowTable h.world
  exact ⟨(st.insertFlow svc key action).1, (st.insertFlow svc key action).2,
    (st'.insertFlow svc key action).2, rfl, Prod.ext hresult.symm rfl, htable, h.buffers, h.freed,
    hworld⟩

theorem Coupled.matchDpi (h : Coupled T W st st') (metadata : PacketMetadata) :
    Agree T W (matchDpi svc metadata st) (matchDpi svc metadata st') := by
  unfold DpdkSpi.matchDpi
  cases metadata.hostname with
  | none => exact h.agree none
  | some hostname =>
      obtain ⟨hanswer, hworld⟩ := hsvc.dpiLookup hostname h.world
      refine ⟨_, _, _, rfl, Prod.ext (congrArg DpiAnswer.result hanswer.symm) rfl, ?_⟩
      exact (h.withWorld hworld).count _ _

theorem Coupled.classifyHostname (h : Coupled T W st st') (ctx : WorkerContext)
    (metadata : PacketMetadata) (spiMatch : ClassificationResult) :
    Agree T W (classifyHostname ctx svc metadata spiMatch key st)
      (classifyHostname ctx svc metadata spiMatch key st') := by
  obtain ⟨result, s, s', hst, hst', hs⟩ := h.matchDpi hsvc metadata
  unfold DpdkSpi.classifyHostname
  rw [hst, hst']
  cases result with
  | none => exact hs.agree _
  | some dpiMatch =>
      dsimp only
      obtain ⟨result, s, s', hst, hst', hs⟩ := hs.insertFlow hsvc
        (if spiMatch.matched then spiMatch.action else .kForward)
      rw [hst, hst']
      cases result with
      | kOk => exact (hs.count _ _).agree _
      | kFull =>
          exact Agree.ite (fun _ ↦ ((hs.count _ _).count _ _).agree _)
            fun _ ↦ (hs.count _ _).agree _

theorem Coupled.findHostname (h : Coupled T W st st') (ctx : WorkerContext) (packet : μ)
    (metadata : PacketMetadata) :
    Agree T W (findHostname ctx svc packet metadata st)
      (findHostname ctx svc packet metadata st') := by
  unfold DpdkSpi.findHostname
  cases hinsert : svc.tcpReassembler with
  | none => exact h.agree _
  | some insert =>
      dsimp only
      cases svc.pktmbufRead packet metadata.tcpPayloadOffset.toNat
          (min metadata.tcpPayloadLength.toNat kMaxTcpInspectionPayload) with
      | none => exact h.agree _
      | some payload =>
          dsimp only
          obtain ⟨hresult, hworld⟩ := hsvc.tcpReassembler insert hinsert metadata payload
            ctx.currentBurstTsc h.world
          have hcoupled := h.withWorld hworld
          rw [hresult]
          cases (insert metadata payload ctx.currentBurstTsc st'.world).1.status with
          | kConflictingOverlap => exact (hcoupled.count _ _).agree _
          | kResourceLimit => exact (hcoupled.count _ _).agree _
          | kWaiting =>
              dsimp only
              generalize setHostname metadata _ = found
              exact Agree.ite (fun _ ↦ hcoupled.agree _) fun _ ↦ hcoupled.agree _
          | kReady =>
              dsimp only
              generalize setHostname metadata _ = found
              exact Agree.ite (fun _ ↦ hcoupled.agree _) fun _ ↦ hcoupled.agree _
          | kDisabled => exact hcoupled.agree _

theorem Coupled.tryDpiClassify (h : Coupled T W st st') (ctx : WorkerContext) (packet : μ)
    (metadata : PacketMetadata) (spiMatch : ClassificationResult) :
    Agree T W (tryDpiClassify ctx svc packet metadata spiMatch key st)
      (tryDpiClassify ctx svc packet metadata spiMatch key st') := by
  rw [DpdkSpi.tryDpiClassify, DpdkSpi.tryDpiClassify]
  cases dpiRoute ctx metadata spiMatch with
  | disabled => exact h.agree _
  | skipped => exact (h.count _ _).agree _
  | linked =>
      unfold DpiRoute.run
      obtain ⟨result, s, s', hst, hst', hs⟩ := h.insertFlow hsvc spiMatch.action
      rw [hst, hst']
      cases result with
      | kOk => exact (hs.count _ _).agree _
      | kFull =>
          exact Agree.ite (fun _ ↦ ((hs.count _ _).count _ _).agree _)
            fun _ ↦ (hs.count _ _).agree _
  | inspected =>
      unfold DpiRoute.run
      obtain ⟨found, s, s', hst, hst', hs⟩ := h.findHostname hsvc ctx packet metadata
      rw [hst, hst']
      cases found with
      | inl verdict => exact hs.agree verdict
      | inr metadata => exact hs.classifyHostname hsvc ctx metadata spiMatch

/-- **The decision behind a cache miss does not tell coupled states apart.** -/
theorem Coupled.resolveMiss (h : Coupled T W st st') (ctx : WorkerContext) (packet : μ)
    (metadata : PacketMetadata) (spiMatch : ClassificationResult) :
    Agree T W (resolveMiss ctx svc packet metadata spiMatch key st)
      (resolveMiss ctx svc packet metadata spiMatch key st') := by
  obtain ⟨verdict, s, s', hst, hst', hs⟩ := h.tryDpiClassify hsvc ctx packet metadata spiMatch
  unfold DpdkSpi.resolveMiss
  rw [hst, hst']
  refine Agree.ite (fun _ ↦ hs.agree _) fun _ ↦ ?_
  refine Agree.ite (fun _ ↦ ?_) fun _ ↦ (hs.count _ _).agree _
  refine Agree.ite (fun _ ↦ (hs.count _ _).agree _) fun _ ↦ ?_
  obtain ⟨result, s, s', hst, hst', hs⟩ := hs.insertFlow hsvc spiMatch.action
  rw [hst, hst']
  cases result with
  | kOk => exact (hs.count _ _).agree _
  | kFull =>
      exact Agree.ite (fun _ ↦ ((hs.count _ _).count _ _).agree _)
        fun _ ↦ ((hs.count _ _).count _ _).agree _

/-- Two slots with the same packet, the same lookup and the same result of the rules. -/
theorem Coupled.finalizePacket (h : Coupled T W st st') (ctx : WorkerContext) (port : BitVec 16)
    {b b' : ParsedBurst} {spiMatches spiMatches' : List ClassificationResult} (packet : μ)
    {i i' : Nat}
    (hbulk : b.bulkAt i = b'.bulkAt i') (hmeta : b.metadataAt i = b'.metadataAt i')
    (hkey : b.keyAt i = key) (hkey' : b'.keyAt i' = key)
    (hspi : (b'.bulkAt i').valid = false → spiMatches.getD i {} = spiMatches'.getD i' {}) :
    Coupled T W (finalizePacket ctx svc port b spiMatches st (.mapped packet i))
      (finalizePacket ctx svc port b' spiMatches' st' (.mapped packet i')) := by
  unfold DpdkSpi.finalizePacket
  dsimp only
  rw [hbulk, hmeta, hkey, hkey']
  cases hvalid : (b'.bulkAt i').valid with
  | true => exact (h.count _ _).applyForwardDecision ctx svc packet port _
  | false =>
      rw [if_neg Bool.false_ne_true, if_neg Bool.false_ne_true, hspi hvalid]
      obtain ⟨c, s, s', hst, hst', hs⟩ := h.resolveMiss hsvc ctx packet (b'.metadataAt i')
        (spiMatches'.getD i' {})
      rw [hst, hst']
      exact hs.applyForwardDecision ctx svc packet port c

end Coupling

/-- Literal equality is a coupling. -/
theorem insertsRespect_eq : InsertsRespect (Eq : FlowTable cap → FlowTable cap → Prop) := by
  rintro t t' rfl key action now slot
  exact ⟨rfl, rfl⟩

theorem Services.respects_eq (svc : Services μ σ) : svc.Respects Eq := by
  constructor
  · rintro key w w' rfl
    exact ⟨rfl, rfl⟩
  · rintro insert - metadata payload tsc w w' rfl
    exact ⟨rfl, rfl⟩
  · rintro hostname w w' rfl
    exact ⟨rfl, rfl⟩

/-! ## The fragment table is the parser's -/

/-- Services with a fragment table beside the rest of the world: parsing works on the one, and
everything else on the other. -/
def Services.withFragments (parse : μ → BitVec 64 → φ → ParseResult μ × φ) (svc : Services μ ρ) :
    Services μ (φ × ρ) where
  dpdk := svc.dpdk
  parsePacketOwned := fun packet tsc w ↦
    ((parse packet tsc w.1).1, (parse packet tsc w.1).2, w.2)
  hashPacketFlow := svc.hashPacketFlow
  insertChoice := fun key w ↦
    ((svc.insertChoice key w.2).1, w.1, (svc.insertChoice key w.2).2)
  pktmbufRead := svc.pktmbufRead
  tcpReassembler := svc.tcpReassembler.map fun insert metadata payload tsc w ↦
    ((insert metadata payload tsc w.2).1, w.1, (insert metadata payload tsc w.2).2)
  extractTlsSni := svc.extractTlsSni
  extractHttpHost := svc.extractHttpHost
  extractHostname := svc.extractHostname
  dpiLookup := fun hostname w ↦
    ((svc.dpiLookup hostname w.2).1, w.1, (svc.dpiLookup hostname w.2).2)
  updateL3ForwardHeaders := svc.updateL3ForwardHeaders
  updateL2ForwardMacs := svc.updateL2ForwardMacs
  ringEnqueue := fun worker packet w ↦
    ((svc.ringEnqueue worker packet w.2).1, w.1, (svc.ringEnqueue worker packet w.2).2)

/-- The worlds are related but for the fragment table, and the second has this one. -/
def Beside (W : ρ → ρ → Prop) (fragments : φ) (w w' : φ × ρ) : Prop :=
  w'.1 = fragments ∧ W w.2 w'.2

/-- A decision does not touch the fragment table. -/
theorem Services.Couples.beside {svc : Services μ ρ} {key : FlowKey}
    {T : FlowTable cap → FlowTable cap → Prop} {W : ρ → ρ → Prop} (h : svc.Couples key T W)
    (parse : μ → BitVec 64 → φ → ParseResult μ × φ) (fragments : φ) :
    (svc.withFragments parse).Couples key T (Beside W fragments) := by
  constructor
  · rintro action t t' ⟨φ₁, ρ₁⟩ ⟨φ₂, ρ₂⟩ ht ⟨rfl, hw⟩
    obtain ⟨hresult, htable, hworld⟩ := h.insertFlow action ht hw
    exact ⟨hresult, htable, rfl, hworld⟩
  · rintro insert hinsert metadata payload tsc ⟨φ₁, ρ₁⟩ ⟨φ₂, ρ₂⟩ ⟨rfl, hw⟩
    obtain ⟨insert', hinsert', rfl⟩ := Option.map_eq_some_iff.mp hinsert
    obtain ⟨hresult, hworld⟩ := h.tcpReassembler insert' hinsert' metadata payload tsc hw
    exact ⟨hresult, rfl, hworld⟩
  · rintro hostname ⟨φ₁, ρ₁⟩ ⟨φ₂, ρ₂⟩ ⟨rfl, hw⟩
    obtain ⟨hanswer, hworld⟩ := h.dpiLookup hostname hw
    exact ⟨hanswer, rfl, hworld⟩

end DpdkSpi
