import DpdkSpi.Pipeline.Context

/-!
# Forwarding decisions

The output port of a packet, the rewriting of its headers and the decision to drop or
to enqueue it, after `spi_pipeline.cpp`.
-/

namespace DpdkSpi

/-! ## Output ports -/

/-- `GetTransmitPort`: adjacent active ports are paired. -/
def getTransmitPort (activePorts : List (BitVec 16)) (receivePort : BitVec 16) : BitVec 16 :=
  if activePorts.length ≤ 1 then receivePort
  else
    match activePorts.findIdx? fun p ↦ p = receivePort with
    | none => receivePort
    | some portIndex =>
        if portIndex % 2 = 0 ∧ portIndex + 1 < activePorts.length then
          activePorts.getD (portIndex + 1) receivePort
        else if portIndex % 2 ≠ 0 then activePorts.getD (portIndex - 1) receivePort
        else receivePort

/-- `LookupL3TransmitPort`: the first route that contains the destination. -/
def lookupL3TransmitPort (routes : List L3RouteEntry) (metadata : PacketMetadata) :
    Option (BitVec 16) :=
  (routes.find? fun route ↦
    rteBeToCpu32 metadata.destinationIpBe &&& route.prefixMask = route.networkAddress).map
      L3RouteEntry.outputPort

/-- `ResolveTransmitPort`. -/
def resolveTransmitPort (ctx : WorkerContext) (classification : PacketClassification)
    (receivePort : BitVec 16) : Option (BitVec 16) :=
  if !ctx.l3Forwarding then some (getTransmitPort ctx.activePorts receivePort)
  else
    match ctx.l3Routes, ctx.ethernetDestinations with
    | some routes, some _ =>
        if !classification.parsed then none
        else
          match lookupL3TransmitPort routes classification.metadata with
          | none => none
          | some port => if port = receivePort then none else some port
    | _, _ => none

/-- `GetEthernetDestination`. -/
def getEthernetDestination (destinations : List EthernetDestinationEntry) (portId : BitVec 16) :
    Option EtherAddr :=
  (destinations.find? fun destination ↦ destination.portId = portId).map
    EthernetDestinationEntry.macAddress

variable {cap : Nat} {μ σ : Type}

/-- `PrepareAndRewriteHeaders`: whether it succeeds, and the packet after the call.  In L3
mode the destinations are there when a port was resolved. -/
def prepareAndRewriteHeaders (ctx : WorkerContext) (svc : Services μ σ) (transmitPort : BitVec 16)
    (packet : μ) : Bool × μ :=
  match ctx.portMacAddress transmitPort with
  | none => (false, packet)
  | some transmitMac =>
      if ctx.l3Forwarding then
        match getEthernetDestination (ctx.ethernetDestinations.getD []) transmitPort with
        | none => (false, packet)
        | some destinationMac => svc.updateL3ForwardHeaders packet transmitMac destinationMac
      else if ctx.macUpdating then
        (true, svc.updateL2ForwardMacs packet transmitMac transmitPort)
      else (true, packet)

/-! ## Dropping and enqueueing -/

/-- The last part of `ForwardPacket`, and all of `ApplyForwardDecision`. -/
def applyForwardDecision (ctx : WorkerContext) (svc : Services μ σ) (packet : μ)
    (receivePort : BitVec 16) (classification : PacketClassification) (st : BurstState cap μ σ) :
    BurstState cap μ σ :=
  if classification.matched ∧ classification.action = .kDrop then
    (st.count fun c ↦ { c with droppedByRule := c.droppedByRule + 1 }).dropPacket packet
  else if ctx.dropUnmatched ∧ !classification.matched then st.dropPacket packet
  else
    match resolveTransmitPort ctx classification receivePort with
    | none => st.dropPacket packet
    | some transmitPort =>
        if ctx.portCount ≤ transmitPort.toNat then st.dropPacket packet
        else
          match prepareAndRewriteHeaders ctx svc transmitPort packet with
          | (false, packet) => st.dropPacket packet
          | (true, packet) => st.enqueuePacket packet transmitPort

/-- The packet would be sent: it has an output port with a staging buffer, and its
headers can be rewritten for it. -/
def Transmittable (ctx : WorkerContext) (svc : Services μ σ) (packet : μ) (receivePort : BitVec 16)
    (classification : PacketClassification) : Prop :=
  ∃ transmitPort, resolveTransmitPort ctx classification receivePort = some transmitPort ∧
    transmitPort.toNat < ctx.portCount ∧
    (prepareAndRewriteHeaders ctx svc transmitPort packet).1 = true

/-- **When a packet is not enqueued**: it is dropped by its verdict or as unmatched, or
it cannot be sent. -/
theorem applyForwardDecision_transmitBuffers_eq_iff (ctx : WorkerContext) (svc : Services μ σ)
    (packet : μ) (receivePort : BitVec 16) (classification : PacketClassification)
    (st : BurstState cap μ σ) :
    (applyForwardDecision ctx svc packet receivePort classification st).transmitBuffers =
        st.transmitBuffers ↔
      (classification.matched = true ∧ classification.action = .kDrop) ∨
        (ctx.dropUnmatched = true ∧ classification.matched = false) ∨
        ¬ Transmittable ctx svc packet receivePort classification := by
  unfold applyForwardDecision
  by_cases hdrop : classification.matched = true ∧ classification.action = .kDrop
  · rw [if_pos hdrop]
    exact iff_of_true rfl (.inl hdrop)
  · rw [if_neg hdrop]
    by_cases hunmatched : ctx.dropUnmatched = true ∧ (!classification.matched) = true
    · rw [if_pos hunmatched]
      exact iff_of_true rfl (.inr (.inl ⟨hunmatched.1, by simpa using hunmatched.2⟩))
    · have hunmatched' : ¬ (ctx.dropUnmatched = true ∧ classification.matched = false) := by
        simpa using hunmatched
      rw [if_neg hunmatched, or_iff_right hdrop, or_iff_right hunmatched', Transmittable]
      cases hport : resolveTransmitPort ctx classification receivePort with
      | none => exact iff_of_true rfl (by simp)
      | some port =>
          dsimp only
          by_cases hcount : ctx.portCount ≤ port.toNat
          · rw [if_pos hcount]
            refine iff_of_true rfl ?_
            rintro ⟨port', hsome, hlt, -⟩
            obtain rfl := Option.some.inj hsome
            omega
          · rw [if_neg hcount]
            cases hrewrite : prepareAndRewriteHeaders ctx svc port packet with
            | mk ok packet' =>
                cases ok with
                | false =>
                    refine iff_of_true rfl ?_
                    rintro ⟨port', hsome, -, htrue⟩
                    obtain rfl := Option.some.inj hsome
                    rw [hrewrite] at htrue
                    cases htrue
                | true =>
                    refine iff_of_false (st.enqueuePacket_transmitBuffers_ne packet' port) ?_
                    rw [not_not]
                    exact ⟨port, rfl, Nat.not_le.mp hcount, by rw [hrewrite]⟩

/-- A packet is staged for a port, or freed. -/
def BurstState.dispose (st : BurstState cap μ σ) : Option (BitVec 16) × μ → BurstState cap μ σ
  | (none, packet) => st.dropPacket packet
  | (some transmitPort, packet) => st.enqueuePacket packet transmitPort

/-- What becomes of a packet does not depend on the state. -/
theorem exists_applyForwardDecision_eq_dispose (cap : Nat) (ctx : WorkerContext)
    (svc : Services μ σ) (packet : μ) (receivePort : BitVec 16)
    (classification : PacketClassification) :
    ∃ d : Option (BitVec 16) × μ, ∀ st : BurstState cap μ σ, ∃ f,
      applyForwardDecision ctx svc packet receivePort classification st =
        (st.count f).dispose d := by
  unfold applyForwardDecision
  split
  · exact ⟨(none, packet), fun st ↦ ⟨_, rfl⟩⟩
  split
  · exact ⟨(none, packet), fun st ↦ ⟨id, rfl⟩⟩
  cases resolveTransmitPort ctx classification receivePort with
  | none => exact ⟨(none, packet), fun st ↦ ⟨id, rfl⟩⟩
  | some transmitPort =>
      dsimp only
      split
      · exact ⟨(none, packet), fun st ↦ ⟨id, rfl⟩⟩
      · rcases prepareAndRewriteHeaders ctx svc transmitPort packet with ⟨_ | _, packet'⟩
        · exact ⟨(none, packet'), fun st ↦ ⟨id, rfl⟩⟩
        · exact ⟨(some transmitPort, packet'), fun st ↦ ⟨id, rfl⟩⟩

/-- Staging buffers and freed packets show what became of a packet. -/
theorem BurstState.dispose_inj {st st' : BurstState cap μ σ} {d d' : Option (BitVec 16) × μ}
    (hbuffers : st.transmitBuffers = st'.transmitBuffers) (hfreed : st.freed = st'.freed)
    (hbuffers' : (st.dispose d).transmitBuffers = (st'.dispose d').transmitBuffers)
    (hfreed' : (st.dispose d).freed = (st'.dispose d').freed) : d = d' := by
  obtain ⟨_ | port, packet⟩ := d <;> obtain ⟨_ | port', packet'⟩ := d'
  · have hlast : st.freed ++ [packet] = st'.freed ++ [packet'] := hfreed'
    rw [hfreed] at hlast
    rw [List.singleton_inj.mp (List.append_cancel_left hlast)]
  · have hlast : st.freed ++ [packet] = st'.freed := hfreed'
    rw [hfreed] at hlast
    exact absurd (List.append_right_eq_self.mp hlast) (List.cons_ne_nil _ _)
  · have hlast : st.freed = st'.freed ++ [packet'] := hfreed'
    rw [hfreed] at hlast
    exact absurd (List.append_right_eq_self.mp hlast.symm) (List.cons_ne_nil _ _)
  · have hport := congrFun hbuffers' port
    have hstaged : (st.enqueuePacket packet port).transmitBuffers port =
      (st'.enqueuePacket packet' port').transmitBuffers port := hport
    rw [enqueuePacket_self, hbuffers] at hstaged
    by_cases hsame : port = port'
    · subst hsame
      rw [enqueuePacket_self] at hstaged
      rw [List.singleton_inj.mp (List.append_cancel_left hstaged)]
    · rw [enqueuePacket_of_ne packet' hsame] at hstaged
      exact absurd (List.append_right_eq_self.mp hstaged) (List.cons_ne_nil _ _)

/-- Two classifications of a packet lead to the same decision: it is staged or freed alike. -/
def SameDecision (cap : Nat) (ctx : WorkerContext) (svc : Services μ σ) (packet : μ)
    (receivePort : BitVec 16) (classification classification' : PacketClassification) : Prop :=
  ∀ st : BurstState cap μ σ,
    (applyForwardDecision ctx svc packet receivePort classification st).transmitBuffers =
        (applyForwardDecision ctx svc packet receivePort classification' st).transmitBuffers ∧
      (applyForwardDecision ctx svc packet receivePort classification st).freed =
        (applyForwardDecision ctx svc packet receivePort classification' st).freed

/-- One pair of states with the same packets in them shows whether they do. -/
theorem sameDecision_iff {ctx : WorkerContext} {svc : Services μ σ} {packet : μ}
    {receivePort : BitVec 16} {classification classification' : PacketClassification}
    {st st' : BurstState cap μ σ} (hbuffers : st.transmitBuffers = st'.transmitBuffers)
    (hfreed : st.freed = st'.freed) :
    SameDecision cap ctx svc packet receivePort classification classification' ↔
      (applyForwardDecision ctx svc packet receivePort classification st).transmitBuffers =
          (applyForwardDecision ctx svc packet receivePort classification' st').transmitBuffers ∧
        (applyForwardDecision ctx svc packet receivePort classification st).freed =
          (applyForwardDecision ctx svc packet receivePort classification' st').freed := by
  obtain ⟨d, hd⟩ := exists_applyForwardDecision_eq_dispose cap ctx svc packet receivePort
    classification
  obtain ⟨d', hd'⟩ := exists_applyForwardDecision_eq_dispose cap ctx svc packet receivePort
    classification'
  have hsame : SameDecision cap ctx svc packet receivePort classification classification' ↔
      d = d' := by
    constructor
    · intro h
      obtain ⟨f, hf⟩ := hd st
      obtain ⟨f', hf'⟩ := hd' st
      have hst := h st
      rw [hf, hf'] at hst
      have hbuffers : (st.count f).transmitBuffers = (st.count f').transmitBuffers := rfl
      exact BurstState.dispose_inj hbuffers rfl hst.1 hst.2
    · rintro rfl s
      obtain ⟨f, hf⟩ := hd s
      obtain ⟨f', hf'⟩ := hd' s
      rw [hf, hf']
      obtain ⟨_ | port, packet'⟩ := d <;> exact ⟨rfl, rfl⟩
  obtain ⟨f, hf⟩ := hd st
  obtain ⟨f', hf'⟩ := hd' st'
  rw [hsame, hf, hf']
  constructor
  · rintro rfl
    obtain ⟨_ | port, packet'⟩ := d
    · exact ⟨hbuffers, congrArg (· ++ [packet']) hfreed⟩
    · refine ⟨?_, hfreed⟩
      show Function.update st.transmitBuffers _ _ = Function.update st'.transmitBuffers _ _
      rw [BurstState.count_transmitBuffers, BurstState.count_transmitBuffers, hbuffers]
  · rintro ⟨h, h'⟩
    have hcounted : (st.count f).transmitBuffers = (st'.count f').transmitBuffers := hbuffers
    exact BurstState.dispose_inj hcounted hfreed h h'

end DpdkSpi
