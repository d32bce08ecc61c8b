import DpdkSpi.Flow.Identity
import DpdkSpi.Flow.Resize
import DpdkSpi.Pipeline.Drop
import DpdkSpi.Pipeline.Lookup
import DpdkSpi.Pipeline.Worker

/-!
# Streams of flows that are decided already

The flow table keeps the verdicts of flows, the reassembler the bytes of flows without one; the
cap on streams is meant for the latter.  Nothing erases the stream of a flow when its verdict is
stored, so that the two overlap as soon as a flow is decided by the bytes of its stream.  They
stay apart in the runs in which no packet has a verdict stored for a flow that has, or by the same
packet gets, a stream (`streams_await_decision`).
-/

namespace DpdkSpi

open Lib

variable {cap : Nat} {μ σ ω : Type}

/-! ## The keys of the flow table -/

namespace FlowTable

/-- The table has an entry for a key. -/
def Has (t : FlowTable cap) (key : FlowKey) : Prop := ∃ e ∈ t.live, e.key = key

theorem not_has_iff {t : FlowTable cap} {key : FlowKey} : ¬ t.Has key ↔ t.cellOf key = none := by
  rw [cellOf_eq_none_iff]
  exact ⟨fun h e he hkey ↦ h ⟨e, he, hkey⟩, fun h ⟨e, he, hkey⟩ ↦ h e he hkey⟩

/-- A verdict has an entry. -/
theorem has_of_answer {t : FlowTable cap} {key : FlowKey} (h : t.answer key ≠ none) :
    t.Has key := by
  by_contra hnot
  rw [answer, not_has_iff.mp hnot] at h
  exact h rfl

theorem has_of_hash_eq {t t' : FlowTable cap} (h : t'.hash = t.hash) {key : FlowKey} :
    t'.Has key ↔ t.Has key := by
  unfold Has live
  rw [h]

/-- An insertion adds no key but its own. -/
theorem has_of_has_insert {t : FlowTable cap} {key k : FlowKey} {matchCount : BitVec 64}
    {action : Action} {now : BitVec 64} {slot : Option Nat}
    (h : (t.insert key matchCount action now slot).2.Has k) : t.Has k ∨ k = key := by
  obtain ⟨e, he, rfl⟩ := h
  rcases insert_cases t key matchCount action now slot with
    ⟨-, -, hlive, -⟩ | ⟨i, -, hinsert⟩ | ⟨i, rest, pos, -, -, -, hlive, -⟩
  · rw [hlive] at he
    exact .inl ⟨e, he, rfl⟩
  · rw [hinsert] at he
    exact .inl ⟨e, he, rfl⟩
  · rw [hlive] at he
    rcases List.mem_cons.mp he with rfl | he
    · exact .inr rfl
    · exact .inl ⟨e, he, rfl⟩

/-- An insertion without room leaves the hash and the free list alone. -/
theorem insert_of_refuses {t : FlowTable cap} {key : FlowKey} {slot : Option Nat}
    (h : t.Refuses key slot) (matchCount : BitVec 64) (action : Action) (now : BitVec 64) :
    (t.insert key matchCount action now slot).2.hash = t.hash ∧
      (t.insert key matchCount action now slot).2.freeList = t.freeList := by
  unfold Refuses at h
  unfold insert
  cases hh : t.hash with
  | none => exact ⟨hh, rfl⟩
  | some hash =>
      rw [hh] at h
      obtain ⟨hkey, hfull⟩ := h
      simp only [hkey, addFlow]
      cases hfree : t.freeList with
      | nil => exact ⟨hh, hfree⟩
      | cons i rest =>
          have hocc := hfull.resolve_left (by rw [hfree]; exact List.cons_ne_nil i rest)
          rcases SlotMap.add_of_lookup_eq_none hkey slot i with
            ⟨hadd, -⟩ | ⟨p, hash', rfl, hfreePos, -⟩
          · simp only [hadd]
            exact ⟨hh, hfree⟩
          · rw [Option.all_some, hfreePos] at hocc
            cases hocc

theorem has_of_has_addFlow {t : FlowTable cap} {h : RteHash cap} (hh : t.hash = some h)
    {key k : FlowKey} {matchCount : BitVec 64} {action : Action} {now : BitVec 64}
    {slot : Option Nat} (hk : (t.addFlow h key matchCount action now slot).2.Has k) :
    t.Has k ∨ k = key := by
  unfold addFlow at hk
  cases hfree : t.freeList with
  | nil =>
      rw [hfree] at hk
      exact .inl hk
  | cons i rest =>
      rw [hfree] at hk
      dsimp only at hk
      cases hadd : h.add key slot i with
      | none =>
          rw [hadd] at hk
          exact .inl hk
      | some h' =>
          rw [hadd] at hk
          obtain ⟨e, he, rfl⟩ := hk
          have hlive : t.live = h.entries := by rw [live, hh]
          rcases SlotMap.key_of_mem_add hadd he with hkey | ⟨e', he', hkey⟩
          · exact .inr hkey
          · exact .inl ⟨e', hlive ▸ he', hkey⟩

theorem has_of_has_insertRaw {t : FlowTable cap} {key k : FlowKey} {matchCount : BitVec 64}
    {action : Action} {now : BitVec 64} {slot : Option Nat}
    (h : (t.insertRaw key matchCount action now slot).2.Has k) : t.Has k ∨ k = key := by
  unfold insertRaw at h
  cases hh : t.hash with
  | none =>
      rw [hh] at h
      exact .inl h
  | some hash =>
      rw [hh] at h
      exact has_of_has_addFlow hh h

/-- A migration adds only keys that it visits. -/
theorem has_of_has_migrateLoop {newCap : Nat} (io : MigrationIo newCap) {k : FlowKey}
    (visits : List (FlowKey × BitVec 64 × Action)) (n : Nat) (newTable : FlowTable newCap)
    (h : (migrateLoop io visits n newTable).Has k) :
    newTable.Has k ∨ ∃ v ∈ visits, v.1 = k := by
  induction visits generalizing n newTable with
  | nil => exact .inl h
  | cons v visits ih =>
      obtain ⟨key, count, action⟩ := v
      rcases ih (n + 1) _ h with hhas | ⟨v, hv, hk⟩
      · rcases has_of_has_insertRaw hhas with hold | rfl
        · exact .inl hold
        · exact .inr ⟨_, List.mem_cons_self, rfl⟩
      · exact .inr ⟨v, List.mem_cons_of_mem _ hv, hk⟩

theorem not_has_new (cap : Nat) (created : Bool) (key : FlowKey) :
    ¬ (new cap created).Has key := by
  rintro ⟨e, he, -⟩
  cases created <;> cases he

theorem has_of_has_purgeExpired {t : FlowTable cap} {now ttl : BitVec 64}
    {forceQuit : Fin cap → Bool} {key : FlowKey}
    (h : (t.purgeExpired now ttl forceQuit).Has key) : t.Has key := by
  obtain ⟨e, he, hkey⟩ := h
  rw [live_purgeExpired] at he
  exact ⟨e, List.mem_of_mem_filter he, hkey⟩

end FlowTable

/-- Resizing the table gives no key an entry. -/
theorem has_of_has_maybeReloadFlowTable {s : FlowState} {newMax : Nat} {created : Bool}
    {io : FlowTable.MigrationIo newMax} {key : FlowKey}
    (h : (maybeReloadFlowTable s newMax created io).flowTable.Has key) : s.flowTable.Has key := by
  by_cases hmax : newMax = s.maxConcurrentFlows
  · rw [maybeReloadFlowTable, if_pos hmax] at h
    exact h
  by_cases hvalid : (FlowTable.new newMax created).isValid = true
  · rw [maybeReloadFlowTable, if_neg hmax, if_pos hvalid] at h
    rcases FlowTable.has_of_has_migrateLoop io _ 0 _ h with hnew | ⟨v, hv, rfl⟩
    · exact absurd hnew (FlowTable.not_has_new newMax created key)
    · obtain ⟨e, he, i, -, -, rfl⟩ := FlowTable.mem_forEachOccupied.mp hv
      exact ⟨e, he, rfl⟩
  · rw [maybeReloadFlowTable, if_neg hmax, if_neg hvalid] at h
    exact h

/-! ## A worker with a reassembler -/

/-- The services of a worker with TCP reassembly: the reassembler is its own, beside the rest of
the world. -/
def Services.withReassembler (env : ReassemblerSetup) (svc : Services μ ω) :
    Services μ (ω × TcpStreamReassembler) where
  dpdk := svc.dpdk
  parsePacketOwned := fun packet tsc w ↦
    ((svc.parsePacketOwned packet tsc w.1).1, (svc.parsePacketOwned packet tsc w.1).2, w.2)
  hashPacketFlow := svc.hashPacketFlow
  insertChoice := fun key w ↦
    ((svc.insertChoice key w.1).1, (svc.insertChoice key w.1).2, w.2)
  pktmbufRead := svc.pktmbufRead
  tcpReassembler := some fun metadata payload tsc w ↦
    ((w.2.insert env metadata payload tsc).1, w.1, (w.2.insert env metadata payload tsc).2)
  extractTlsSni := svc.extractTlsSni
  extractHttpHost := svc.extractHttpHost
  extractHostname := svc.extractHostname
  dpiLookup := fun hostname w ↦
    ((svc.dpiLookup hostname w.1).1, (svc.dpiLookup hostname w.1).2, w.2)
  updateL3ForwardHeaders := svc.updateL3ForwardHeaders
  updateL2ForwardMacs := svc.updateL2ForwardMacs
  ringEnqueue := fun worker packet w ↦
    ((svc.ringEnqueue worker packet w.1).1, (svc.ringEnqueue worker packet w.1).2, w.2)

/-- What `CleanupExpiredFragments` works on, with the reassembler. -/
def FragmentCleanup.withReassembler (env : ReassemblerSetup) (cleanup : FragmentCleanup ω) :
    FragmentCleanup (ω × TcpStreamReassembler) where
  ipFragTbl := cleanup.ipFragTbl
  fragmentCleanupIntervalCycles := cleanup.fragmentCleanupIntervalCycles
  delExpiredEntries := fun tsc w ↦ (cleanup.delExpiredEntries tsc w.1, w.2)
  purgeExpiredStreams := some fun tsc w ↦ (w.1, w.2.purgeExpired env tsc)

/-- A worker: its state within and between bursts, and the capacity of the flow table it uses. -/
structure ReassemblingWorker (μ ω : Type) where
  maxConcurrentFlows : Nat
  burst : BurstState maxConcurrentFlows μ (ω × TcpStreamReassembler)

/-- What happens to the worker and to the flow table it shares with others. -/
inductive WorkerOp (μ ω : Type) where
  /-- A burst of a port, in queue mode. -/
  | burst (ctx : WorkerContext) (svc : Services μ ω) (portId : BitVec 16) (received : List μ)
  /-- A packet from the ring, in flow-hash mode. -/
  | forward (ctx : WorkerContext) (svc : Services μ ω) (packet : μ) (receivePort : BitVec 16)
  | cleanup (cleanup : FragmentCleanup ω) (currentBurstTsc lastCleanup : BitVec 64)
  | flush (ctx : WorkerContext) (accepted : BitVec 16 → Nat)
  /-- Another lcore works on the flow table. -/
  | elsewhere (op : (cap : Nat) → FlowOp cap)
  | resize (newMax : Nat) (created : Bool) (io : FlowTable.MigrationIo newMax)

namespace ReassemblingWorker

/-- The worker before its first burst. -/
def start (maxConcurrentFlows : Nat) (created : Bool) (world : ω) : ReassemblingWorker μ ω where
  maxConcurrentFlows := maxConcurrentFlows
  burst := { flowTable := .new maxConcurrentFlows created, world := (world, {}) }

/-- The worker after an operation. -/
def apply (env : ReassemblerSetup) (s : ReassemblingWorker μ ω) :
    WorkerOp μ ω → ReassemblingWorker μ ω
  | .burst ctx svc portId received =>
      { s with burst := processPortBurst ctx (svc.withReassembler env) portId received s.burst }
  | .forward ctx svc packet receivePort =>
      { s with burst := forwardPacket ctx (svc.withReassembler env) packet receivePort s.burst }
  | .cleanup cleanup currentBurstTsc lastCleanup =>
      { s with
        burst := cleanupState (cleanup.withReassembler env) currentBurstTsc lastCleanup s.burst }
  | .flush ctx accepted => { s with burst := (flushTransmitBuffers ctx accepted s.burst).2 }
  | .elsewhere op =>
      { s with
        burst := { s.burst with
          flowTable := s.burst.flowTable.apply (op s.maxConcurrentFlows) } }
  | .resize newMax created io =>
      let resized := maybeReloadFlowTable ⟨s.maxConcurrentFlows, s.burst.flowTable, 0⟩ newMax
        created io
      { maxConcurrentFlows := resized.maxConcurrentFlows
        burst :=
          { flowTable := resized.flowTable
            counters := s.burst.counters
            transmitBuffers := s.burst.transmitBuffers
            freed := s.burst.freed
            world := s.burst.world } }

end ReassemblingWorker

/-- The runs of a worker with TCP reassembly. -/
def reassemblingWorker (μ ω : Type) (env : ReassemblerSetup) :
    System (ReassemblingWorker μ ω) (WorkerOp μ ω) where
  init s := ∃ maxConcurrentFlows created world, s = .start maxConcurrentFlows created world
  step s op s' := s.apply env op = s'

/-! ## Flows with a verdict and flows with a stream -/

/-- The reassembler has no stream for the flows with a key. -/
def Streamless (r : TcpStreamReassembler) (key : FlowKey) : Prop :=
  ∀ metadata, metadata.protocol = .kTcp → makeCanonicalFromMetadata metadata = key →
    r.NoStream (makeKey metadata).1

/-- No flow has both an entry in the flow table and a stream. -/
def Separate (t : FlowTable cap) (r : TcpStreamReassembler) : Prop :=
  ∀ key, t.Has key → Streamless r key

/-- The flow table has no room for a key, however often it is tried: the worker tries a second
time after a failure. -/
def NoRoom (svc : Services μ ω) (key : FlowKey) (t : FlowTable cap) (w : ω) : Prop :=
  ∀ n, t.Refuses key (svc.insertChoice key ((fun w ↦ (svc.insertChoice key w).2)^[n] w)).1.2

/-- The hostname in the bytes of a stream, or the one the packet has already. -/
def streamHostname (svc : Services μ ω) (metadata : PacketMetadata) (stream : List Byte) :
    Option (List Byte) :=
  (setHostname metadata
    (if rteBeToCpu16 metadata.destinationPortBe = kTlsPort then svc.extractTlsSni stream
    else svc.extractHttpHost stream)).hostname

/-- The payload that `TryDpiClassify` hands to the reassembler. -/
def inspectedPayload (svc : Services μ ω) (packet : μ) (metadata : PacketMetadata) :
    Option (List Byte) :=
  svc.pktmbufRead packet metadata.tcpPayloadOffset.toNat
    (min metadata.tcpPayloadLength.toNat kMaxTcpInspectionPayload)

/-- A flow-cache miss that does not leave its flow with both a verdict and a stream.

A packet that is not inspected has its verdict stored if the rules match it, so that its flow must
not have a stream from before; an inspected one that the reassembler takes leaves a stream, so that
its flow must not be in the flow table, and no verdict may follow from the bytes of the stream. -/
def LeavesUndecided (env : ReassemblerSetup) (ctx : WorkerContext) (svc : Services μ ω) (packet : μ)
    (metadata : PacketMetadata) (spiMatch : ClassificationResult) (key : FlowKey)
    (t : FlowTable cap) (w : ω) (r : TcpStreamReassembler) : Prop :=
  (¬ Inspected ctx metadata spiMatch → spiMatch.matched = true →
      Streamless r key ∨ NoRoom svc key t w) ∧
    (Inspected ctx metadata spiMatch →
      ∀ payload, inspectedPayload svc packet metadata = some payload →
      (r.insert env metadata payload ctx.currentBurstTsc).1.status.isError = false →
        ¬ t.Has key ∧
          ∀ hostname, streamHostname svc metadata
              (r.insert env metadata payload ctx.currentBurstTsc).1.contiguousPayload =
                some hostname →
            spiMatch.matched = false ∧ (svc.dpiLookup hostname w).1.result = none ∨
              NoRoom svc key t (svc.dpiLookup hostname w).2)

/-! ## Attempts to store a verdict -/

/-- Neither the flow table nor the world has changed. -/
def Quiet (st st' : BurstState cap μ σ) : Prop :=
  st'.flowTable = st.flowTable ∧ st'.world = st.world

/-- Nothing has happened to them but attempts to store a verdict under a key. -/
inductive Tries (svc : Services μ σ) (key : FlowKey) :
    BurstState cap μ σ → BurstState cap μ σ → Prop
  | done {st st' : BurstState cap μ σ} (hquiet : Quiet st st') : Tries svc key st st'
  | insert {st st' : BurstState cap μ σ} (action : Action)
      (hrest : Tries svc key (st.insertFlow svc key action).2 st') : Tries svc key st st'

/-- The same, and without attempts unless there is a reason for one. -/
structure Attempts (svc : Services μ σ) (key : FlowKey) (reason : Prop)
    (st st' : BurstState cap μ σ) : Prop where
  tries : Tries svc key st st'
  quiet : ¬ reason → Quiet st st'

section Attempts

variable {svc : Services μ σ} {key : FlowKey} {st st' st'' : BurstState cap μ σ}
  {reason reason' : Prop}

theorem Quiet.trans (h : Quiet st st') (h' : Quiet st' st'') : Quiet st st'' :=
  ⟨h'.1.trans h.1, h'.2.trans h.2⟩

theorem Quiet.insertFlow (h : Quiet st st') (action : Action) :
    Quiet (st.insertFlow svc key action).2 (st'.insertFlow svc key action).2 := by
  unfold BurstState.insertFlow
  rw [h.1, h.2]
  exact ⟨rfl, rfl⟩

theorem Tries.of_quiet (h : Tries svc key st' st'') (hquiet : Quiet st st') :
    Tries svc key st st'' := by
  induction h generalizing st with
  | done hrest => exact .done (hquiet.trans hrest)
  | insert action _ ih => exact .insert action (ih (hquiet.insertFlow action))

theorem Tries.trans (h : Tries svc key st st') (h' : Tries svc key st' st'') :
    Tries svc key st st'' := by
  induction h with
  | done hquiet => exact h'.of_quiet hquiet
  | insert action _ ih => exact .insert action (ih h')

theorem Attempts.trans (h : Attempts svc key reason st st')
    (h' : Attempts svc key reason' st' st'') : Attempts svc key (reason ∨ reason') st st'' where
  tries := h.tries.trans h'.tries
  quiet hnot := (h.quiet fun hr ↦ hnot (.inl hr)).trans (h'.quiet fun hr ↦ hnot (.inr hr))

theorem Attempts.mono (h : Attempts svc key reason st st') (himp : reason → reason') :
    Attempts svc key reason' st st' where
  tries := h.tries
  quiet hnot := h.quiet fun hr ↦ hnot (himp hr)

theorem Quiet.attempts (h : Quiet st st') : Attempts svc key reason st st' :=
  ⟨.done h, fun _ ↦ h⟩

theorem Attempts.of_quiet (h : Attempts svc key reason st' st'') (hquiet : Quiet st st') :
    Attempts svc key reason st st'' where
  tries := h.tries.of_quiet hquiet
  quiet hnot := hquiet.trans (h.quiet hnot)

/-- One attempt, for a reason. -/
theorem attempts_of_insertFlow {action : Action} {result : FlowInsertResult}
    (hinsert : st.insertFlow svc key action = (result, st')) (hquiet : Quiet st' st'')
    (hreason : reason) : Attempts svc key reason st st'' := by
  obtain rfl : (st.insertFlow svc key action).2 = st' := congrArg Prod.snd hinsert
  exact ⟨.insert action (.done hquiet), fun hnot ↦ absurd hreason hnot⟩

end Attempts

section Paths

variable (ctx : WorkerContext) (svc : Services μ σ) (packet : μ) (metadata : PacketMetadata)
  (spiMatch : ClassificationResult) (key : FlowKey) (st : BurstState cap μ σ)

theorem makeMatched_attempts (action : Action) :
    Attempts svc key True st (makeMatched ctx svc metadata action key st).2 := by
  unfold makeMatched
  rcases hinsert : st.insertFlow svc key action with ⟨_ | _, st'⟩
  · exact attempts_of_insertFlow hinsert ⟨rfl, rfl⟩ trivial
  · dsimp only
    split <;> exact attempts_of_insertFlow hinsert ⟨rfl, rfl⟩ trivial

/-- Without a look at the payload there is a verdict to store only if the rules have one. -/
theorem tryDpiClassify_attempts (h : ¬ Inspected ctx metadata spiMatch) :
    Attempts svc key (spiMatch.matched = true) st
      (tryDpiClassify ctx svc packet metadata spiMatch key st).2 := by
  rw [tryDpiClassify]
  cases hroute : dpiRoute ctx metadata spiMatch with
  | disabled => exact Quiet.attempts ⟨rfl, rfl⟩
  | skipped => exact Quiet.attempts ⟨rfl, rfl⟩
  | linked =>
      obtain ⟨hmatched, -⟩ := dpiRoute_linked hroute
      unfold DpiRoute.run
      rcases hinsert : st.insertFlow svc key spiMatch.action with ⟨_ | _, st'⟩
      · exact attempts_of_insertFlow hinsert ⟨rfl, rfl⟩ hmatched
      · dsimp only
        split <;> exact attempts_of_insertFlow hinsert ⟨rfl, rfl⟩ hmatched
  | inspected => exact absurd (dpiRoute_inspected_iff.mp hroute) h

/-- With one, it ends with the search for a hostname. -/
theorem tryDpiClassify_of_inspected (h : Inspected ctx metadata spiMatch) :
    tryDpiClassify ctx svc packet metadata spiMatch key st =
      match findHostname ctx svc packet metadata st with
      | (.inl verdict, st) => (verdict, st)
      | (.inr metadata, st) => classifyHostname ctx svc metadata spiMatch key st := by
  rw [tryDpiClassify, dpiRoute_inspected_iff.mpr h]
  rfl

theorem classifyHostname_attempts {hostname : List Byte}
    (hhost : metadata.hostname = some hostname) :
    Attempts svc key ((svc.dpiLookup hostname st.world).1.result ≠ none)
      { st with world := (svc.dpiLookup hostname st.world).2 }
      (classifyHostname ctx svc metadata spiMatch key st).2 := by
  unfold classifyHostname matchDpi
  rw [hhost]
  dsimp only
  cases hresult : (svc.dpiLookup hostname st.world).1.result with
  | none => exact Quiet.attempts ⟨rfl, rfl⟩
  | some dpi =>
      dsimp only
      rcases hinsert : BurstState.insertFlow svc key _ _ with ⟨_ | _, st'⟩
      · refine (attempts_of_insertFlow hinsert ?_ (Option.some_ne_none dpi)).of_quiet ⟨rfl, rfl⟩
        exact ⟨rfl, rfl⟩
      · dsimp only
        split
        · refine (attempts_of_insertFlow hinsert ?_ (Option.some_ne_none dpi)).of_quiet ⟨rfl, rfl⟩
          exact ⟨rfl, rfl⟩
        · refine (attempts_of_insertFlow hinsert ?_ (Option.some_ne_none dpi)).of_quiet ⟨rfl, rfl⟩
          exact ⟨rfl, rfl⟩

/-- Whether the caller of `TryDpiClassify` goes on to store the verdict of the rules. -/
def storesSpi (spiMatch : ClassificationResult) (verdict : DpiVerdict) : Prop :=
  verdict.matched = false ∧ verdict.deferSpiCache = false ∧ spiMatch.matched = true

theorem resolveMiss_attempts {verdict : DpiVerdict} {st' : BurstState cap μ σ}
    (hdpi : tryDpiClassify ctx svc packet metadata spiMatch key st = (verdict, st')) :
    Attempts svc key (storesSpi spiMatch verdict) st'
      (resolveMiss ctx svc packet metadata spiMatch key st).2 := by
  unfold resolveMiss
  rw [hdpi]
  dsimp only
  split
  · exact Quiet.attempts ⟨rfl, rfl⟩
  rename_i hmatched
  split
  · rename_i hspi
    split
    · exact Quiet.attempts ⟨rfl, rfl⟩
    · rename_i hdefer
      have hstores : storesSpi spiMatch verdict :=
        ⟨by simpa using hmatched, by simpa using hdefer, hspi⟩
      rcases hinsert : st'.insertFlow svc key spiMatch.action with ⟨_ | _, st''⟩
      · exact attempts_of_insertFlow hinsert ⟨rfl, rfl⟩ hstores
      · dsimp only
        split <;> exact attempts_of_insertFlow hinsert ⟨rfl, rfl⟩ hstores
  · exact Quiet.attempts ⟨rfl, rfl⟩

/-- The flow-hash path does the same where it asks `TryDpiClassify`. -/
theorem classifyMiss_attempts {verdict : DpiVerdict} {st' : BurstState cap μ σ}
    (hlink : ¬ (spiMatch.matched = true ∧ spiMatch.boundDpiFilterIndex ≠ kNoDpiLink))
    (henabled : ctx.dpiEnabled = true)
    (hdpi : tryDpiClassify ctx svc packet metadata spiMatch key st = (verdict, st')) :
    Attempts svc key (storesSpi spiMatch verdict) st'
      (classifyMiss ctx svc packet metadata spiMatch key st).2 := by
  unfold classifyMiss
  rw [if_neg hlink, if_neg (by rw [henabled]; exact Bool.false_ne_true), hdpi]
  dsimp only
  split
  · exact Quiet.attempts ⟨rfl, rfl⟩
  rename_i hmatched
  split
  · rename_i hspi
    split
    · exact Quiet.attempts ⟨rfl, rfl⟩
    · rename_i hdefer
      exact (makeMatched_attempts ctx svc verdict.metadata key st' spiMatch.action).mono
        fun _ ↦ ⟨by simpa using hmatched, by simpa using hdefer, hspi⟩
  · exact Quiet.attempts ⟨rfl, rfl⟩

/-- Elsewhere it stores the verdict of the rules, if there is one. -/
theorem classifyMiss_attempts_of_skipped
    (h : spiMatch.matched = true ∧ spiMatch.boundDpiFilterIndex ≠ kNoDpiLink ∨
      ctx.dpiEnabled = false) :
    Attempts svc key (spiMatch.matched = true) st
      (classifyMiss ctx svc packet metadata spiMatch key st).2 := by
  unfold classifyMiss
  split
  · rename_i hlink
    rcases hinsert : st.insertFlow svc key spiMatch.action with ⟨_ | _, st'⟩
    · exact attempts_of_insertFlow hinsert ⟨rfl, rfl⟩ hlink.1
    · dsimp only
      split <;> exact attempts_of_insertFlow hinsert ⟨rfl, rfl⟩ hlink.1
  · rename_i hlink
    rw [if_pos (by rw [h.resolve_left hlink]; rfl)]
    split
    · rename_i hspi
      exact (makeMatched_attempts ctx svc metadata key st spiMatch.action).mono fun _ ↦ hspi
    · exact Quiet.attempts ⟨rfl, rfl⟩

end Paths

/-! ## Keeping the stores apart -/

theorem FlowTable.refuses_congr {t t' : FlowTable cap} (hhash : t'.hash = t.hash)
    (hfree : t'.freeList = t.freeList) (key : FlowKey) (slot : Option Nat) :
    t'.Refuses key slot ↔ t.Refuses key slot := by
  unfold Refuses
  rw [hhash, hfree]

section Stores

variable {env : ReassemblerSetup} {svc : Services μ ω} {key : FlowKey}
  {st st' : BurstState cap μ (ω × TcpStreamReassembler)}

/-- A refused attempt changes nothing, so that the next one is refused too. -/
theorem NoRoom.insertFlow (env : ReassemblerSetup) (h : NoRoom svc key st.flowTable st.world.1)
    (action : Action) :
    (st.insertFlow (svc.withReassembler env) key action).2.flowTable.hash = st.flowTable.hash ∧
      NoRoom svc key (st.insertFlow (svc.withReassembler env) key action).2.flowTable
        (st.insertFlow (svc.withReassembler env) key action).2.world.1 := by
  obtain ⟨hhash, hfree⟩ := FlowTable.insert_of_refuses (h 0) 1 action
    (svc.insertChoice key st.world.1).1.1
  refine ⟨hhash, fun n ↦ ?_⟩
  exact (FlowTable.refuses_congr hhash hfree key _).mpr (h (n + 1))

theorem Tries.reassembler (h : Tries (svc.withReassembler env) key st st') :
    st'.world.2 = st.world.2 := by
  induction h with
  | done hquiet => rw [hquiet.2]
  | insert _ _ ih => exact ih

theorem Tries.has (h : Tries (svc.withReassembler env) key st st') {k : FlowKey}
    (hk : st'.flowTable.Has k) : st.flowTable.Has k ∨ k = key := by
  induction h with
  | done hquiet => exact .inl (hquiet.1 ▸ hk)
  | insert action _ ih =>
      rcases ih hk with hk | rfl
      · exact FlowTable.has_of_has_insert hk
      · exact .inr rfl

theorem Tries.has_of_noRoom (h : Tries (svc.withReassembler env) key st st')
    (hroom : NoRoom svc key st.flowTable st.world.1) {k : FlowKey} (hk : st'.flowTable.Has k) :
    st.flowTable.Has k := by
  induction h with
  | done hquiet => exact hquiet.1 ▸ hk
  | insert action _ ih =>
      obtain ⟨hhash, hroom'⟩ := hroom.insertFlow env action
      exact (FlowTable.has_of_hash_eq hhash).mp (ih hroom' hk)

end Stores

section Separate

variable {env : ReassemblerSetup} {t : FlowTable cap} {r : TcpStreamReassembler}

/-- Entries may go. -/
theorem Separate.mono {cap' : Nat} {t' : FlowTable cap'} (h : Separate t r)
    (hkeys : ∀ key, t'.Has key → t.Has key) : Separate t' r :=
  fun key hkey ↦ h key (hkeys key hkey)

/-- An entry for a flow without a stream may come. -/
theorem Separate.add {t' : FlowTable cap} {key : FlowKey} (h : Separate t r)
    (hkey : Streamless r key) (hkeys : ∀ k, t'.Has k → t.Has k ∨ k = key) : Separate t' r := by
  intro k hk
  rcases hkeys k hk with hold | rfl
  · exact h k hold
  · exact hkey

/-- Streams may expire. -/
theorem Separate.purgeExpired (h : Separate t r) (now : BitVec 64) :
    Separate t (r.purgeExpired env now) := by
  intro key hkey metadata htcp hmetadata place hplace
  rw [TcpStreamReassembler.lookup_purgeExpired, h key hkey metadata htcp hmetadata place hplace]
  rfl

/-- A segment may come if its flow has no entry or the reassembler gives its stream up. -/
theorem Separate.insert (h : Separate t r) {metadata : PacketMetadata} {payload : List Byte}
    {now : BitVec 64} (hflow : (r.insert env metadata payload now).1.status.isError = false →
      ¬ t.Has (makeCanonicalFromMetadata metadata)) :
    Separate t (r.insert env metadata payload now).2 := by
  intro key hkey m htcp hm place hplace
  rw [Option.eq_none_iff_forall_not_mem]
  intro state hlookup
  have hnone := h key hkey m htcp hm place hplace
  have hinsertion := TcpStreamReassembler.insertion_insert env r metadata payload now
  rcases hinsertion.lookup_cases hlookup with
    ⟨-, hold⟩ | ⟨-, -, hold⟩ | ⟨hinspects, rfl, d, b, -, herror, -⟩
  · cases hnone.symm.trans hold
  · cases hnone.symm.trans (TcpStreamReassembler.lookup_of_purgeExpired hold)
  · -- packets with one stream key are of one connection, and so have one flow key
    rw [TcpStreamReassembler.key_workingPlace] at hplace
    have hflows : SameFlow m metadata :=
      ⟨htcp.trans hinspects.2.symm, makeKey_fst_eq_iff.mp hplace.symm⟩
    have hkeys := makeCanonicalFromMetadata_eq_iff.mpr hflows.sameKeyEnds
    refine hflow herror ?_
    rwa [← hkeys, hm]

end Separate

/-! ## Misses -/

/-- The reassembler does not call itself disabled for a packet it looks at. -/
theorem insert_status_ne_kDisabled {env : ReassemblerSetup} {metadata : PacketMetadata}
    (h : TcpStreamReassembler.Inspects env metadata) (r : TcpStreamReassembler)
    (payload : List Byte) (now : BitVec 64) :
    (r.insert env metadata payload now).1.status ≠ .kDisabled := by
  obtain ⟨result, r', hinsert, hinsertion⟩ :=
    TcpStreamReassembler.exists_insertion env r metadata payload now
  rw [hinsert]
  intro hstatus
  cases hinsertion with
  | skipped hskip => exact hskip h
  | refused _ _ => cases hstatus
  | failed _ _ _ herror =>
      dsimp only at hstatus
      rw [hstatus] at herror
      cases herror
  | kept _ _ houtcome _ =>
      dsimp only at hstatus
      rw [hstatus] at houtcome
      cases houtcome with
      | appended _ _ _ hdrains =>
          rcases hdrains.status_eq with hready | hlimit
          · cases hready
          · cases hlimit

section Misses

variable (env : ReassemblerSetup) (ctx : WorkerContext) (svc : Services μ ω) (packet : μ)
  (metadata : PacketMetadata) (spiMatch : ClassificationResult) (key : FlowKey)
  (st : BurstState cap μ (ω × TcpStreamReassembler))

/-- The search for a hostname in the stream of a packet, with the state it leaves. -/
inductive StreamSearch : DpiVerdict ⊕ PacketMetadata →
    BurstState cap μ (ω × TcpStreamReassembler) → Prop
  | unread {verdict : DpiVerdict} (hread : inspectedPayload svc packet metadata = none)
      (hdefer : verdict.deferSpiCache = true) : StreamSearch (.inl verdict) st
  /-- The reassembler gives the stream up, or there is no hostname in it so far. -/
  | ended {payload : List Byte} {verdict : DpiVerdict}
      {st' : BurstState cap μ (ω × TcpStreamReassembler)}
      (hread : inspectedPayload svc packet metadata = some payload)
      (hverdict : verdict.matched = true ∨ verdict.deferSpiCache = true)
      (htable : st'.flowTable = st.flowTable)
      (hworld : st'.world =
        (st.world.1, (st.world.2.insert env metadata payload ctx.currentBurstTsc).2)) :
      StreamSearch (.inl verdict) st'
  | found {payload hostname : List Byte} {metadata' : PacketMetadata}
      {st' : BurstState cap μ (ω × TcpStreamReassembler)}
      (hread : inspectedPayload svc packet metadata = some payload)
      (herror : (st.world.2.insert env metadata payload
        ctx.currentBurstTsc).1.status.isError = false)
      (hstream : streamHostname svc metadata (st.world.2.insert env metadata payload
        ctx.currentBurstTsc).1.contiguousPayload = some hostname)
      (hhost : metadata'.hostname = some hostname)
      (htable : st'.flowTable = st.flowTable)
      (hworld : st'.world =
        (st.world.1, (st.world.2.insert env metadata payload ctx.currentBurstTsc).2)) :
      StreamSearch (.inr metadata') st'

theorem streamSearch_findHostname (h : TcpStreamReassembler.Inspects env metadata) :
    StreamSearch env ctx svc packet metadata st
      (findHostname ctx (svc.withReassembler env) packet metadata st).1
      (findHostname ctx (svc.withReassembler env) packet metadata st).2 := by
  have hstatus := insert_status_ne_kDisabled h st.world.2
  have hinsert : (svc.withReassembler env).tcpReassembler = some fun metadata payload tsc w ↦
    ((w.2.insert env metadata payload tsc).1, w.1, (w.2.insert env metadata payload tsc).2) := rfl
  unfold findHostname
  rw [hinsert]
  dsimp only
  cases hread : (svc.withReassembler env).pktmbufRead packet metadata.tcpPayloadOffset.toNat
    (min metadata.tcpPayloadLength.toNat kMaxTcpInspectionPayload) with
  | none => exact .unread hread rfl
  | some payload =>
      dsimp only
      cases hresult : (st.world.2.insert env metadata payload ctx.currentBurstTsc).1.status with
      | kDisabled => exact absurd hresult (hstatus payload ctx.currentBurstTsc)
      | kConflictingOverlap | kResourceLimit => exact .ended hread (.inl rfl) rfl rfl
      | kWaiting | kReady =>
          dsimp only
          generalize hfound : setHostname metadata _ = found
          have hstream : streamHostname svc metadata (st.world.2.insert env metadata payload
              ctx.currentBurstTsc).1.contiguousPayload = found.hostname := by
            rw [← hfound]
            rfl
          split
          · exact .ended hread (.inr rfl) rfl rfl
          · rename_i hhost
            obtain ⟨hostname, hhost⟩ := Option.ne_none_iff_exists'.mp hhost
            exact .found hread (by rw [hresult]; rfl) (hstream.trans hhost) hhost rfl rfl

/-- What a miss can have done in the end. -/
inductive Settled : BurstState cap μ (ω × TcpStreamReassembler) → Prop
  | skipped {st' : BurstState cap μ (ω × TcpStreamReassembler)}
      (h : ¬ Inspected ctx metadata spiMatch)
      (hattempts : Attempts (svc.withReassembler env) key (spiMatch.matched = true) st st') :
      Settled st'
  | unread {st' : BurstState cap μ (ω × TcpStreamReassembler)} (hquiet : Quiet st st') :
      Settled st'
  | undecided {payload : List Byte} {st' : BurstState cap μ (ω × TcpStreamReassembler)}
      (h : Inspected ctx metadata spiMatch)
      (hread : inspectedPayload svc packet metadata = some payload)
      (htable : st'.flowTable = st.flowTable)
      (hreassembler : st'.world.2 =
        (st.world.2.insert env metadata payload ctx.currentBurstTsc).2) : Settled st'
  | inspected {payload hostname : List Byte} {st' : BurstState cap μ (ω × TcpStreamReassembler)}
      (h : Inspected ctx metadata spiMatch)
      (hread : inspectedPayload svc packet metadata = some payload)
      (herror : (st.world.2.insert env metadata payload
        ctx.currentBurstTsc).1.status.isError = false)
      (hstream : streamHostname svc metadata (st.world.2.insert env metadata payload
        ctx.currentBurstTsc).1.contiguousPayload = some hostname)
      (hattempts : Attempts (svc.withReassembler env) key
        ((svc.dpiLookup hostname st.world.1).1.result ≠ none ∨ spiMatch.matched = true)
        { st with
          world := ((svc.dpiLookup hostname st.world.1).2,
            (st.world.2.insert env metadata payload ctx.currentBurstTsc).2) } st') :
      Settled st'

variable {env ctx svc packet metadata spiMatch key st}
  {st' : BurstState cap μ (ω × TcpStreamReassembler)}

/-- Behind `TryDpiClassify` both paths only may have the verdict of the rules to store. -/
theorem settled_of_attempts (henabled : env.config.enabled = true)
    (hrest : ∀ {verdict s}, tryDpiClassify ctx (svc.withReassembler env) packet metadata spiMatch
      key st = (verdict, s) →
        Attempts (svc.withReassembler env) key (storesSpi spiMatch verdict) s st') :
    Settled env ctx svc packet metadata spiMatch key st st' := by
  by_cases hinspected : Inspected ctx metadata spiMatch
  · have hdpi := tryDpiClassify_of_inspected ctx (svc.withReassembler env) packet metadata spiMatch
      key st hinspected
    have hsearch := streamSearch_findHostname env ctx svc packet metadata st
      ⟨henabled, hinspected.2.2.2.2.1⟩
    rcases hfind : findHostname ctx (svc.withReassembler env) packet metadata st with ⟨found, s⟩
    rw [hfind] at hdpi hsearch
    cases hsearch with
    | unread _ hdefer =>
        refine .unread ((hrest hdpi).quiet ?_)
        rintro ⟨-, hnot, -⟩
        cases hdefer.symm.trans hnot
    | ended hread hverdict htable hworld =>
        have hquiet : Quiet s st' := by
          refine (hrest hdpi).quiet ?_
          rintro ⟨hmatched, hdefer, -⟩
          rcases hverdict with hverdict | hverdict
          · cases hverdict.symm.trans hmatched
          · cases hverdict.symm.trans hdefer
        refine .undecided hinspected hread (hquiet.1.trans htable) ?_
        rw [hquiet.2, hworld]
    | @found payload hostname metadata' _ hread herror hstream hhost htable hworld =>
        have hlookup : (svc.withReassembler env).dpiLookup hostname s.world =
            ((svc.dpiLookup hostname st.world.1).1, (svc.dpiLookup hostname st.world.1).2,
              (st.world.2.insert env metadata payload ctx.currentBurstTsc).2) := by
          dsimp only at hworld
          rw [hworld]
          rfl
        have hhostname := classifyHostname_attempts ctx (svc.withReassembler env) metadata'
          spiMatch key s hhost
        rw [hlookup] at hhostname
        have hboth := hhostname.trans (hrest hdpi)
        refine .inspected hinspected hread herror hstream ((hboth.mono ?_).of_quiet ⟨htable, rfl⟩)
        rintro (hresult | ⟨-, -, hmatched⟩)
        · exact .inl hresult
        · exact .inr hmatched
  · have hdpi := tryDpiClassify_attempts ctx (svc.withReassembler env) packet metadata spiMatch key
      st hinspected
    refine .skipped hinspected ((hdpi.trans (hrest rfl)).mono ?_)
    rintro (hmatched | ⟨-, -, hmatched⟩)
    · exact hmatched
    · exact hmatched

/-- Behind a miss that leaves its flow undecided the stores are still apart. -/
theorem Settled.separate (h : Settled env ctx svc packet metadata spiMatch key st st')
    (hkey : key = makeCanonicalFromMetadata metadata)
    (hleaves : LeavesUndecided env ctx svc packet metadata spiMatch key st.flowTable st.world.1
      st.world.2)
    (hseparate : Separate st.flowTable st.world.2) : Separate st'.flowTable st'.world.2 := by
  obtain ⟨hskipped, htaken⟩ := hleaves
  cases h with
  | skipped hnot hattempts =>
      rw [hattempts.tries.reassembler]
      by_cases hmatched : spiMatch.matched = true
      · rcases hskipped hnot hmatched with hstreamless | hroom
        · exact hseparate.add hstreamless fun k hk ↦ hattempts.tries.has hk
        · exact hseparate.mono fun k hk ↦ hattempts.tries.has_of_noRoom hroom hk
      · rw [(hattempts.quiet hmatched).1]
        exact hseparate
  | unread hquiet =>
      rw [hquiet.1, hquiet.2]
      exact hseparate
  | undecided hinspected hread htable hreassembler =>
      rw [htable, hreassembler]
      exact hseparate.insert fun herror ↦ hkey ▸ (htaken hinspected _ hread herror).1
  | @inspected payload hostname _ hinspected hread herror hstream hattempts =>
      obtain ⟨habsent, hhost⟩ := htaken hinspected payload hread herror
      have hinserted : Separate st.flowTable
          (st.world.2.insert env metadata payload ctx.currentBurstTsc).2 :=
        hseparate.insert fun _ ↦ hkey ▸ habsent
      rw [hattempts.tries.reassembler]
      rcases hhost hostname hstream with ⟨hmatched, hresult⟩ | hroom
      · have hquiet := hattempts.quiet <| by
          rintro (hsome | hspi)
          · exact hsome hresult
          · cases hmatched.symm.trans hspi
        rw [hquiet.1]
        exact hinserted
      · exact hinserted.mono fun k hk ↦ hattempts.tries.has_of_noRoom hroom hk

/-- Queue mode. -/
theorem settled_resolveMiss (henabled : env.config.enabled = true) :
    Settled env ctx svc packet metadata spiMatch key st
      (resolveMiss ctx (svc.withReassembler env) packet metadata spiMatch key st).2 :=
  settled_of_attempts henabled fun hdpi ↦ resolveMiss_attempts ctx _ packet metadata spiMatch key st
    hdpi

/-- Flow-hash mode. -/
theorem settled_classifyMiss (henabled : env.config.enabled = true) :
    Settled env ctx svc packet metadata spiMatch key st
      (classifyMiss ctx (svc.withReassembler env) packet metadata spiMatch key st).2 := by
  by_cases hskip : spiMatch.matched = true ∧ spiMatch.boundDpiFilterIndex ≠ kNoDpiLink ∨
      ctx.dpiEnabled = false
  · refine .skipped ?_
      (classifyMiss_attempts_of_skipped ctx _ packet metadata spiMatch key st hskip)
    rintro ⟨hdpi, -, -, hlink, -⟩
    rcases hskip with hlinked | hdisabled
    · exact hlink hlinked
    · cases hdpi.symm.trans hdisabled
  · rw [not_or, Bool.not_eq_false] at hskip
    exact settled_of_attempts henabled fun hdpi ↦
      classifyMiss_attempts ctx _ packet metadata spiMatch key st hskip.1 hskip.2 hdpi

end Misses

/-! ## Bursts and single packets -/

section Steps

variable (env : ReassemblerSetup) (ctx : WorkerContext) (svc : Services μ ω)

/-- Every miss of a burst leaves its flow undecided, each in the state its predecessors leave. -/
def BurstLeavesUndecided (portId : BitVec 16) (received : List μ)
    (st : BurstState cap μ (ω × TcpStreamReassembler)) : Prop :=
  let opened := openBurst ctx (svc.withReassembler env) received st
  ∀ (n : Nat) packet i, opened.1.1[n]? = some (.mapped packet i) →
    (opened.1.2.bulkAt i).valid = false →
    let before := beforePacket ctx (svc.withReassembler env) portId opened.1.1 opened.1.2 opened.2 n
    LeavesUndecided env ctx svc packet (opened.1.2.metadataAt i)
      ((spiResults (svc.withReassembler env) ctx.rules opened.1.2 opened.1.1).getD i {})
      (opened.1.2.keyAt i) before.flowTable before.world.1 before.world.2

/-- The same for a packet in flow-hash mode. -/
def PacketLeavesUndecided (packet : μ) (receivePort : BitVec 16)
    (st : BurstState cap μ (ω × TcpStreamReassembler)) : Prop :=
  ∀ metadata packet' wasReassembled w,
    let key := makeCanonicalFromMetadata metadata
    svc.parsePacketOwned packet ctx.currentBurstTsc st.world.1 =
        (.parsed metadata packet' wasReassembled, w) →
      ¬ Redispatched ctx svc packet' receivePort wasReassembled →
      (st.flowTable.lookup key ctx.currentBurstTsc).1 = none →
      LeavesUndecided env ctx svc packet' metadata (spiLookup svc ctx.rules metadata key) key
        st.flowTable w st.world.2

/-- Both stores of a worker are apart. -/
def StoresApart (st : BurstState cap μ (ω × TcpStreamReassembler)) : Prop :=
  Separate st.flowTable st.world.2

variable {env ctx svc} {st st' : BurstState cap μ (ω × TcpStreamReassembler)}

theorem StoresApart.of_quiet (h : StoresApart st) (hquiet : Quiet st st') : StoresApart st' := by
  unfold StoresApart
  rw [hquiet.1, hquiet.2]
  exact h

/-- The key of a packet of a burst is that of its metadata. -/
theorem openBurst_keyAt (svc : Services μ σ) (received : List μ) (st : BurstState cap μ σ)
    (i : Nat) : (openBurst ctx svc received st).1.2.keyAt i =
      makeCanonicalFromMetadata ((openBurst ctx svc received st).1.2.metadataAt i) := by
  obtain ⟨hkeys, -⟩ := openBurst_lookup ctx svc received st
  rw [ParsedBurst.keyAt, ParsedBurst.metadataAt, hkeys, List.getD_eq_getElem?_getD,
    List.getD_eq_getElem?_getD, List.getElem?_map]
  exact Option.getD_map makeCanonicalFromMetadata {} _

theorem StoresApart.openBurst (h : StoresApart st) (received : List μ) :
    StoresApart (openBurst ctx (svc.withReassembler env) received st).2 := by
  obtain ⟨-, -, htable⟩ := openBurst_lookup ctx (svc.withReassembler env) received st
  have hworld : (DpdkSpi.openBurst ctx (svc.withReassembler env) received st).2.world.2 =
      st.world.2 :=
    parseReceivedPackets_keeps Prod.snd (fun _ _ _ ↦ rfl) ctx received 0
      (st.count fun c ↦ { c with received := c.received + received.length })
  unfold StoresApart
  rw [hworld]
  refine Separate.mono h fun key hkey ↦ ?_
  rw [htable] at hkey
  exact (FlowTable.has_of_hash_eq (FlowTable.hash_lookupAll _ _ _)).mp hkey

/-- Packet by packet, the loop of phase 3 keeps the stores apart. -/
theorem StoresApart.beforePacket (h : StoresApart st) (henabled : env.config.enabled = true)
    {portId : BitVec 16} {slots : List (PacketSlot μ)} {b : ParsedBurst}
    (hkeys : ∀ i, b.keyAt i = makeCanonicalFromMetadata (b.metadataAt i))
    (hmisses : ∀ (n : Nat) packet i, slots[n]? = some (.mapped packet i) →
      (b.bulkAt i).valid = false →
      let before := beforePacket ctx (svc.withReassembler env) portId slots b st n
      LeavesUndecided env ctx svc packet (b.metadataAt i)
        ((spiResults (svc.withReassembler env) ctx.rules b slots).getD i {}) (b.keyAt i)
        before.flowTable before.world.1 before.world.2)
    {n : Nat} (hn : n ≤ slots.length) :
    StoresApart (beforePacket ctx (svc.withReassembler env) portId slots b st n) := by
  induction n with
  | zero => exact h
  | succ n ih =>
      have hbefore := ih (Nat.le_of_succ_le hn)
      have hslot : slots[n]? = some slots[n] := List.getElem?_eq_getElem hn
      rw [beforePacket_succ ctx _ portId b st hslot]
      cases hcase : slots[n] with
      | waiting => exact hbefore
      | unmapped packet => exact hbefore.of_quiet ⟨rfl, rfl⟩
      | mapped packet i =>
          unfold finalizePacket
          dsimp only
          split
          · exact hbefore.of_quiet (applyForwardDecision_frame ctx _ packet portId _ _)
          · rename_i hvalid
            refine StoresApart.of_quiet ?_ (applyForwardDecision_frame ctx _ packet portId _ _)
            exact (settled_resolveMiss henabled).separate (hkeys i)
              (hmisses n packet i (hslot.trans (congrArg some hcase)) (by simpa using hvalid))
              hbefore

theorem StoresApart.processPortBurst (h : StoresApart st) (henabled : env.config.enabled = true)
    {portId : BitVec 16} {received : List μ}
    (hburst : BurstLeavesUndecided env ctx svc portId received st) :
    StoresApart (processPortBurst ctx (svc.withReassembler env) portId received st) := by
  rw [processPortBurst_eq, ← beforePacket_length]
  exact (h.openBurst received).beforePacket henabled (openBurst_keyAt _ received st) hburst le_rfl

/-- A packet that is classified here and is not in the flow cache is settled like any miss. -/
theorem StoresApart.classifyPacket (h : StoresApart st) (henabled : env.config.enabled = true)
    {packet : μ} {receivePort : BitVec 16}
    (hpacket : PacketLeavesUndecided env ctx svc packet receivePort st) :
    StoresApart (classifyPacket ctx (svc.withReassembler env) packet receivePort st).2.2 := by
  rcases hparse : svc.parsePacketOwned packet ctx.currentBurstTsc st.world.1 with
    ⟨⟨metadata, packet', wasReassembled⟩ | _ | packet', w⟩
  · have hparse' : (svc.withReassembler env).parsePacketOwned packet ctx.currentBurstTsc st.world =
        (.parsed metadata packet' wasReassembled, w, st.world.2) := by
      simp only [Services.withReassembler, hparse]
    by_cases hredispatched : Redispatched ctx (svc.withReassembler env) packet' receivePort
      wasReassembled
    · unfold DpdkSpi.classifyPacket
      rw [hparse']
      dsimp only
      rw [if_pos hredispatched]
      exact h
    by_cases hmiss : (st.flowTable.lookup (makeCanonicalFromMetadata metadata)
      ctx.currentBurstTsc).1 = none
    · obtain ⟨f, hclassify⟩ := classifyPacket_of_miss hparse' hredispatched hmiss
      rw [hclassify]
      exact (settled_classifyMiss henabled).separate rfl
        (hpacket metadata packet' wasReassembled w hparse hredispatched hmiss) h
    · unfold DpdkSpi.classifyPacket
      rw [hparse']
      dsimp only
      rw [if_neg hredispatched]
      obtain ⟨action, haction⟩ := Option.ne_none_iff_exists'.mp hmiss
      rw [BurstState.count_flowTable, show st.flowTable.lookup _ _ = (some action, _) from
        Prod.ext haction rfl]
      refine Separate.mono h fun key hkey ↦ ?_
      exact (FlowTable.has_of_hash_eq (FlowTable.hash_lookup _ _ _)).mp hkey
  · unfold DpdkSpi.classifyPacket
    simp only [Services.withReassembler, hparse]
    exact h
  · unfold DpdkSpi.classifyPacket
    simp only [Services.withReassembler, hparse]
    exact h

theorem StoresApart.forwardPacket (h : StoresApart st) (henabled : env.config.enabled = true)
    {packet : μ} {receivePort : BitVec 16}
    (hpacket : PacketLeavesUndecided env ctx svc packet receivePort st) :
    StoresApart (forwardPacket ctx (svc.withReassembler env) packet receivePort st) := by
  have hclassified := h.classifyPacket henabled hpacket
  unfold DpdkSpi.forwardPacket
  rcases hclassify : DpdkSpi.classifyPacket ctx (svc.withReassembler env) packet receivePort st with
    ⟨classification, _ | packet', st'⟩
  · rw [hclassify] at hclassified
    exact hclassified
  · rw [hclassify] at hclassified
    dsimp only at hclassified ⊢
    split
    · split
      · exact hclassified
      · exact hclassified
    · exact hclassified.of_quiet (applyForwardDecision_frame ctx _ packet' receivePort _ _)

theorem StoresApart.cleanupState (h : StoresApart st) (cleanup : FragmentCleanup ω)
    (currentBurstTsc lastCleanup : BitVec 64) :
    StoresApart (cleanupState (cleanup.withReassembler env) currentBurstTsc lastCleanup st) := by
  unfold DpdkSpi.cleanupState cleanupExpiredFragments
  split
  · exact h
  · exact Separate.purgeExpired h currentBurstTsc

end Steps

/-! ## Runs -/

theorem flushTransmitBuffers_quiet (ctx : WorkerContext) (accepted : BitVec 16 → Nat)
    (st : BurstState cap μ σ) : Quiet st (flushTransmitBuffers ctx accepted st).2 := by
  unfold flushTransmitBuffers
  generalize ctx.activePorts = ports
  suffices hfold : ∀ r : List μ × BurstState cap μ σ,
      Quiet r.2 (ports.foldl (flushPort accepted) r).2 from hfold ([], st)
  induction ports with
  | nil => exact fun _ ↦ ⟨rfl, rfl⟩
  | cons port ports ih =>
      intro r
      refine Quiet.trans ?_ (ih (flushPort accepted r port))
      unfold flushPort
      dsimp only
      split
      · exact ⟨rfl, rfl⟩
      · exact ⟨rfl, rfl⟩

/-- An operation on the flow table that stores no verdict for a flow with a stream. -/
def SparesStreams (r : TcpStreamReassembler) (t : FlowTable cap) : FlowOp cap → Prop
  | .insert key _ _ _ slot => Streamless r key ∨ t.Refuses key slot
  | .insertRaw key _ _ _ _ => Streamless r key
  | _ => True

/-- A step that leaves no flow with both a verdict and a stream: each of its misses leaves its flow
undecided, and other lcores store no verdict for a flow that has a stream here. -/
def StepLeavesUndecided (env : ReassemblerSetup) (s : ReassemblingWorker μ ω) :
    WorkerOp μ ω → Prop
  | .burst ctx svc portId received => BurstLeavesUndecided env ctx svc portId received s.burst
  | .forward ctx svc packet receivePort =>
      PacketLeavesUndecided env ctx svc packet receivePort s.burst
  | .elsewhere op =>
      SparesStreams s.burst.world.2 s.burst.flowTable (op s.maxConcurrentFlows)
  | _ => True

/-- What other lcores do to the flow table. -/
theorem Separate.apply {t : FlowTable cap} {r : TcpStreamReassembler} (h : Separate t r)
    {op : FlowOp cap} (hop : SparesStreams r t op) : Separate (t.apply op) r := by
  cases op with
  | insert key matchCount action now slot =>
      rcases hop with hstreamless | hrefuses
      · exact h.add hstreamless fun k hk ↦ FlowTable.has_of_has_insert hk
      · refine h.mono fun k hk ↦ ?_
        obtain ⟨hhash, -⟩ := FlowTable.insert_of_refuses hrefuses matchCount action now
        exact (FlowTable.has_of_hash_eq hhash).mp hk
  | insertRaw key matchCount action now slot =>
      exact h.add hop fun k hk ↦ FlowTable.has_of_has_insertRaw hk
  | lookup key now =>
      exact h.mono fun k hk ↦ (FlowTable.has_of_hash_eq (FlowTable.hash_lookup t key now)).mp hk
  | lookupBulk keys now results =>
      obtain ⟨data, hlooked⟩ := FlowTable.lookupBulk_frame t keys now results
      rw [FlowTable.apply, hlooked]
      exact h
  | purgeExpired now ttl forceQuit =>
      exact h.mono fun k hk ↦ FlowTable.has_of_has_purgeExpired hk

theorem StoresApart.step {env : ReassemblerSetup} (henabled : env.config.enabled = true)
    {s : ReassemblingWorker μ ω} (h : StoresApart s.burst) (op : WorkerOp μ ω)
    (hop : StepLeavesUndecided env s op) : StoresApart (s.apply env op).burst := by
  cases op with
  | burst ctx svc portId received => exact h.processPortBurst henabled hop
  | forward ctx svc packet receivePort => exact h.forwardPacket henabled hop
  | cleanup cleanup currentBurstTsc lastCleanup => exact h.cleanupState cleanup _ _
  | flush ctx accepted => exact h.of_quiet (flushTransmitBuffers_quiet ctx accepted s.burst)
  | elsewhere op => exact Separate.apply h hop
  | resize newMax created io =>
      exact Separate.mono h fun k hk ↦ has_of_has_maybeReloadFlowTable hk

/-- The flow of a stream has a verdict in the flow table. -/
def Decided (t : FlowTable cap) (key : StreamKey) : Prop :=
  ∃ metadata, metadata.protocol = .kTcp ∧ (makeKey metadata).1 = key ∧
    t.answer (makeCanonicalFromMetadata metadata) ≠ none

/-- **Only undecided flows have streams**, in every run of a worker with reassembly whose steps
leave flows undecided: a flow with a verdict in the flow table has no stream, in any bucket, and
where `Insert` finds the table of streams full, undecided flows fill it. -/
theorem streams_await_decision {env : ReassemblerSetup} (henabled : env.config.enabled = true)
    {s : ReassemblingWorker μ ω}
    (h : ((reassemblingWorker μ ω env).restrict (StepLeavesUndecided env)).Reach s) :
    (∀ metadata : PacketMetadata, metadata.protocol = .kTcp →
        s.burst.flowTable.answer (makeCanonicalFromMetadata metadata) ≠ none →
        s.burst.world.2.NoStream (makeKey metadata).1) ∧
      ∀ key, s.burst.world.2.streamTableFull env key = true →
        ∃ waiting : List StreamPlace, waiting.Sublist s.burst.world.2.streams.keys ∧
          (∀ place ∈ waiting, ¬ Decided s.burst.flowTable place.key) ∧
          env.config.maxConcurrentStreams.toNat ≤ waiting.length := by
  have hapart : StoresApart s.burst := by
    refine h.invariant (I := fun s ↦ StoresApart s.burst) ?_ ?_
    · rintro s ⟨maxConcurrentFlows, created, world, rfl⟩ key hkey
      exact absurd hkey (FlowTable.not_has_new maxConcurrentFlows created key)
    · rintro s op s' hs ⟨hop, rfl⟩
      exact hs.step henabled op hop
  have hnone : ∀ metadata : PacketMetadata, metadata.protocol = .kTcp →
      s.burst.flowTable.answer (makeCanonicalFromMetadata metadata) ≠ none →
      s.burst.world.2.NoStream (makeKey metadata).1 :=
    fun metadata htcp hanswer ↦ hapart _ (FlowTable.has_of_answer hanswer) metadata htcp rfl
  refine ⟨hnone, fun key hfull ↦ ⟨_, List.Sublist.refl _, ?_, ?_⟩⟩
  · rintro place hmem ⟨metadata, htcp, hkey, hanswer⟩
    have hsome : (s.burst.world.2.streams.lookup place).isSome = true :=
      AList.lookup_isSome.mpr hmem
    rw [hnone metadata htcp hanswer place hkey.symm] at hsome
    cases hsome
  · unfold TcpStreamReassembler.streamTableFull at hfull
    rw [Bool.and_eq_true, decide_eq_true_eq] at hfull
    exact hfull.2

/-! ## A request -/

/-- A segment of an HTTP request from 10.0.0.1:4096 to 10.0.0.2:80 or, with another port, of
another flow. -/
structure RequestSegment where
  sourcePortBe : BitVec 16 := 0x0010
  protocol : Protocol := .kTcp
  payload : List Byte := []

/-- What the parser makes of it. -/
def RequestSegment.metadata (p : RequestSegment) : PacketMetadata :=
  { clientSegment 0 with
    sourcePortBe := p.sourcePortBe
    protocol := p.protocol
    tcpPayloadLength := BitVec.ofNat 32 p.payload.length }

/-- A complete request. -/
def completeRequest : List Byte := asciiBytes "GET / HTTP/1.1\r\nHost: a\r\n\r\n"

/-- Services that find the host in it and a DPI rule for the host; the rules know UDP. -/
def requestServices : Services RequestSegment Unit where
  dpdk :=
    { aclClassify := fun _ ↦ some fun input ↦
        if input.protocol = kIpProtoUdp then encodeUserdata 0 0 else 0
      memberLookup := fun _ _ ↦ rteMemberNoMatch
      hashCrc := fun _ ↦ 0 }
  parsePacketOwned := fun packet _ world ↦ (.parsed packet.metadata packet false, world)
  hashPacketFlow := fun _ _ ↦ 0
  insertChoice := fun _ world ↦ ((5, some 0), world)
  pktmbufRead := fun packet _ length ↦ if length ≤ packet.payload.length then
    some (packet.payload.take length) else none
  tcpReassembler := none
  extractTlsSni := fun _ ↦ none
  extractHttpHost := fun stream ↦
    if stream = completeRequest then some (asciiBytes "a") else none
  extractHostname := fun _ _ ↦ none
  dpiLookup := fun _ world ↦ (⟨false, some { filterGroup := "web", label := "a" }⟩, world)
  updateL3ForwardHeaders := fun packet _ _ ↦ (false, packet)
  updateL2ForwardMacs := fun packet _ _ ↦ packet
  ringEnqueue := fun _ _ world ↦ (true, world)

/-- A worker on one port with DPI whose only rule drops UDP. -/
def inspectHttp : WorkerContext :=
  { dropTcp with
    dpiEnabled := true
    rules := { RuleTable.tcpTable with
      groups := [{ name := "udp", action := .kDrop, filters := [{ protocol := .kUdp }] }] } }

/-- Reassembly for a single stream. -/
def oneStream : ReassemblerSetup := .new { enabled := true, maxConcurrentStreams := 1 } 1

/-- A packet that comes to the worker. -/
def arrives (packet : RequestSegment) : WorkerOp RequestSegment Unit :=
  .forward inspectHttp requestServices packet 0

/-- The worker behind some packets. -/
def requestWorker (packets : List RequestSegment) : ReassemblingWorker RequestSegment Unit :=
  packets.foldl (fun s packet ↦ s.apply oneStream (arrives packet)) (.start 8 true ())

/-- The first segment of a request, which does not say the host yet. -/
def firstSegment : RequestSegment := { payload := asciiBytes "GET / HTTP/1.1\r\n" }

/-- A UDP packet, for which there is a rule. -/
def datagram : RequestSegment := { protocol := .kUdp }

/-- No stream is of a UDP flow. -/
theorem streamless_of_kUdp (r : TcpStreamReassembler) {p : PacketMetadata}
    (hp : p.protocol = .kUdp) : Streamless r (makeCanonicalFromMetadata p) := by
  intro metadata htcp hkey
  have hprotocol := (makeCanonicalFromMetadata_eq_iff.mp hkey).1
  rw [htcp, hp] at hprotocol
  cases hprotocol

/-- A request that is not decided yet has a stream, a datagram that is decided has none. -/
theorem streams_await_decision_first_segment :
    (requestWorker [firstSegment, datagram]).burst.flowTable.answer
        (makeCanonicalFromMetadata datagram.metadata) = some .kDrop ∧
      ((requestWorker [firstSegment, datagram]).burst.world.2.streams.lookup
        clientPlace).isSome = true ∧
      ∀ metadata : PacketMetadata, metadata.protocol = .kTcp →
        (requestWorker [firstSegment, datagram]).burst.flowTable.answer
          (makeCanonicalFromMetadata metadata) ≠ none →
        (requestWorker [firstSegment, datagram]).burst.world.2.NoStream (makeKey metadata).1 := by
  have henabled : oneStream.config.enabled = true := rfl
  refine ⟨by decide +kernel, by decide +kernel, (streams_await_decision henabled ?_).1⟩
  refine .step (a := arrives datagram) (.step (a := arrives firstSegment)
    (.init ⟨8, true, (), rfl⟩) ⟨?_, rfl⟩) ⟨?_, rfl⟩
  · intro metadata packet' wasReassembled w key hparse hhere hmiss
    cases hparse
    refine ⟨fun _ hmatched ↦ ?_, fun _ payload hread _ ↦ ⟨?_, ?_⟩⟩
    · exact absurd hmatched (by decide +kernel)
    · exact FlowTable.not_has_new 8 true _
    · intro hostname hhost
      cases hread
      have hnone : streamHostname requestServices firstSegment.metadata
          (TcpStreamReassembler.insert oneStream {} firstSegment.metadata firstSegment.payload
            0).1.contiguousPayload = none := by decide +kernel
      cases hnone.symm.trans hhost
  · intro metadata packet' wasReassembled w key hparse hhere hmiss
    cases hparse
    refine ⟨fun _ _ ↦ .inl (streamless_of_kUdp _ rfl), fun hinspected ↦ ?_⟩
    cases hinspected.2.2.2.2.1

/-- The request is decided by its first packet, and its stream still takes the place that another
flow needs. -/
theorem decided_flow_keeps_stream :
    (reassemblingWorker RequestSegment Unit oneStream).Reach
        (requestWorker [{ payload := completeRequest }]) ∧
      (requestWorker [{ payload := completeRequest }]).burst.flowTable.answer
        (makeCanonicalFromMetadata (clientSegment 0)) = some .kForward ∧
      clientPlace.key = (makeKey (clientSegment 0)).1 ∧
      (requestWorker [{ payload := completeRequest }]).burst.world.2.streams.lookup
        clientPlace ≠ none ∧
      ((requestWorker [{ payload := completeRequest }]).burst.world.2.insert oneStream
        { clientSegment 0 with sourcePortBe := 0x0011 } completeRequest 0).1.status =
          .kResourceLimit := by
  refine ⟨.step (a := arrives { payload := completeRequest }) (.init ⟨8, true, (), rfl⟩) rfl,
    by decide +kernel, key_clientPlace, ?_, by decide +kernel⟩
  rw [← Option.isSome_iff_ne_none]
  decide +kernel

end DpdkSpi
