import DpdkSpi.Pipeline.Burst
import DpdkSpi.Rule.Bulk

/-!
# Drop verdicts

A packet that the flow cache does not know and that the rules want dropped has its verdict
cached first.  What happens to the packet when the cache has no room depends on the path
it takes: some branches keep the verdict, some forget it and leave an unmatched packet.
This module finds out exactly when a packet with a drop verdict is enqueued, in the
flow-hash path (`ForwardPacket`) and for every packet of a burst in queue mode
(`FinalizePackets`).
-/

namespace DpdkSpi

variable {cap : Nat} {μ σ : Type}

/-! ## Insertions without room -/

namespace FlowTable

/-- `Insert` has no room for a key: there is no hash, or the key is new and there is no
free cell or no free position. -/
def Refuses (t : FlowTable cap) (key : FlowKey) (slot : Option Nat) : Prop :=
  match t.hash with
  | none => True
  | some h => h.lookup key = none ∧ (t.freeList = [] ∨ slot.all h.occupied = true)

theorem countOverflow_fst (r : FlowInsertResult × FlowTable cap) : (countOverflow r).1 = r.1 := by
  rcases r with ⟨_ | _, t⟩ <;> rfl

theorem addFlow_eq_kFull_iff {t : FlowTable cap} {h : RteHash cap} {key : FlowKey}
    (hkey : h.lookup key = none) (matchCount : BitVec 64) (action : Action) (now : BitVec 64)
    (slot : Option Nat) :
    (t.addFlow h key matchCount action now slot).1 = .kFull ↔
      t.freeList = [] ∨ slot.all h.occupied = true := by
  unfold addFlow
  cases hfree : t.freeList with
  | nil => exact iff_of_true rfl (.inl rfl)
  | cons i rest =>
      rw [or_iff_right (List.cons_ne_nil i rest)]
      dsimp only
      rcases Lib.SlotMap.add_of_lookup_eq_none hkey slot i with
        ⟨hadd, hocc⟩ | ⟨p, h', rfl, hocc, hadd, -⟩
      · rw [hadd]
        refine iff_of_true rfl ?_
        cases slot with
        | none => rfl
        | some p => exact hocc p rfl
      · rw [hadd]
        refine iff_of_false FlowInsertResult.noConfusion ?_
        rw [Option.all_some, hocc]
        exact Bool.noConfusion

/-- **When `Insert` returns `kFull`.** -/
theorem insert_eq_kFull_iff (t : FlowTable cap) (key : FlowKey) (matchCount : BitVec 64)
    (action : Action) (now : BitVec 64) (slot : Option Nat) :
    (t.insert key matchCount action now slot).1 = .kFull ↔ t.Refuses key slot := by
  unfold insert Refuses
  cases t.hash with
  | none => exact iff_of_true rfl trivial
  | some h =>
      dsimp only
      cases hkey : h.lookup key with
      | some i =>
          exact iff_of_false FlowInsertResult.noConfusion fun hr ↦ Option.some_ne_none i hr.1
      | none =>
          dsimp only
          rw [countOverflow_fst, addFlow_eq_kFull_iff hkey, and_iff_right rfl]

end FlowTable

/-- The verdict of a packet cannot be cached, and the policy is to go on without it. -/
def Uncached (ctx : WorkerContext) (svc : Services μ σ) (key : FlowKey) (st : BurstState cap μ σ) :
    Prop :=
  st.flowTable.Refuses key (svc.insertChoice key st.world).1.2 ∧ ctx.flowOverflowDrop = false

/-- The packet leaves in spite of its verdict: the verdict is forgotten, unmatched packets
are not dropped, and the packet can be sent. -/
def Leaks (ctx : WorkerContext) (svc : Services μ σ) (packet : μ) (receivePort : BitVec 16)
    (metadata : PacketMetadata) (key : FlowKey) (st : BurstState cap μ σ) : Prop :=
  Uncached ctx svc key st ∧ ctx.dropUnmatched = false ∧
    Transmittable ctx svc packet receivePort { metadata, parsed := true }

/-! ## What becomes of the verdict -/

/-- The rules want the packet dropped. -/
def IsDrop (spiMatch : ClassificationResult) : Prop :=
  spiMatch.matched = true ∧ spiMatch.action = .kDrop

instance (spiMatch : ClassificationResult) : Decidable (IsDrop spiMatch) :=
  inferInstanceAs (Decidable (_ ∧ _))

/-- A classification with the state it leaves: a matched drop, unless `lost` holds and the
packet is an unmatched one. -/
structure DropsUnless (lost : Prop) (metadata : PacketMetadata) (st : BurstState cap μ σ)
    (r : PacketClassification × BurstState cap μ σ) : Prop where
  buffers : r.2.transmitBuffers = st.transmitBuffers
  forgotten : lost → r.1 = { metadata, parsed := true }
  kept : ¬ lost → r.1 = { metadata, action := .kDrop, parsed := true, matched := true }

/-- The decision that follows on such a classification enqueues the packet exactly when
the verdict is lost and nothing else stops the packet. -/
theorem DropsUnless.enqueued_iff {ctx : WorkerContext} {svc : Services μ σ} {lost : Prop}
    {metadata : PacketMetadata} {st : BurstState cap μ σ}
    {r : PacketClassification × BurstState cap μ σ} (h : DropsUnless lost metadata st r)
    (packet : μ) (receivePort : BitVec 16) :
    (applyForwardDecision ctx svc packet receivePort r.1 r.2).transmitBuffers =
        st.transmitBuffers ↔
      ¬ (lost ∧ ctx.dropUnmatched = false ∧
        Transmittable ctx svc packet receivePort { metadata, parsed := true }) := by
  rw [← h.buffers, applyForwardDecision_transmitBuffers_eq_iff]
  by_cases hlost : lost
  · rw [h.forgotten hlost, and_iff_right hlost, not_and_or, Bool.not_eq_false]
    constructor
    · rintro (⟨hmatched, -⟩ | ⟨hdrop, -⟩ | hstuck)
      · cases hmatched
      · exact .inl hdrop
      · exact .inr hstuck
    · rintro (hdrop | hstuck)
      · exact .inr (.inl ⟨hdrop, rfl⟩)
      · exact .inr (.inr hstuck)
  · rw [h.kept hlost]
    exact iff_of_true (.inl ⟨rfl, rfl⟩) fun hl ↦ hlost hl.1

theorem DropsUnless.not_redispatch {lost : Prop} {metadata : PacketMetadata}
    {st : BurstState cap μ σ} {r : PacketClassification × BurstState cap μ σ}
    (h : DropsUnless lost metadata st r) : r.1.redispatch = false := by
  by_cases hlost : lost
  · rw [h.forgotten hlost]
  · rw [h.kept hlost]

/-- The verdict as it comes out of an insertion that may fail. -/
theorem insertFlow_cases (ctx : WorkerContext) (svc : Services μ σ) (key : FlowKey)
    (action : Action) (st : BurstState cap μ σ) :
    (∃ st', st.insertFlow svc key action = (.kOk, st') ∧ ¬ Uncached ctx svc key st ∧
        st'.transmitBuffers = st.transmitBuffers) ∨
      ∃ st', st.insertFlow svc key action = (.kFull, st') ∧
        (Uncached ctx svc key st ↔ ctx.flowOverflowDrop = false) ∧
        st'.transmitBuffers = st.transmitBuffers := by
  have hfull : (st.insertFlow svc key action).1 = .kFull ↔
      st.flowTable.Refuses key (svc.insertChoice key st.world).1.2 :=
    st.flowTable.insert_eq_kFull_iff key 1 action _ _
  have hbuffers := st.insertFlow_transmitBuffers svc key action
  rcases hinsert : st.insertFlow svc key action with ⟨result, st'⟩
  rw [hinsert] at hfull hbuffers
  cases result with
  | kOk =>
      refine .inl ⟨st', rfl, fun h ↦ ?_, hbuffers⟩
      cases hfull.mpr h.1
  | kFull => exact .inr ⟨st', rfl, and_iff_right (hfull.mp rfl), hbuffers⟩

/-- Counters do not matter. -/
theorem DropsUnless.of_count {ctx : WorkerContext} {svc : Services μ σ} {key : FlowKey}
    {metadata : PacketMetadata} {st : BurstState cap μ σ} {f : BurstCounters → BurstCounters}
    {r : PacketClassification × BurstState cap μ σ}
    (h : DropsUnless (Uncached ctx svc key (st.count f)) metadata (st.count f) r) :
    DropsUnless (Uncached ctx svc key st) metadata st r :=
  ⟨h.buffers, h.forgotten, h.kept⟩

/-- `MakeMatched` forgets a drop verdict it cannot cache. -/
theorem makeMatched_dropsUnless (ctx : WorkerContext) (svc : Services μ σ)
    (metadata : PacketMetadata) (key : FlowKey) (st : BurstState cap μ σ) :
    DropsUnless (Uncached ctx svc key st) metadata st
      (makeMatched ctx svc metadata .kDrop key st) := by
  unfold makeMatched
  rcases insertFlow_cases ctx svc key .kDrop st with
    ⟨st', hinsert, hcached, hbuffers⟩ | ⟨st', hinsert, huncached, hbuffers⟩
  · rw [hinsert]
    exact ⟨hbuffers, fun h ↦ absurd h hcached, fun _ ↦ rfl⟩
  · rw [hinsert, huncached]
    cases hdrop : ctx.flowOverflowDrop with
    | true => exact ⟨hbuffers, fun h ↦ Bool.noConfusion h, fun _ ↦ rfl⟩
    | false => exact ⟨hbuffers, fun _ ↦ rfl, fun h ↦ absurd rfl h⟩

/-- `TryDpiClassify` has nothing to say about a packet with a drop verdict. -/
theorem tryDpiClassify_drop (ctx : WorkerContext) (svc : Services μ σ) (packet : μ)
    (metadata : PacketMetadata) {spiMatch : ClassificationResult} (hdrop : IsDrop spiMatch)
    (key : FlowKey) (st : BurstState cap μ σ) :
    ∃ f, tryDpiClassify ctx svc packet metadata spiMatch key st = ({ metadata }, st.count f) := by
  unfold tryDpiClassify dpiRoute
  dsimp only
  by_cases hdpi : (!ctx.dpiEnabled) = true
  · rw [if_pos hdpi]
    exact ⟨id, rfl⟩
  · have hrule : spiMatch.matched = true ∧ spiMatch.action = .kDrop := hdrop
    rw [if_neg hdpi, if_pos hrule]
    exact ⟨_, rfl⟩

/-- In `ClassifyPacket` a group with a static link keeps its verdict; without one it is
left to `MakeMatched`. -/
theorem classifyMiss_dropsUnless (ctx : WorkerContext) (svc : Services μ σ) (packet : μ)
    (metadata : PacketMetadata) {spiMatch : ClassificationResult} (hdrop : IsDrop spiMatch)
    (key : FlowKey) (st : BurstState cap μ σ) :
    DropsUnless (spiMatch.boundDpiFilterIndex = kNoDpiLink ∧ Uncached ctx svc key st) metadata st
      (classifyMiss ctx svc packet metadata spiMatch key st) := by
  obtain ⟨f, hdpi⟩ := tryDpiClassify_drop ctx svc packet metadata hdrop key st
  obtain ⟨hmatched, haction⟩ := hdrop
  unfold classifyMiss
  by_cases hlink : spiMatch.boundDpiFilterIndex = kNoDpiLink
  · rw [if_neg (fun h ↦ h.2 hlink), and_iff_right hlink, hdpi, hmatched, haction]
    cases ctx.dpiEnabled with
    | false => exact makeMatched_dropsUnless ctx svc metadata key st
    | true => exact (makeMatched_dropsUnless ctx svc metadata key (st.count f)).of_count
  · have hkeeps : ¬ (spiMatch.boundDpiFilterIndex = kNoDpiLink ∧ Uncached ctx svc key st) :=
      fun h ↦ hlink h.1
    rw [if_pos ⟨hmatched, hlink⟩, haction]
    rcases insertFlow_cases ctx svc key .kDrop st with
      ⟨st', hinsert, -, hbuffers⟩ | ⟨st', hinsert, -, hbuffers⟩
    · rw [hinsert]
      exact ⟨hbuffers, fun h ↦ absurd h hkeeps, fun _ ↦ rfl⟩
    · rw [hinsert]
      -- either policy ends in a drop
      cases ctx.flowOverflowDrop with
      | true => exact ⟨hbuffers, fun h ↦ absurd h hkeeps, fun _ ↦ rfl⟩
      | false => exact ⟨hbuffers, fun h ↦ absurd h hkeeps, fun _ ↦ rfl⟩

/-- `FinalizePackets` does what `MakeMatched` does, whether the group has a static link or
not. -/
theorem resolveMiss_dropsUnless (ctx : WorkerContext) (svc : Services μ σ) (packet : μ)
    (metadata : PacketMetadata) {spiMatch : ClassificationResult} (hdrop : IsDrop spiMatch)
    (key : FlowKey) (st : BurstState cap μ σ) :
    DropsUnless (Uncached ctx svc key st) metadata st
      (resolveMiss ctx svc packet metadata spiMatch key st) := by
  obtain ⟨f, hdpi⟩ := tryDpiClassify_drop ctx svc packet metadata hdrop key st
  obtain ⟨hmatched, haction⟩ := hdrop
  unfold resolveMiss
  rw [hdpi, hmatched, haction]
  exact (makeMatched_dropsUnless ctx svc metadata key (st.count f)).of_count

/-! ## Both paths -/

theorem FlowTable.lookup_of_miss {t : FlowTable cap} {key : FlowKey} {now : BitVec 64}
    (hmiss : (t.lookup key now).1 = none) : t.lookup key now = (none, t) := by
  revert hmiss
  unfold FlowTable.lookup
  cases t.hash.bind fun h ↦ h.lookup key with
  | none => exact fun _ ↦ rfl
  | some i =>
      dsimp only
      split
      · exact fun _ ↦ rfl
      · intro hmiss
        cases hmiss

/-- `ClassifyPacket` on a parsed packet that belongs to this worker and that the flow cache
does not know. -/
theorem classifyPacket_of_miss {ctx : WorkerContext} {svc : Services μ σ} {received packet : μ}
    {receivePort : BitVec 16} {metadata : PacketMetadata} {wasReassembled : Bool} {world : σ}
    {st : BurstState cap μ σ}
    (hparse : svc.parsePacketOwned received ctx.currentBurstTsc st.world =
      (.parsed metadata packet wasReassembled, world))
    (hhere : ¬ Redispatched ctx svc packet receivePort wasReassembled)
    (hmiss : (st.flowTable.lookup (makeCanonicalFromMetadata metadata)
      ctx.currentBurstTsc).1 = none) :
    ∃ f, classifyPacket ctx svc received receivePort st =
      let key := makeCanonicalFromMetadata metadata
      let r := classifyMiss ctx svc packet metadata (spiLookup svc ctx.rules metadata key) key
        ({ st with world }.count f)
      (r.1, some packet, r.2) := by
  refine ⟨fun c ↦ { c with parsed := c.parsed + 1 }, ?_⟩
  unfold classifyPacket
  rw [hparse]
  dsimp only
  rw [if_neg hhere, BurstState.count_flowTable, FlowTable.lookup_of_miss hmiss]
  rfl

/-- `ForwardPacket` enqueues a packet with a drop verdict exactly when its group has no
static link and the packet leaks. -/
theorem forwardPacket_drop_iff {ctx : WorkerContext} {svc : Services μ σ} {received packet : μ}
    {receivePort : BitVec 16} {metadata : PacketMetadata} {wasReassembled : Bool} {world : σ}
    {st : BurstState cap μ σ}
    (hparse : svc.parsePacketOwned received ctx.currentBurstTsc st.world =
      (.parsed metadata packet wasReassembled, world))
    (hhere : ¬ Redispatched ctx svc packet receivePort wasReassembled)
    (hmiss : (st.flowTable.lookup (makeCanonicalFromMetadata metadata)
      ctx.currentBurstTsc).1 = none)
    (hdrop : IsDrop (spiLookup svc ctx.rules metadata (makeCanonicalFromMetadata metadata))) :
    (forwardPacket ctx svc received receivePort st).transmitBuffers = st.transmitBuffers ↔
      ¬ ((spiLookup svc ctx.rules metadata
            (makeCanonicalFromMetadata metadata)).boundDpiFilterIndex = kNoDpiLink ∧
          Leaks ctx svc packet receivePort metadata (makeCanonicalFromMetadata metadata)
            { st with world }) := by
  obtain ⟨f, hclassify⟩ := classifyPacket_of_miss hparse hhere hmiss
  have hmiss' := classifyMiss_dropsUnless ctx svc packet metadata hdrop
    (makeCanonicalFromMetadata metadata) ({ st with world }.count f)
  unfold forwardPacket
  rw [hclassify]
  dsimp only
  rw [if_neg (by rw [hmiss'.not_redispatch]; exact Bool.false_ne_true), Leaks, ← and_assoc]
  exact hmiss'.enqueued_iff packet receivePort

/-- The state of a burst in front of its `i`-th packet. -/
def beforePacket (ctx : WorkerContext) (svc : Services μ σ) (portId : BitVec 16)
    (slots : List (PacketSlot μ)) (b : ParsedBurst) (st : BurstState cap μ σ) (i : Nat) :
    BurstState cap μ σ :=
  (slots.take i).foldl (finalizePacket ctx svc portId b (spiResults svc ctx.rules b slots)) st

/-- Behind its last packet the burst is done. -/
theorem beforePacket_length (ctx : WorkerContext) (svc : Services μ σ) (portId : BitVec 16)
    (slots : List (PacketSlot μ)) (b : ParsedBurst) (st : BurstState cap μ σ) :
    beforePacket ctx svc portId slots b st slots.length =
      finalizePackets ctx svc portId slots b st := by
  rw [beforePacket, List.take_length, finalizePackets]

theorem beforePacket_succ (ctx : WorkerContext) (svc : Services μ σ) (portId : BitVec 16)
    {slots : List (PacketSlot μ)} (b : ParsedBurst) (st : BurstState cap μ σ) {i : Nat}
    {slot : PacketSlot μ} (hslot : slots[i]? = some slot) :
    beforePacket ctx svc portId slots b st (i + 1) =
      finalizePacket ctx svc portId b (spiResults svc ctx.rules b slots)
        (beforePacket ctx svc portId slots b st i) slot := by
  rw [beforePacket, List.take_add_one, hslot, Option.toList_some, List.foldl_append]
  rfl

/-- `FinalizePackets` enqueues a packet with a drop verdict exactly when it leaks. -/
theorem finalizePacket_drop_iff {ctx : WorkerContext} {svc : Services μ σ} {portId : BitVec 16}
    {b : ParsedBurst} {spiMatches : List ClassificationResult} {packet : μ} {idx : Nat}
    (hmiss : (b.bulkAt idx).valid = false) (hdrop : IsDrop (spiMatches.getD idx {}))
    (st : BurstState cap μ σ) :
    (finalizePacket ctx svc portId b spiMatches st (.mapped packet idx)).transmitBuffers =
        st.transmitBuffers ↔
      ¬ Leaks ctx svc packet portId (b.metadataAt idx) (b.keyAt idx) st := by
  unfold finalizePacket
  dsimp only
  rw [if_neg (by rw [hmiss]; exact Bool.false_ne_true)]
  exact (resolveMiss_dropsUnless ctx svc packet (b.metadataAt idx) hdrop (b.keyAt idx)
    st).enqueued_iff packet portId

/-- **When drop verdicts are enforced.**  In both paths a parsed packet that the flow cache
does not know and that the rules want dropped stays out of the staging buffers exactly
when it does not leak; in the flow-hash path a static link of its group is enough. -/
theorem drop_enforced_iff (ctx : WorkerContext) (svc : Services μ σ) (port : BitVec 16)
    (st : BurstState cap μ σ) :
    (∀ received metadata packet wasReassembled world,
      let key := makeCanonicalFromMetadata metadata
      let spiMatch := spiLookup svc ctx.rules metadata key
      svc.parsePacketOwned received ctx.currentBurstTsc st.world =
          (.parsed metadata packet wasReassembled, world) →
        ¬ Redispatched ctx svc packet port wasReassembled →
        (st.flowTable.lookup key ctx.currentBurstTsc).1 = none →
        IsDrop spiMatch →
        ((forwardPacket ctx svc received port st).transmitBuffers = st.transmitBuffers ↔
          ¬ (spiMatch.boundDpiFilterIndex = kNoDpiLink ∧
            Leaks ctx svc packet port metadata key { st with world }))) ∧
      ∀ slots (b : ParsedBurst) (i : Nat) packet idx,
        slots[i]? = some (.mapped packet idx) →
        (b.bulkAt idx).valid = false →
        IsDrop ((spiResults svc ctx.rules b slots).getD idx {}) →
        ((beforePacket ctx svc port slots b st (i + 1)).transmitBuffers =
            (beforePacket ctx svc port slots b st i).transmitBuffers ↔
          ¬ Leaks ctx svc packet port (b.metadataAt idx) (b.keyAt idx)
            (beforePacket ctx svc port slots b st i)) := by
  constructor
  · intro received metadata packet wasReassembled world key spiMatch hparse hhere hmiss hdrop
    exact forwardPacket_drop_iff hparse hhere hmiss hdrop
  · intro slots b i packet idx hslot hmiss hdrop
    rw [beforePacket_succ ctx svc port b st hslot]
    exact finalizePacket_drop_iff hmiss hdrop _

/-! ## Two tables -/

/-- Packets that are their own metadata, with nothing but rules and a flow table behind the
pipeline. -/
def plainServices : Services PacketMetadata Unit where
  dpdk := RuleTable.tcpDpdk
  parsePacketOwned := fun packet _ world ↦ (.parsed packet packet false, world)
  hashPacketFlow := fun _ _ ↦ 0
  insertChoice := fun _ world ↦ ((5, some 0), world)
  pktmbufRead := fun _ _ _ ↦ none
  tcpReassembler := none
  extractTlsSni := fun _ ↦ none
  extractHttpHost := fun _ ↦ none
  extractHostname := fun _ _ ↦ none
  dpiLookup := fun _ world ↦ (⟨false, none⟩, world)
  updateL3ForwardHeaders := fun packet _ _ ↦ (false, packet)
  updateL2ForwardMacs := fun packet _ _ ↦ packet
  ringEnqueue := fun _ _ world ↦ (true, world)

/-- A worker on one port whose only rule drops TCP, with the policy `reclassify`. -/
def dropTcp : WorkerContext where
  rules := { RuleTable.tcpTable with
    groups := [{ name := "tcp", action := .kDrop, filters := [{ protocol := .kTcp }] }] }
  flowOverflowDrop := false
  activePorts := [0]
  portCount := 1
  portMacAddress := fun _ ↦ some 0

/-- The first burst of a worker: its flow table has eight free cells. -/
def emptyFlows : BurstState 8 PacketMetadata Unit where
  flowTable := .new 8 true
  world := ()

/-- A burst with a flow table that eight other flows have filled. -/
def fullFlows : BurstState 8 PacketMetadata Unit where
  flowTable := (List.range 8).foldl (fun t i ↦
    (t.insert { srcPort := BitVec.ofNat 16 (i + 1) } 1 .kForward 5 (some i)).2) (.new 8 true)
  world := ()

/-- With room in the flow table a TCP packet is dropped in both paths. -/
theorem drop_enforced_room :
    (forwardPacket dropTcp plainServices {} 0 emptyFlows).transmitBuffers =
        emptyFlows.transmitBuffers ∧
      (beforePacket dropTcp plainServices 0 [.mapped {} 0] ⟨[{}], [{}], [{}]⟩ emptyFlows
        1).transmitBuffers = emptyFlows.transmitBuffers := by
  have hroom (key : FlowKey) : ¬ emptyFlows.flowTable.Refuses key (some 0) := by
    rintro ⟨-, hfree | hocc⟩
    · cases hfree
    · cases hocc
  obtain ⟨hhash, hqueue⟩ := drop_enforced_iff dropTcp plainServices 0 emptyFlows
  constructor
  · refine (hhash {} {} {} false () rfl (by decide) (by decide) (by decide)).mpr ?_
    exact fun hleak ↦ hroom _ hleak.2.1.1
  · refine (hqueue [.mapped {} 0] ⟨[{}], [{}], [{}]⟩ 0 {} 0 rfl rfl (by decide)).mpr ?_
    exact fun hleak ↦ hroom _ hleak.1.1

/-- With a full flow table a TCP packet that the rules want dropped is enqueued, in both
paths. -/
theorem full_table_forwards_drop :
    (fullFlows.flowTable.lookup (makeCanonicalFromMetadata {}) 0).1 = none ∧
      (spiLookup plainServices dropTcp.rules {} (makeCanonicalFromMetadata {})).matched = true ∧
      (spiLookup plainServices dropTcp.rules {} (makeCanonicalFromMetadata {})).action = .kDrop ∧
      (forwardPacket dropTcp plainServices {} 0 fullFlows).transmitBuffers 0 = [{}] ∧
      (processPortBurst dropTcp plainServices 0 [{}] fullFlows).transmitBuffers 0 = [{}] := by
  decide +kernel

end DpdkSpi
