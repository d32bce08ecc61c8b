import DpdkSpi.Pipeline.Drop
import DpdkSpi.Pipeline.Single

/-!
# Two paths, one decision?

`ForwardPacket` in flow-hash mode and a burst of one packet in queue mode write the same decision
tree down twice.  They part in three places: a packet that does not parse, a verdict with a static
link that finds no room in the flow table, and a member set that excludes a packet the ACL has a
filter for.
-/

namespace DpdkSpi

variable {cap : Nat} {μ σ : Type}

/-! ## What became of a packet -/

/-- Where a packet ends up. -/
inductive PacketFate where
  | held
  | dropped
  | enqueued (port : BitVec 16)
deriving DecidableEq, Repr

/-- The fate of a packet, from the states around it. -/
def PacketFate.Between (st st' : BurstState cap μ σ) : PacketFate → Prop
  | .held => st'.transmitBuffers = st.transmitBuffers ∧ st'.freed = st.freed
  | .dropped => st'.transmitBuffers = st.transmitBuffers ∧
      ∃ packet, st'.freed = st.freed ++ [packet]
  | .enqueued port => st'.freed = st.freed ∧ ∃ packet,
      st'.transmitBuffers = (st.enqueuePacket packet port).transmitBuffers

/-- `ClassifyPacket`'s action and match, for a packet that parses. -/
def forwardVerdict (ctx : WorkerContext) (svc : Services μ σ) (packet : μ) (port : BitVec 16)
    (st : BurstState cap μ σ) : Option (Action × Bool) :=
  let classification := (classifyPacket ctx svc packet port st).1
  if classification.parsed then some (classification.action, classification.matched) else none

/-- The action and the match of the packet in a burst of one, if it parses. -/
def burstVerdict (ctx : WorkerContext) (svc : Services μ σ) (packet : μ)
    (st : BurstState cap μ σ) : Option (Action × Bool) :=
  let opened := openBurst ctx svc [packet] st
  match opened.1.1 with
  | [.mapped packet i] =>
      if (opened.1.2.bulkAt i).valid then some ((opened.1.2.bulkAt i).action, true)
      else
        let classification := (resolveMiss ctx svc packet (opened.1.2.metadataAt i)
          ((spiResults svc ctx.rules opened.1.2 opened.1.1).getD i {}) (opened.1.2.keyAt i)
          opened.2).1
        some (classification.action, classification.matched)
  | _ => none

/-- **Both paths decide alike**: the packet has the same fate, the same action and match, and
leaves the same flow table. -/
structure DecidedAlike (ctx : WorkerContext) (svc : Services μ σ) (packet : μ) (port : BitVec 16)
    (st : BurstState cap μ σ) : Prop where
  fate : ∃ fate : PacketFate, fate.Between st (forwardPacket ctx svc packet port st) ∧
    fate.Between st (processPortBurst ctx svc port [packet] st)
  verdict : forwardVerdict ctx svc packet port st = burstVerdict ctx svc packet st
  flowTable : (forwardPacket ctx svc packet port st).flowTable =
    (processPortBurst ctx svc port [packet] st).flowTable

/-! ## Where the paths part -/

/-- The packet belongs to another worker. -/
def Redispatches (ctx : WorkerContext) (svc : Services μ σ) (packet : μ) (port : BitVec 16)
    (world : σ) : Prop :=
  match (svc.parsePacketOwned packet ctx.currentBurstTsc world).1 with
  | .parsed _ packet wasReassembled => Redispatched ctx svc packet port wasReassembled
  | _ => False

/-- The packet does not parse, unmatched packets are forwarded, and it can be sent. -/
def MalformedForwarded (ctx : WorkerContext) (svc : Services μ σ) (packet : μ) (port : BitVec 16)
    (world : σ) : Prop :=
  match (svc.parsePacketOwned packet ctx.currentBurstTsc world).1 with
  | .malformed packet => ctx.dropUnmatched = false ∧ Transmittable ctx svc packet port {}
  | _ => False

/-- A cache miss whose group has a static link, while the flow table has no room for it and the
policy is to go on without. -/
def LinkedUncached (ctx : WorkerContext) (svc : Services μ σ) (packet : μ)
    (st : BurstState cap μ σ) : Prop :=
  match svc.parsePacketOwned packet ctx.currentBurstTsc st.world with
  | (.parsed metadata _ _, world) =>
      let key := makeCanonicalFromMetadata metadata
      let spiMatch := spiLookup svc ctx.rules metadata key
      st.flowTable.answer key = none ∧ spiMatch.matched = true ∧
        spiMatch.boundDpiFilterIndex ≠ kNoDpiLink ∧ Uncached ctx svc key { st with world }
  | _ => False

/-- A cache miss that the member set excludes although the ACL has a filter for it. -/
def FalselySkipped (ctx : WorkerContext) (svc : Services μ σ) (packet : μ)
    (st : BurstState cap μ σ) : Prop :=
  match (svc.parsePacketOwned packet ctx.currentBurstTsc st.world).1 with
  | .parsed metadata _ _ =>
      let key := makeCanonicalFromMetadata metadata
      st.flowTable.answer key = none ∧ ctx.rules.probeTss svc.dpdk key = kNoTssHit ∧
        ctx.rules.skips svc.dpdk metadata = true ∧
        ¬ ctx.rules.Unclassified svc.dpdk metadata ctx.rules.aclChunks
  | _ => False

/-! ## Behind a cache miss -/

section Miss

variable (ctx : WorkerContext) (svc : Services μ σ) (packet : μ) (metadata : PacketMetadata)
  (spiMatch : ClassificationResult) (key : FlowKey) (st : BurstState cap μ σ)

theorem classifyHostname_action :
    (classifyHostname ctx svc metadata spiMatch key st).1.matched = false →
      (classifyHostname ctx svc metadata spiMatch key st).1.action = .kForward := by
  unfold classifyHostname
  rcases matchDpi svc metadata st with ⟨_ | _, st₁⟩
  · exact fun _ ↦ rfl
  · dsimp only
    rcases st₁.insertFlow svc key _ with ⟨_ | _, st₂⟩
    · exact fun h ↦ Bool.noConfusion (h : true = false)
    · dsimp only
      split
      · exact fun h ↦ Bool.noConfusion (h : true = false)
      · exact fun _ ↦ rfl

theorem findHostname_action {verdict : DpiVerdict}
    (h : (findHostname ctx svc packet metadata st).1 = .inl verdict) :
    verdict.matched = false → verdict.action = .kForward := by
  have hdeferred : ∀ m : PacketMetadata, Sum.inl { metadata := m, deferSpiCache := true } =
      (.inl verdict : DpiVerdict ⊕ PacketMetadata) →
        verdict.matched = false → verdict.action = .kForward := by
    rintro m hm -
    rw [← Sum.inl.inj hm]
  have hdropped : Sum.inl { metadata, action := .kDrop, matched := true } =
      (.inl verdict : DpiVerdict ⊕ PacketMetadata) →
        verdict.matched = false → verdict.action = .kForward := by
    intro hm hmatched
    rw [← Sum.inl.inj hm] at hmatched
    cases hmatched
  unfold findHostname at h
  split at h
  · cases h
  · dsimp only at h
    split at h
    · exact hdeferred _ h
    · split at h
      · exact hdropped h
      · exact hdropped h
      · generalize setHostname metadata _ = found at h
        split at h
        · exact hdeferred _ h
        · cases h
      · generalize setHostname metadata _ = found at h
        split at h
        · exact hdeferred _ h
        · cases h
      · cases h

/-- `TryDpiClassify` leaves the action alone unless it decides. -/
theorem tryDpiClassify_action :
    (tryDpiClassify ctx svc packet metadata spiMatch key st).1.matched = false →
      (tryDpiClassify ctx svc packet metadata spiMatch key st).1.action = .kForward := by
  rw [tryDpiClassify]
  cases dpiRoute ctx metadata spiMatch with
  | disabled => exact fun _ ↦ rfl
  | skipped => exact fun _ ↦ rfl
  | linked =>
      unfold DpiRoute.run
      rcases st.insertFlow svc key spiMatch.action with ⟨_ | _, st'⟩
      · exact fun h ↦ Bool.noConfusion (h : true = false)
      · dsimp only
        split
        · exact fun h ↦ Bool.noConfusion (h : true = false)
        · exact fun _ ↦ rfl
  | inspected =>
      unfold DpiRoute.run
      rcases hfind : findHostname ctx svc packet metadata st with ⟨verdict | metadata', st'⟩
      · exact findHostname_action ctx svc packet metadata st (by rw [hfind])
      · exact classifyHostname_action ctx svc metadata' spiMatch key st'

/-- For a group with a static link `TryDpiClassify` does nothing, or what the link says. -/
theorem tryDpiClassify_linked (hmatched : spiMatch.matched = true)
    (hlinked : spiMatch.boundDpiFilterIndex ≠ kNoDpiLink) :
    (∃ f, tryDpiClassify ctx svc packet metadata spiMatch key st = ({ metadata }, st.count f)) ∨
      tryDpiClassify ctx svc packet metadata spiMatch key st =
        DpiRoute.linked.run ctx svc packet metadata spiMatch key st := by
  rw [tryDpiClassify]
  cases hroute : dpiRoute ctx metadata spiMatch with
  | disabled => exact .inl ⟨id, rfl⟩
  | skipped => exact .inl ⟨_, rfl⟩
  | linked => exact .inr rfl
  | inspected =>
      obtain ⟨-, -, -, hnot, -⟩ := dpiRoute_inspected_iff.mp hroute
      exact absurd ⟨hmatched, hlinked⟩ hnot

/-- What phase 3 does when `TryDpiClassify` has not decided is what `ClassifyPacket` does. -/
theorem resolveMiss_of_undecided {verdict : DpiVerdict} {s : BurstState cap μ σ}
    (hdpi : tryDpiClassify ctx svc packet metadata spiMatch key st = (verdict, s))
    (hmatched : verdict.matched = false) :
    resolveMiss ctx svc packet metadata spiMatch key st =
      if spiMatch.matched then
        if verdict.deferSpiCache then
          ({ metadata := verdict.metadata, action := spiMatch.action, parsed := true
             matched := true }, s.count fun c ↦ { c with matched := c.matched + 1 })
        else makeMatched ctx svc verdict.metadata spiMatch.action key s
      else
        ({ metadata := verdict.metadata, action := .kForward, parsed := true, matched := false },
          s.count fun c ↦ { c with unknown := c.unknown + 1 }) := by
  have haction : verdict.action = .kForward := by
    have h := tryDpiClassify_action ctx svc packet metadata spiMatch key st
    rw [hdpi] at h
    exact h hmatched
  unfold resolveMiss
  rw [hdpi]
  dsimp only
  rw [hmatched, haction]
  rfl

/-- A verdict that is cached, or dropped for want of room. -/
theorem makeMatched_of_cached (h : ¬ Uncached ctx svc key st) (action : Action) :
    ∃ result s, st.insertFlow svc key action = (result, s) ∧
      ((result = .kOk ∧ makeMatched ctx svc metadata action key st =
          ({ metadata, action, parsed := true, matched := true },
            s.count fun c ↦ { c with matched := c.matched + 1 })) ∨
        result = .kFull ∧ ctx.flowOverflowDrop = true ∧
          makeMatched ctx svc metadata action key st =
            ({ metadata, action := .kDrop, parsed := true, matched := true },
              (s.count fun c ↦ { c with flowTableFull := c.flowTableFull + 1 }).count
                fun c ↦ { c with matched := c.matched + 1 })) := by
  rcases hinsert : st.insertFlow svc key action with ⟨result, s⟩
  refine ⟨result, s, rfl, ?_⟩
  unfold makeMatched
  rw [hinsert]
  cases result with
  | kOk => exact .inl ⟨rfl, rfl⟩
  | kFull =>
      have hfull : st.flowTable.Refuses key (svc.insertChoice key st.world).1.2 :=
        (st.flowTable.insert_eq_kFull_iff key 1 action _ _).mp (congrArg Prod.fst hinsert)
      have hdrop : ctx.flowOverflowDrop = true := by
        by_contra hno
        exact h ⟨hfull, Bool.not_eq_true _ ▸ hno⟩
      refine .inr ⟨rfl, hdrop, ?_⟩
      dsimp only
      rw [if_pos hdrop]

/-- **Behind a cache miss both paths decide alike**, unless a linked verdict finds no room. -/
theorem classifyMiss_agree (h : ¬ (spiMatch.matched = true ∧
      spiMatch.boundDpiFilterIndex ≠ kNoDpiLink ∧ Uncached ctx svc key st)) :
    Agree Eq Eq (classifyMiss ctx svc packet metadata spiMatch key st)
      (resolveMiss ctx svc packet metadata spiMatch key st) := by
  unfold classifyMiss
  split
  · rename_i hlinked
    have hcached : ¬ Uncached ctx svc key st := fun hu ↦ h ⟨hlinked.1, hlinked.2, hu⟩
    obtain ⟨result, s, hinsert, hmake⟩ :=
      makeMatched_of_cached ctx svc metadata key st hcached spiMatch.action
    rw [hinsert]
    rcases tryDpiClassify_linked ctx svc packet metadata spiMatch key st hlinked.1 hlinked.2 with
      ⟨f, hdpi⟩ | hdpi
    · obtain ⟨result', s', hinsert', hmake'⟩ :=
        makeMatched_of_cached ctx svc metadata key (st.count f) hcached spiMatch.action
      have hsame : (st.count f).insertFlow svc key spiMatch.action = (result, s.count f) := by
        rw [Prod.ext_iff] at hinsert
        exact Prod.ext hinsert.1 (congrArg (·.count f) hinsert.2)
      obtain ⟨rfl, rfl⟩ := Prod.mk.inj (hsame.symm.trans hinsert')
      rw [resolveMiss_of_undecided ctx svc packet metadata spiMatch key st hdpi rfl,
        if_pos hlinked.1, if_neg Bool.false_ne_true]
      rcases hmake' with ⟨rfl, hmake'⟩ | ⟨rfl, hdrop, hmake'⟩
      · rw [hmake']
        exact ⟨_, _, _, rfl, rfl, rfl, rfl, rfl, rfl⟩
      · rw [hmake']
        dsimp only
        rw [if_pos hdrop]
        exact ⟨_, _, _, rfl, rfl, rfl, rfl, rfl, rfl⟩
    · rw [DpiRoute.run, hinsert] at hdpi
      unfold resolveMiss
      rw [hdpi]
      rcases hmake with ⟨rfl, -⟩ | ⟨rfl, hdrop, -⟩
      · exact ⟨_, _, _, rfl, rfl, rfl, rfl, rfl, rfl⟩
      · dsimp only
        rw [if_pos hdrop, if_pos hdrop]
        exact ⟨_, _, _, rfl, rfl, rfl, rfl, rfl, rfl⟩
  split
  · rename_i hdisabled
    have hdpi : tryDpiClassify ctx svc packet metadata spiMatch key st = ({ metadata }, st) := by
      unfold tryDpiClassify dpiRoute
      dsimp only
      rw [if_pos hdisabled]
      rfl
    rw [resolveMiss_of_undecided ctx svc packet metadata spiMatch key st hdpi rfl,
      if_neg Bool.false_ne_true]
    generalize (if spiMatch.matched = true then _ else _) = r
    exact ⟨r.1, r.2, r.2, rfl, rfl, rfl, rfl, rfl, rfl⟩
  · rcases hdpi : tryDpiClassify ctx svc packet metadata spiMatch key st with ⟨verdict, s⟩
    cases hmatched : verdict.matched with
    | true =>
        unfold resolveMiss
        rw [hdpi]
        dsimp only
        rw [if_pos hmatched, if_pos hmatched]
        exact ⟨_, _, _, rfl, rfl, rfl, rfl, rfl, rfl⟩
    | false =>
        rw [resolveMiss_of_undecided ctx svc packet metadata spiMatch key st hdpi hmatched]
        dsimp only
        rw [if_neg (by rw [hmatched]; exact Bool.false_ne_true)]
        generalize (if spiMatch.matched = true then _ else _) = r
        exact ⟨r.1, r.2, r.2, rfl, rfl, rfl, rfl, rfl, rfl⟩

/-- An insertion without room, as the state sees it. -/
theorem insertFlow_of_uncached (h : Uncached ctx svc key st) (action : Action) :
    ∃ s, st.insertFlow svc key action = (.kFull, s) ∧ s.flowTable.cellOf key = none := by
  have hfull := (st.flowTable.insert_eq_kFull_iff key 1 action
    (svc.insertChoice key st.world).1.1 (svc.insertChoice key st.world).1.2).mpr h.1
  exact ⟨_, Prod.ext hfull rfl, (FlowTable.cellOf_insert_eq_none_iff ..).mpr hfull⟩

/-- **A linked verdict without room**: flow-hash mode keeps it, queue mode forgets it or caches it
after all. -/
theorem linked_uncached (hmatched : spiMatch.matched = true)
    (hlinked : spiMatch.boundDpiFilterIndex ≠ kNoDpiLink) (h : Uncached ctx svc key st) :
    ((classifyMiss ctx svc packet metadata spiMatch key st).1.matched = true ∧
        (classifyMiss ctx svc packet metadata spiMatch key st).2.flowTable.cellOf key = none) ∧
      ((resolveMiss ctx svc packet metadata spiMatch key st).1.matched = false ∨
        (resolveMiss ctx svc packet metadata spiMatch key st).2.flowTable.cellOf key ≠ none) := by
  have hkeeps : ctx.flowOverflowDrop ≠ true := by rw [h.2]; exact Bool.false_ne_true
  -- what queue mode does with a verdict that `TryDpiClassify` has not decided
  have hmake : ∀ s : BurstState cap μ σ,
      (makeMatched ctx svc metadata spiMatch.action key s).1.matched = false ∨
        (makeMatched ctx svc metadata spiMatch.action key s).2.flowTable.cellOf key ≠ none := by
    intro s
    have hcell := FlowTable.cellOf_insert_eq_none_iff s.flowTable key 1 spiMatch.action
      (svc.insertChoice key s.world).1.1 (svc.insertChoice key s.world).1.2
    unfold makeMatched
    rcases hinsert : s.insertFlow svc key spiMatch.action with ⟨_ | _, s'⟩
    · obtain ⟨hok, hs⟩ := Prod.ext_iff.mp hinsert
      refine .inr fun (hnone : s'.flowTable.cellOf key = none) ↦ ?_
      rw [← show (s.insertFlow svc key spiMatch.action).2 = s' from hs] at hnone
      exact FlowInsertResult.noConfusion (hok.symm.trans (hcell.mp hnone))
    · dsimp only
      rw [if_neg hkeeps]
      exact .inl rfl
  obtain ⟨s, hinsert, hcell⟩ := insertFlow_of_uncached ctx svc key st h spiMatch.action
  constructor
  · unfold classifyMiss
    rw [if_pos ⟨hmatched, hlinked⟩, hinsert]
    dsimp only
    rw [if_neg hkeeps]
    exact ⟨rfl, hcell⟩
  · rcases tryDpiClassify_linked ctx svc packet metadata spiMatch key st hmatched hlinked with
      ⟨f, hdpi⟩ | hdpi
    · rw [resolveMiss_of_undecided ctx svc packet metadata spiMatch key st hdpi rfl,
        if_pos hmatched, if_neg Bool.false_ne_true]
      exact hmake _
    · rw [DpiRoute.run, hinsert] at hdpi
      dsimp only at hdpi
      rw [if_neg hkeeps] at hdpi
      rw [resolveMiss_of_undecided ctx svc packet metadata spiMatch key st hdpi rfl,
        if_pos hmatched, if_neg Bool.false_ne_true]
      exact hmake _

end Miss

/-! ## When both modes decide alike -/

/-- The decision and the fate of a packet are the same in coupled states. -/
theorem PacketFate.of_coupled {st st₁ st₂ : BurstState cap μ σ} (h : Coupled Eq Eq st₁ st₂)
    {fate : PacketFate} (hfate : fate.Between st st₁) : fate.Between st st₂ := by
  cases fate with
  | held => exact ⟨h.buffers ▸ hfate.1, h.freed ▸ hfate.2⟩
  | dropped => exact ⟨h.buffers ▸ hfate.1, h.freed ▸ hfate.2⟩
  | enqueued port => exact ⟨h.freed ▸ hfate.1, h.buffers ▸ hfate.2⟩

/-- Every packet that comes to the last stage has a fate. -/
theorem exists_fate_of_disposes {ctx : WorkerContext} {svc : Services μ σ} {packet : μ}
    {port : BitVec 16} {classification : PacketClassification} {st mid st' : BurstState cap μ σ}
    (hbuffers : mid.transmitBuffers = st.transmitBuffers) (hfreed : mid.freed = st.freed)
    (h : Disposes ctx svc packet port classification mid st') :
    ∃ fate : PacketFate, fate.Between st st' := by
  cases h with
  | byRule hmatched hst =>
      subst hst
      exact ⟨.dropped, hbuffers, packet, congrArg (· ++ [packet]) hfreed⟩
  | dropped hst =>
      subst hst
      exact ⟨.dropped, hbuffers, packet, congrArg (· ++ [packet]) hfreed⟩
  | stuck transmitPort hst =>
      subst hst
      exact ⟨.dropped, hbuffers, _, congrArg (· ++ [_]) hfreed⟩
  | enqueued transmitPort hport hlt hrewrite hst =>
      subst hst
      refine ⟨.enqueued transmitPort, hfreed,
        (prepareAndRewriteHeaders ctx svc transmitPort packet).2, ?_⟩
      rw [BurstState.enqueuePacket, BurstState.enqueuePacket, hbuffers]

section Alike

variable {ctx : WorkerContext} {svc : Services μ σ} {packet : μ} {port : BitVec 16}
  {st : BurstState cap μ σ} {world : σ}

/-- A fragment is held by both. -/
theorem decidedAlike_of_waiting
    (hparse : svc.parsePacketOwned packet ctx.currentBurstTsc st.world =
      (.waitingForFragments, world)) : DecidedAlike ctx svc packet port st := by
  obtain ⟨hopened, hcoupled⟩ := openBurst_waiting hparse
  have hclassify : classifyPacket ctx svc packet port st =
      ({ matched := true }, none, { st with world }) := by
    unfold classifyPacket
    rw [hparse]
  have hforward : forwardPacket ctx svc packet port st = { st with world } := by
    unfold forwardPacket
    rw [hclassify]
  have hburst : processPortBurst ctx svc port [packet] st = (openBurst ctx svc [packet] st).2 :=
    processPortBurst_one hopened
  have hfate : PacketFate.held.Between st { st with world } := ⟨rfl, rfl⟩
  refine ⟨⟨.held, ?_, ?_⟩, ?_, ?_⟩
  · rw [hforward]
    exact hfate
  · rw [hburst]
    exact PacketFate.of_coupled hcoupled hfate
  · simp only [forwardVerdict, hclassify, burstVerdict, hopened]
    rfl
  · rw [hforward, hburst, ← hcoupled.flowTable]

/-- A packet that does not parse is dropped by queue mode. -/
theorem decidedAlike_of_malformed_iff {packet' : μ}
    (hparse : svc.parsePacketOwned packet ctx.currentBurstTsc st.world =
      (.malformed packet', world)) :
    DecidedAlike ctx svc packet port st ↔
      ¬ (ctx.dropUnmatched = false ∧ Transmittable ctx svc packet' port {}) := by
  obtain ⟨hopened, hcoupled⟩ := openBurst_malformed hparse
  let counted := { st with world }.count fun c ↦ { c with malformed := c.malformed + 1 }
  have hclassify : classifyPacket ctx svc packet port st = ({}, some packet', counted) := by
    unfold classifyPacket
    rw [hparse]
  have hforward : forwardPacket ctx svc packet port st =
      applyForwardDecision ctx svc packet' port {} counted := by
    unfold forwardPacket
    rw [hclassify]
    rfl
  have hburst : processPortBurst ctx svc port [packet] st =
      (openBurst ctx svc [packet] st).2.dropPacket packet := processPortBurst_one hopened
  have hbuffers : (processPortBurst ctx svc port [packet] st).transmitBuffers =
      st.transmitBuffers := by
    rw [hburst]
    exact hcoupled.buffers.symm
  have hdisposes := applyForwardDecision_disposes ctx svc packet' port {} counted
  have hsent : (applyForwardDecision ctx svc packet' port {} counted).transmitBuffers =
      st.transmitBuffers ↔
        ¬ (ctx.dropUnmatched = false ∧ Transmittable ctx svc packet' port {}) := by
    refine (applyForwardDecision_transmitBuffers_eq_iff ctx svc packet' port {} counted).trans ?_
    cases ctx.dropUnmatched <;> simp
  rw [← hforward] at hdisposes hsent
  rw [← hsent]
  constructor
  · rintro ⟨⟨fate, hfate, hfate'⟩, -, -⟩
    cases fate with
    | held => exact hfate.1
    | dropped => exact hfate.1
    | enqueued transmitPort =>
        obtain ⟨-, packet'', hsame⟩ := hfate'
        exact absurd (hsame.symm.trans hbuffers) (st.enqueuePacket_transmitBuffers_ne _ _)
  · intro hsame
    have hdropped : PacketFate.dropped.Between st (forwardPacket ctx svc packet port st) ∧
        (forwardPacket ctx svc packet port st).flowTable = st.flowTable := by
      cases hdisposes with
      | byRule hmatched hst => cases hmatched
      | dropped hst =>
          rw [hst]
          exact ⟨⟨rfl, packet', rfl⟩, rfl⟩
      | stuck transmitPort hst =>
          rw [hst]
          exact ⟨⟨rfl, _, rfl⟩, rfl⟩
      | enqueued transmitPort hport hlt hrewrite hst =>
          rw [hst] at hsame
          exact absurd hsame (counted.enqueuePacket_transmitBuffers_ne _ _)
    refine ⟨⟨.dropped, hdropped.1, hbuffers, packet, ?_⟩, ?_, ?_⟩
    · rw [hburst]
      exact congrArg (· ++ [packet]) hcoupled.freed.symm
    · simp only [forwardVerdict, hclassify, burstVerdict, hopened]
      rfl
    · rw [hdropped.2, hburst]
      exact hcoupled.flowTable

/-- Two decisions about the same packet in coupled states. -/
theorem decidedAlike_of_coupled {packet' : μ} {classification : PacketClassification}
    {mid mid' : BurstState cap μ σ}
    (hforward : forwardPacket ctx svc packet port st =
      applyForwardDecision ctx svc packet' port classification mid)
    (hburst : processPortBurst ctx svc port [packet] st =
      applyForwardDecision ctx svc packet' port classification mid')
    (hcoupled : Coupled Eq Eq mid mid') (hbuffers : mid.transmitBuffers = st.transmitBuffers)
    (hfreed : mid.freed = st.freed)
    (hverdict : forwardVerdict ctx svc packet port st = burstVerdict ctx svc packet st) :
    DecidedAlike ctx svc packet port st := by
  have happly := hcoupled.applyForwardDecision ctx svc packet' port classification
  obtain ⟨fate, hfate⟩ := exists_fate_of_disposes hbuffers hfreed
    (applyForwardDecision_disposes ctx svc packet' port classification mid)
  refine ⟨⟨fate, ?_, ?_⟩, hverdict, ?_⟩
  · rw [hforward]
    exact hfate
  · rw [hburst]
    exact PacketFate.of_coupled happly hfate
  · rw [hforward, hburst]
    exact happly.flowTable

/-- The result of the rules is the same for both, unless the member set interferes. -/
theorem burstSpi_eq_spiLookup {rules : RuleTable} {metadata : PacketMetadata} {key : FlowKey}
    (h : ¬ (rules.probeTss svc.dpdk key = kNoTssHit ∧ rules.skips svc.dpdk metadata = true ∧
      ¬ rules.Unclassified svc.dpdk metadata rules.aclChunks)) :
    burstSpi svc rules metadata key = spiLookup svc rules metadata key := by
  unfold burstSpi spiLookup
  dsimp only
  split
  · rfl
  · rename_i htss
    split
    · rename_i hskips
      have hun : rules.Unclassified svc.dpdk metadata rules.aclChunks := by
        by_contra hun
        exact h ⟨not_not.mp htss, hskips, hun⟩
      exact ((rules.matchPacket_eq_default_iff svc.dpdk metadata).mpr hun).symm
    · rfl

/-- A packet whose flow is cached gets the cached verdict from both. -/
theorem decidedAlike_of_hit {packet' : μ} {metadata : PacketMetadata} {wasReassembled : Bool}
    (hparse : svc.parsePacketOwned packet ctx.currentBurstTsc st.world =
      (.parsed metadata packet' wasReassembled, world))
    (hhere : ¬ Redispatched ctx svc packet' port wasReassembled) {action : Action}
    (hhit : st.flowTable.answer (makeCanonicalFromMetadata metadata) = some action) :
    DecidedAlike ctx svc packet port st := by
  obtain ⟨hopened, hcoupled⟩ := openBurst_parsed hparse
  rw [hhit] at hopened
  let key := makeCanonicalFromMetadata metadata
  let flowTable := (st.flowTable.lookup key ctx.currentBurstTsc).2
  let mid := ({ { st with world }.count fun c ↦ { c with parsed := c.parsed + 1 } with
    flowTable }).count fun c ↦ { c with flowCacheHits := c.flowCacheHits + 1 }
  have hlookup : st.flowTable.lookup key ctx.currentBurstTsc = (some action, flowTable) :=
    Prod.ext ((st.flowTable.lookup_fst key _).trans hhit) rfl
  have hclassify : classifyPacket ctx svc packet port st =
      ({ metadata, action, parsed := true, matched := true }, some packet', mid) := by
    unfold classifyPacket
    rw [hparse]
    dsimp only
    rw [if_neg hhere, BurstState.count_flowTable, hlookup]
  have hforward : forwardPacket ctx svc packet port st = applyForwardDecision ctx svc packet' port
      { metadata, action, parsed := true, matched := true } mid := by
    unfold forwardPacket
    rw [hclassify]
    rfl
  refine decidedAlike_of_coupled hforward (processPortBurst_one hopened) ?_ rfl rfl ?_
  · exact ⟨hcoupled.flowTable, hcoupled.buffers, hcoupled.freed, hcoupled.world⟩
  · simp only [forwardVerdict, hclassify, burstVerdict, hopened]
    rfl

/-- Both paths on a cache miss, in terms of what they do behind it. -/
theorem miss_paths {packet' : μ} {metadata : PacketMetadata} {wasReassembled : Bool}
    (hparse : svc.parsePacketOwned packet ctx.currentBurstTsc st.world =
      (.parsed metadata packet' wasReassembled, world))
    (hhere : ¬ Redispatched ctx svc packet' port wasReassembled)
    (hmiss : st.flowTable.answer (makeCanonicalFromMetadata metadata) = none)
    {spiMatch : ClassificationResult} (hspi : spiLookup svc ctx.rules metadata
      (makeCanonicalFromMetadata metadata) = spiMatch)
    (hsame : burstSpi svc ctx.rules metadata (makeCanonicalFromMetadata metadata) = spiMatch) :
    ∃ mid mid' : BurstState cap μ σ, Coupled Eq Eq { st with world } mid ∧
      Coupled Eq Eq mid mid' ∧
      (let r := classifyMiss ctx svc packet' metadata spiMatch (makeCanonicalFromMetadata metadata)
          mid
       forwardPacket ctx svc packet port st = applyForwardDecision ctx svc packet' port r.1 r.2 ∧
         forwardVerdict ctx svc packet port st = some (r.1.action, r.1.matched)) ∧
      (let r := resolveMiss ctx svc packet' metadata spiMatch (makeCanonicalFromMetadata metadata)
          mid'
       processPortBurst ctx svc port [packet] st =
           applyForwardDecision ctx svc packet' port r.1 r.2 ∧
         burstVerdict ctx svc packet st = some (r.1.action, r.1.matched)) := by
  obtain ⟨hopened, hcoupled⟩ := openBurst_parsed hparse
  have hlookup : (st.flowTable.lookup (makeCanonicalFromMetadata metadata)
      ctx.currentBurstTsc).1 = none := (st.flowTable.lookup_fst _ _).trans hmiss
  rw [FlowTable.lookup_of_miss hlookup] at hcoupled
  obtain ⟨f, hclassify⟩ := classifyPacket_of_miss hparse hhere hlookup
  rw [hmiss] at hopened
  have hresult := spiResults_one svc ctx.rules packet' metadata (makeCanonicalFromMetadata metadata)
  rw [hsame] at hresult
  dsimp only at hclassify
  rw [hspi] at hclassify
  refine ⟨{ st with world }.count f, (openBurst ctx svc [packet] st).2, ⟨rfl, rfl, rfl, rfl⟩,
    ⟨hcoupled.flowTable, hcoupled.buffers, hcoupled.freed, hcoupled.world⟩, ⟨?_, ?_⟩, ?_, ?_⟩
  · obtain ⟨-, hno⟩ := classifyMiss_decides ctx svc packet' metadata spiMatch
      (makeCanonicalFromMetadata metadata) ({ st with world }.count f)
    unfold forwardPacket
    rw [hclassify]
    dsimp only
    rw [if_neg (by rw [hno]; exact Bool.false_ne_true)]
  · unfold forwardVerdict
    rw [hclassify]
    exact if_pos (classifyMiss_decides ..).1
  · rw [processPortBurst_one hopened, ← hresult]
    rfl
  · simp only [burstVerdict, hopened]
    rw [← hresult]
    rfl

/-- A cache miss is decided alike unless a linked verdict finds no room. -/
theorem decidedAlike_of_miss_iff {packet' : μ} {metadata : PacketMetadata} {wasReassembled : Bool}
    (hparse : svc.parsePacketOwned packet ctx.currentBurstTsc st.world =
      (.parsed metadata packet' wasReassembled, world))
    (hhere : ¬ Redispatched ctx svc packet' port wasReassembled)
    (hmiss : st.flowTable.answer (makeCanonicalFromMetadata metadata) = none)
    {spiMatch : ClassificationResult} (hspi : spiLookup svc ctx.rules metadata
      (makeCanonicalFromMetadata metadata) = spiMatch)
    (hsame : burstSpi svc ctx.rules metadata (makeCanonicalFromMetadata metadata) = spiMatch) :
    DecidedAlike ctx svc packet port st ↔
      ¬ (spiMatch.matched = true ∧ spiMatch.boundDpiFilterIndex ≠ kNoDpiLink ∧
        Uncached ctx svc (makeCanonicalFromMetadata metadata) { st with world }) := by
  obtain ⟨mid, mid', hstart, hmid, ⟨hforward, hverdict⟩, hburst, hverdict'⟩ :=
    miss_paths hparse hhere hmiss hspi hsame
  have huncached : Uncached ctx svc (makeCanonicalFromMetadata metadata) { st with world } ↔
      Uncached ctx svc (makeCanonicalFromMetadata metadata) mid := by
    unfold Uncached
    rw [hstart.flowTable, hstart.world]
  obtain ⟨c, s, s', hqueue, hqueue', hs⟩ := hmid.resolveMiss
    (svc.respects_eq.couples insertsRespect_eq (makeCanonicalFromMetadata metadata)) ctx packet'
    metadata spiMatch
  rw [hqueue'] at hburst hverdict'
  rw [huncached]
  constructor
  · rintro ⟨-, hsamev, htable⟩ ⟨hmatched, hlinked, hu⟩
    obtain ⟨⟨hkept, hcell⟩, hlost⟩ := linked_uncached ctx svc packet' metadata spiMatch
      (makeCanonicalFromMetadata metadata) mid hmatched hlinked hu
    rw [hqueue] at hlost
    rw [hverdict, hverdict', hkept, Option.some_inj, Prod.mk.injEq] at hsamev
    rw [hforward, hburst, (applyForwardDecision_frame ..).1, (applyForwardDecision_frame ..).1]
      at htable
    rcases hlost with hlost | hlost
    · exact Bool.false_ne_true (hlost.symm.trans hsamev.2.symm)
    · refine hlost ?_
      dsimp only at htable ⊢
      rw [hs.flowTable, ← htable]
      exact hcell
  · intro h
    obtain ⟨c', s₁, s₂, hhash, hqueue₂, hs₂⟩ := classifyMiss_agree ctx svc packet' metadata spiMatch
      (makeCanonicalFromMetadata metadata) mid h
    obtain ⟨rfl, rfl⟩ := Prod.mk.inj (hqueue.symm.trans hqueue₂)
    have hclassifies := classifyMiss_classifies ctx svc packet' metadata spiMatch
      (makeCanonicalFromMetadata metadata) mid
    rw [hhash] at hforward hverdict hclassifies
    refine decidedAlike_of_coupled hforward hburst ?_ ?_ ?_ (hverdict.trans hverdict'.symm)
    · exact ⟨hs₂.flowTable.trans hs.flowTable, hs₂.buffers.trans hs.buffers,
        hs₂.freed.trans hs.freed, hs₂.world.trans hs.world⟩
    · exact hclassifies.buffers.trans hstart.buffers.symm
    · exact hclassifies.freed.trans hstart.freed.symm

end Alike

/-- **When both modes decide alike.**  A packet that belongs to this worker, and that the member
set does not exclude from a filter of its own, has the same fate, the same action and match and
the same flow table behind it in flow-hash mode and in a burst of one, exactly when it is not a
malformed packet that can be sent, and not a cache miss with a static link that finds no room in
the flow table under the policy `reclassify`. -/
theorem modes_decide_alike_iff (ctx : WorkerContext) (svc : Services μ σ) (packet : μ)
    (port : BitVec 16) (st : BurstState cap μ σ)
    (hhere : ¬ Redispatches ctx svc packet port st.world)
    (hskip : ¬ FalselySkipped ctx svc packet st) :
    DecidedAlike ctx svc packet port st ↔
      ¬ MalformedForwarded ctx svc packet port st.world ∧ ¬ LinkedUncached ctx svc packet st := by
  unfold Redispatches at hhere
  unfold FalselySkipped at hskip
  unfold MalformedForwarded LinkedUncached
  rcases hparse : svc.parsePacketOwned packet ctx.currentBurstTsc st.world with
    ⟨⟨metadata, packet', wasReassembled⟩ | _ | packet', world⟩
  · rw [hparse] at hhere hskip
    dsimp only at hhere hskip ⊢
    rw [and_iff_right not_false]
    cases hanswer : st.flowTable.answer (makeCanonicalFromMetadata metadata) with
    | some action =>
        exact iff_of_true (decidedAlike_of_hit hparse hhere hanswer) fun h ↦
          Option.some_ne_none action h.1
    | none =>
        have hsame := burstSpi_eq_spiLookup fun h ↦ hskip ⟨hanswer, h⟩
        rw [and_iff_right rfl]
        exact decidedAlike_of_miss_iff hparse hhere hanswer rfl hsame
  · exact iff_of_true (decidedAlike_of_waiting hparse) ⟨not_false, not_false⟩
  · rw [decidedAlike_of_malformed_iff hparse]
    exact (and_iff_left not_false).symm

/-- A TCP packet with room in the flow table is dropped by both. -/
theorem modes_decide_alike_room :
    DecidedAlike dropTcp plainServices {} 0 emptyFlows ∧
      forwardVerdict dropTcp plainServices {} 0 emptyFlows = some (.kDrop, true) := by
  have hhere : ¬ Redispatches dropTcp plainServices ({} : PacketMetadata) 0 emptyFlows.world :=
    fun h ↦ Bool.false_ne_true h.1
  have hskip : ¬ FalselySkipped dropTcp plainServices ({} : PacketMetadata) emptyFlows :=
    fun h ↦ Bool.false_ne_true h.2.2.1
  refine ⟨(modes_decide_alike_iff dropTcp plainServices {} 0 emptyFlows hhere hskip).mpr
    ⟨not_false, fun h ↦ ?_⟩, by decide +kernel⟩
  exact h.2.2.1 (by decide +kernel)

/-- `plainServices` on frames that do not parse. -/
def brokenServices : Services PacketMetadata Unit :=
  { plainServices with parsePacketOwned := fun packet _ world ↦ (.malformed packet, world) }

/-- `dropTcp` with a static link. -/
def dropLinked : WorkerContext :=
  { dropTcp with
    rules := { RuleTable.tcpTable with
      groups := [{ name := "tcp", action := .kDrop, boundDpiFilterIndex := 0
                   filters := [{ protocol := .kTcp }] }] } }

/-- A frame that does not parse is sent in flow-hash mode and dropped in queue mode; a linked drop
verdict that finds no room holds in flow-hash mode and is forgotten in queue mode. -/
theorem modes_part :
    ((forwardPacket dropTcp brokenServices {} 0 emptyFlows).transmitBuffers 0 = [{}] ∧
        (processPortBurst dropTcp brokenServices 0 [{}] emptyFlows).transmitBuffers 0 = [] ∧
        ¬ DecidedAlike dropTcp brokenServices {} 0 emptyFlows) ∧
      forwardVerdict dropLinked plainServices {} 0 fullFlows = some (.kDrop, true) ∧
      burstVerdict dropLinked plainServices {} fullFlows = some (.kForward, false) ∧
      ¬ DecidedAlike dropLinked plainServices {} 0 fullFlows := by
  have hsent : (forwardPacket dropTcp brokenServices {} 0 emptyFlows).transmitBuffers 0 = [{}] := by
    decide +kernel
  have hfreed : (processPortBurst dropTcp brokenServices 0 [{}] emptyFlows).freed = [{}] := by
    decide +kernel
  have hkept : forwardVerdict dropLinked plainServices {} 0 fullFlows = some (.kDrop, true) := by
    decide +kernel
  have hlost : burstVerdict dropLinked plainServices {} fullFlows = some (.kForward, false) := by
    decide +kernel
  refine ⟨⟨hsent, by decide +kernel, ?_⟩, hkept, hlost, ?_⟩
  · rintro ⟨⟨fate, hfate, hfate'⟩, -, -⟩
    cases fate with
    | held => exact List.cons_ne_nil _ _ (hsent.symm.trans (congrFun hfate.1 0))
    | dropped => exact List.cons_ne_nil _ _ (hsent.symm.trans (congrFun hfate.1 0))
    | enqueued port => exact List.cons_ne_nil _ _ (hfreed.symm.trans hfate'.1)
  · rintro ⟨-, hverdict, -⟩
    rw [hkept, hlost] at hverdict
    cases hverdict

end DpdkSpi
