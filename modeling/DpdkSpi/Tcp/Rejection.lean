import DpdkSpi.Pipeline.Classify
import DpdkSpi.Tcp.Overlap

/-!
# After a conflict

`Insert` answers a conflict by erasing the stream, and keeps nothing that would tell the next
segment of the connection from the first one of a new connection.  So a connection stays
rejected exactly as long as its segments are refused by what they come upon, and that is nothing,
unless the connection has another stream.
-/

namespace DpdkSpi

open Lib TcpStreamReassembler

/-! ## Segments that are refused -/

/-- The segments follow each other, the first one at a place. -/
def Consecutive : BitVec 32 → List PendingSegment → Prop
  | _, [] => True
  | place, p :: ps =>
      p.sequence = place ∧ Consecutive (place + BitVec.ofNat 32 p.payload.length) ps

/-- The contiguous part, with some of the pending segments that follow it, passes the limit. -/
def DirectionState.Overfills (limit : Nat) (d : DirectionState) : Prop :=
  ∃ taken : List PendingSegment, taken.Nodup ∧ taken ⊆ d.pending ∧
    Consecutive d.nextSequence taken ∧
    limit < d.contiguous.length + (taken.map fun p ↦ p.payload.length).sum

/-- The first segment that is taken is the one that draining takes. -/
theorem DirectionState.overfills_iff_round {limit : Nat} {d : DirectionState} (hd : d.Distinct)
    (hle : d.contiguous.length ≤ limit) {p : PendingSegment} {before after : List PendingSegment}
    (hpending : d.pending = before ++ p :: after) (hp : p.sequence = d.nextSequence) :
    d.Overfills limit ↔
      ({ d.extend p.payload with pending := before ++ after } : DirectionState).Overfills
        limit := by
  have hmem := fun q ↦ DirectionState.mem_pending_iff (q := q) hpending
  obtain ⟨-, hother⟩ := hd.round hpending
  constructor
  · rintro ⟨taken, hnodup, hsub, hconsecutive, hlt⟩
    cases taken with
    | nil =>
        rw [List.map_nil, List.sum_nil] at hlt
        omega
    | cons q taken =>
        obtain ⟨hq, hconsecutive⟩ := hconsecutive
        obtain ⟨hnot, hnodup⟩ := List.nodup_cons.mp hnodup
        obtain rfl : q = p :=
          hd.eq (hsub List.mem_cons_self) ((hmem p).mpr (.inl rfl)) (hq.trans hp.symm)
        refine ⟨taken, hnodup, fun s hs ↦ ?_, hconsecutive, ?_⟩
        · rcases (hmem s).mp (hsub (List.mem_cons_of_mem q hs)) with rfl | hs'
          · exact absurd hs hnot
          · exact hs'
        · rw [List.map_cons, List.sum_cons] at hlt
          dsimp only [DirectionState.extend]
          rw [List.length_append]
          omega
  · rintro ⟨taken, hnodup, hsub, hconsecutive, hlt⟩
    refine ⟨p :: taken, List.nodup_cons.mpr ⟨fun hs ↦ hother p (hsub hs) rfl, hnodup⟩, ?_,
      ⟨hp, hconsecutive⟩, ?_⟩
    · intro s hs
      rcases List.mem_cons.mp hs with rfl | hs
      · exact (hmem s).mpr (.inl rfl)
      · exact (hmem s).mpr (.inr (hsub hs))
    · dsimp only [DirectionState.extend] at hlt
      rw [List.length_append] at hlt
      rw [List.map_cons, List.sum_cons]
      omega

/-- Draining ends with an error exactly where it would pass the limit. -/
theorem Drains.resourceLimit_iff {limit : Nat} {d d' : DirectionState}
    {status : TcpReassemblyStatus} (h : Drains limit d status d') (hd : d.Distinct)
    (hle : d.contiguous.length ≤ limit) : status = .kResourceLimit ↔ d.Overfills limit := by
  induction h with
  | done hnone =>
      refine iff_of_false (fun h ↦ by cases h) ?_
      rintro ⟨_ | ⟨q, taken⟩, -, hsub, hconsecutive, hlt⟩
      · rw [List.map_nil, List.sum_nil] at hlt
        omega
      · exact hnone q (hsub List.mem_cons_self) hconsecutive.1
  | @full d p hmem hp hfull =>
      refine iff_of_true rfl ⟨[p], List.nodup_singleton p, ?_, ⟨hp, trivial⟩, ?_⟩
      · intro q hq
        rw [List.mem_singleton.mp hq]
        exact hmem
      · simpa using hfull
  | take hpending hp hroom _ ih =>
      rw [DirectionState.overfills_iff_round hd hle hpending hp]
      refine ih (hd.round hpending).1 ?_
      simpa [DirectionState.extend] using hroom

/-- A segment that there is no room for. -/
def DirectionState.NoRoomFor (env : ReassemblerSetup) (bufferedBytes : Nat) (d : DirectionState)
    (sequence : BitVec 32) (payload : List Byte) : Prop :=
  (route env d sequence payload = .queue ∧
      (env.config.maxOutOfOrderSegments.toNat ≤ d.pending.length ∨
        hasCapacity env bufferedBytes payload.length = false)) ∨
    ∃ start bytes, route env d sequence payload = .append start bytes ∧
      (hasCapacity env bufferedBytes bytes.length = false ∨
        (start.extend bytes).Overfills env.config.maxBufferedBytesPerDirection.toNat)

theorem Outcome.resourceLimit_iff {env : ReassemblerSetup} {b b' : Nat} {d d' : DirectionState}
    {sequence : BitVec 32} {payload : List Byte} {status : TcpReassemblyStatus}
    (h : Outcome env b d sequence payload status d' b') (hd : d.Distinct) :
    status = .kResourceLimit ↔ d.NoRoomFor env b sequence payload := by
  unfold DirectionState.NoRoomFor
  cases hroute : route env d sequence payload with
  | ignore =>
      rw [(h.of_ignore hroute).1]
      simp
  | reject =>
      rw [(h.of_reject hroute).1]
      simp
  | queue =>
      rcases h.of_queue hroute with ⟨hfull, rfl, -⟩ | ⟨hroom, hcapacity, hcases⟩
      · exact iff_of_true rfl (.inl ⟨rfl, hfull⟩)
      · refine iff_of_false ?_ ?_
        · rcases hcases with ⟨-, -, -, -, rfl, -⟩ | ⟨-, -, -, -, rfl, -⟩ | ⟨-, rfl, -⟩
          · exact fun h ↦ by cases h
          · exact fun h ↦ by cases h
          · exact fun h ↦ by cases h
        · rintro (⟨-, hfull | hfull⟩ | ⟨start, bytes, happend, -⟩)
          · exact absurd hroom (not_lt.mpr hfull)
          · cases hcapacity.symm.trans hfull
          · cases happend
  | append start bytes =>
      have happends := route_append hroute
      have hdistinct : (start.extend bytes).Distinct := by
        rw [DirectionState.Distinct, DirectionState.extend, happends.pending_eq]
        exact hd
      have hiff : (Route.append start bytes = .queue ∧
            (env.config.maxOutOfOrderSegments.toNat ≤ d.pending.length ∨
              hasCapacity env b payload.length = false)) ∨
          (∃ start' bytes', Route.append start bytes = .append start' bytes' ∧
            (hasCapacity env b bytes'.length = false ∨ (start'.extend bytes').Overfills
              env.config.maxBufferedBytesPerDirection.toNat)) ↔
          hasCapacity env b bytes.length = false ∨
            (start.extend bytes).Overfills env.config.maxBufferedBytesPerDirection.toNat := by
        constructor
        · rintro (⟨hqueue, -⟩ | ⟨start', bytes', happend, hfull⟩)
          · cases hqueue
          · obtain ⟨rfl, rfl⟩ := Route.append.inj happend
            exact hfull
        · exact fun hfull ↦ .inr ⟨start, bytes, rfl, hfull⟩
      rw [hiff]
      rcases h.of_append hroute with ⟨hfull, rfl, -⟩ | ⟨hcapacity, hroom, hdrains, -⟩
      · refine iff_of_true rfl (hfull.imp_right fun hlt ↦ ?_)
        exact ⟨[], List.nodup_nil, List.nil_subset _, trivial,
          by simpa [DirectionState.extend] using hlt⟩
      · rw [hdrains.resourceLimit_iff hdistinct (by simpa [DirectionState.extend] using hroom),
          hcapacity]
        simp

/-- A segment that leads to an error. -/
def DirectionState.Refuses (env : ReassemblerSetup) (bufferedBytes : Nat) (d : DirectionState)
    (sequence : BitVec 32) (payload : List Byte) : Prop :=
  d.Conflicts env bufferedBytes sequence payload ∨ d.NoRoomFor env bufferedBytes sequence payload

theorem Outcome.isError_iff {env : ReassemblerSetup} {b b' : Nat} {d d' : DirectionState}
    {sequence : BitVec 32} {payload : List Byte} {status : TcpReassemblyStatus}
    (h : Outcome env b d sequence payload status d' b') (hd : d.Distinct) :
    status.isError = true ↔ d.Refuses env b sequence payload := by
  rw [DirectionState.Refuses, ← h.conflicts_iff hd, ← h.resourceLimit_iff hd]
  cases status <;> simp [TcpReassemblyStatus.isError]

/-- A segment that is refused by the direction that `Insert` comes upon, or for which the table has
no room. -/
def RefusedByFound (env : ReassemblerSetup) (r : TcpStreamReassembler) (metadata : PacketMetadata)
    (payload : List Byte) (now : BitVec 64) : Prop :=
  (r.purgeExpired env now).streamTableFull env (makeKey metadata).1 = true ∨
    (r.working env metadata now).Refuses env (r.purgeExpired env now).bufferedBytes
      (dataSequence metadata) payload

theorem insert_isError_iff {env : ReassemblerSetup} {r : TcpStreamReassembler}
    (h : r.Everywhere fun _ _ d ↦ d.Distinct) {metadata : PacketMetadata}
    (hinspects : Inspects env metadata) (payload : List Byte) (now : BitVec 64) :
    (r.insert env metadata payload now).1.status.isError = true ↔
      RefusedByFound env r metadata payload now := by
  have hdistinct : (r.working env metadata now).Distinct :=
    h.working (fun _ _ ↦ List.nodup_nil) metadata now
  obtain ⟨result, r', hinsert, hinsertion⟩ := exists_insertion env r metadata payload now
  simp only [hinsert]
  unfold RefusedByFound
  cases hinsertion with
  | skipped hskip => exact absurd hinspects hskip
  | refused _ hfull => exact iff_of_true rfl (.inl hfull)
  | failed _ hfull houtcome _ =>
      rw [hfull, houtcome.isError_iff hdistinct]
      simp
  | kept _ hfull houtcome _ =>
      rw [hfull, houtcome.isError_iff hdistinct]
      simp

/-! ## The first segment of a stream -/

/-- A segment that an empty direction has no room for. -/
def RefusedEmpty (env : ReassemblerSetup) (bufferedBytes : Nat) (payload : List Byte) : Prop :=
  hasCapacity env bufferedBytes payload.length = false ∨
    (isStreamStart payload = true ∧
      env.config.maxBufferedBytesPerDirection.toNat < payload.length) ∨
    (isStreamStart payload = false ∧ env.config.maxOutOfOrderSegments.toNat = 0)

theorem Outcome.isError_iff_of_empty {env : ReassemblerSetup} {b b' : Nat} {d' : DirectionState}
    {sequence : BitVec 32} {payload : List Byte} {status : TcpReassemblyStatus}
    (h : Outcome env b {} sequence payload status d' b') (hpayload : payload ≠ []) :
    status.isError = true ↔ RefusedEmpty env b payload := by
  unfold RefusedEmpty
  cases hstart : isStreamStart payload with
  | true =>
      rcases h.of_append (route_start hpayload rfl hstart) with
        ⟨hfull, rfl, -⟩ | ⟨hcapacity, hroom, hdrains, -⟩
      · refine iff_of_true rfl ?_
        rcases hfull with hfull | hfull
        · exact .inl hfull
        · exact .inr (.inl ⟨rfl, by simpa [DirectionState.withBase] using hfull⟩)
      · rw [(hdrains.of_none fun p hp ↦ absurd hp List.not_mem_nil).1, hcapacity]
        have hroom' : payload.length ≤ env.config.maxBufferedBytesPerDirection.toNat := by
          simpa [DirectionState.withBase] using hroom
        refine iff_of_false Bool.false_ne_true ?_
        rintro (hcap | ⟨-, hlt⟩ | ⟨hother, -⟩)
        · cases hcap
        · exact absurd hroom' (not_le.mpr hlt)
        · cases hother
  | false =>
      have hroute : route env {} sequence payload = .queue :=
        route_queue_iff.mpr ⟨hpayload, fun _ ↦ hstart, fun h ↦ absurd h Bool.false_ne_true⟩
      rcases h.of_queue hroute with
        ⟨hfull, rfl, -⟩ | ⟨hroom, hcapacity, hcases⟩
      · refine iff_of_true rfl ?_
        rcases hfull with hfull | hfull
        · exact .inr (.inr ⟨rfl, Nat.le_zero.mp hfull⟩)
        · exact .inl hfull
      · have hstatus : status = .kWaiting := by
          rcases hcases with ⟨p, hmem, -⟩ | ⟨p, hmem, -⟩ | ⟨-, hs, -⟩
          · exact absurd hmem List.not_mem_nil
          · exact absurd hmem List.not_mem_nil
          · exact hs
        rw [hstatus, hcapacity]
        refine iff_of_false Bool.false_ne_true ?_
        rintro (hcap | ⟨hother, -⟩ | ⟨-, hzero⟩)
        · cases hcap
        · cases hother
        · exact absurd hroom (by rw [hzero]; exact Nat.not_lt_zero _)

/-! ## Connections without history -/

/-- The streams of the connection hold nothing, if it has any. -/
def Blank (key : StreamKey) (r : TcpStreamReassembler) : Prop :=
  ∀ place state, place.key = key → r.streams.lookup place = some state →
    ∀ i, state.directions i = {}

theorem TcpStreamReassembler.NoStream.blank {r : TcpStreamReassembler} {key : StreamKey}
    (h : r.NoStream key) : Blank key r := by
  intro place state hplace hlookup
  cases (h place hplace).symm.trans hlookup

section

variable {env : ReassemblerSetup} {r : TcpStreamReassembler} {key : StreamKey}

theorem Blank.purgeExpired (h : Blank key r) (now : BitVec 64) :
    Blank key (r.purgeExpired env now) :=
  fun place state hplace hlookup ↦ h place state hplace (lookup_of_purgeExpired hlookup)

theorem Blank.workingStream {metadata : PacketMetadata} (h : Blank (makeKey metadata).1 r)
    (now : BitVec 64) (i : Fin 2) : (r.workingStream env metadata now).directions i = {} := by
  rw [TcpStreamReassembler.workingStream, TcpStreamReassembler.streamAt]
  cases hlookup : (r.purgeExpired env now).streams.lookup (workingPlace env r metadata now) with
  | none => rfl
  | some state => exact h.purgeExpired now _ state (key_workingPlace env r metadata now) hlookup i

theorem Blank.working {metadata : PacketMetadata} (h : Blank (makeKey metadata).1 r)
    (now : BitVec 64) : r.working env metadata now = {} :=
  h.workingStream now _

/-- After an error it still holds nothing. -/
theorem Blank.insert_isError {metadata : PacketMetadata} {payload : List Byte} {now : BitVec 64}
    (h : Blank (makeKey metadata).1 r)
    (herror : (r.insert env metadata payload now).1.status.isError = true) :
    Blank (makeKey metadata).1 (r.insert env metadata payload now).2 := by
  intro place state hplace hlookup i
  rcases (insertion_insert env r metadata payload now).lookup_cases hlookup with
    ⟨-, hold⟩ | ⟨-, -, hold⟩ | ⟨-, -, d, b, -, hok, -⟩
  · exact h place state hplace hold i
  · exact h.purgeExpired now place state hplace hold i
  · cases herror.symm.trans hok

end

/-- A segment that would be refused as the first one of a new stream. -/
def RefusedAsNew (env : ReassemblerSetup) (r : TcpStreamReassembler) (metadata : PacketMetadata)
    (payload : List Byte) (now : BitVec 64) : Prop :=
  (r.purgeExpired env now).streamTableFull env (makeKey metadata).1 = true ∨
    RefusedEmpty env (r.purgeExpired env now).bufferedBytes payload

theorem Blank.insert_isError_iff {env : ReassemblerSetup} {r : TcpStreamReassembler}
    {metadata : PacketMetadata} {payload : List Byte} (h : Blank (makeKey metadata).1 r)
    (hinspects : Inspects env metadata) (hpayload : payload ≠ []) (now : BitVec 64) :
    (r.insert env metadata payload now).1.status.isError = true ↔
      RefusedAsNew env r metadata payload now := by
  obtain ⟨result, r', hinsert, hinsertion⟩ := exists_insertion env r metadata payload now
  simp only [hinsert]
  unfold RefusedAsNew
  cases hinsertion with
  | skipped hskip => exact absurd hinspects hskip
  | refused _ hfull => exact iff_of_true rfl (.inl hfull)
  | failed _ hfull houtcome _ =>
      rw [h.working now] at houtcome
      rw [hfull, houtcome.isError_iff_of_empty hpayload]
      simp
  | kept _ hfull houtcome _ =>
      rw [h.working now] at houtcome
      rw [hfull, houtcome.isError_iff_of_empty hpayload]
      simp

/-- A segment without bytes leaves the connection without history. -/
theorem Blank.insert_nil {env : ReassemblerSetup} {r : TcpStreamReassembler}
    {metadata : PacketMetadata} (h : Blank (makeKey metadata).1 r) (now : BitVec 64) :
    Blank (makeKey metadata).1 (r.insert env metadata [] now).2 := by
  intro place state hplace hlookup i
  rcases (insertion_insert env r metadata [] now).lookup_cases hlookup with
    ⟨-, hold⟩ | ⟨-, -, hold⟩ | ⟨-, -, d, b, houtcome, -, -, rfl⟩
  · exact h place state hplace hold i
  · exact h.purgeExpired now place state hplace hold i
  · rw [h.working now] at houtcome
    by_cases hi : i = (makeKey metadata).2
    · rw [hi, stored_self]
      exact (houtcome.of_ignore rfl).2.1
    · rw [stored_of_ne hi]
      exact h.workingStream now i

/-- Packets of other connections, and packets that are not for the reassembler, leave the
connection without history. -/
theorem Blank.insert_other {env : ReassemblerSetup} {r : TcpStreamReassembler} {key : StreamKey}
    {metadata : PacketMetadata} (h : Blank key r)
    (hother : ¬Inspects env metadata ∨ (makeKey metadata).1 ≠ key) (payload : List Byte)
    (now : BitVec 64) : Blank key (r.insert env metadata payload now).2 := by
  intro place state hplace hlookup
  rcases (insertion_insert env r metadata payload now).lookup_cases hlookup with
    ⟨-, hold⟩ | ⟨-, -, hold⟩ | ⟨hinspects, rfl, -⟩
  · exact h place state hplace hold
  · exact h.purgeExpired now place state hplace hold
  · rcases hother with hskip | hne
    · exact absurd hinspects hskip
    · exact absurd ((key_workingPlace env r metadata now).symm.trans hplace) hne

/-! ## The rest of the run -/

/-- A segment of the connection, with some bytes, leads to an error. -/
def Rejects (env : ReassemblerSetup) (key : StreamKey) :
    TcpStreamReassembler → ReassemblerOp → Prop
  | r, .insert metadata payload now => Inspects env metadata → (makeKey metadata).1 = key →
      payload ≠ [] → (r.insert env metadata payload now).1.status.isError = true
  | _, .purge _ => True

/-- A segment of the connection, with some bytes, is refused by what it comes upon. -/
def RefusesFound (env : ReassemblerSetup) (key : StreamKey) :
    TcpStreamReassembler → ReassemblerOp → Prop
  | r, .insert metadata payload now => Inspects env metadata → (makeKey metadata).1 = key →
      payload ≠ [] → RefusedByFound env r metadata payload now
  | _, .purge _ => True

theorem rejects_iff {env : ReassemblerSetup} {r : TcpStreamReassembler}
    (h : r.Everywhere fun _ _ d ↦ d.Distinct) (key : StreamKey) (op : ReassemblerOp) :
    Rejects env key r op ↔ RefusesFound env key r op := by
  cases op with
  | purge now => exact Iff.rfl
  | insert metadata payload now =>
      refine imp_congr_right fun hinspects ↦ forall_congr' fun _ ↦ forall_congr' fun _ ↦ ?_
      exact insert_isError_iff h hinspects payload now

/-- A segment of the connection, with some bytes, would be refused as the first one. -/
def RefusesAsNew (env : ReassemblerSetup) (key : StreamKey) :
    TcpStreamReassembler → ReassemblerOp → Prop
  | r, .insert metadata payload now => Inspects env metadata → (makeKey metadata).1 = key →
      payload ≠ [] → RefusedAsNew env r metadata payload now
  | _, .purge _ => True

theorem Blank.rejects_iff {env : ReassemblerSetup} {r : TcpStreamReassembler} {key : StreamKey}
    (h : Blank key r) (op : ReassemblerOp) : Rejects env key r op ↔ RefusesAsNew env key r op := by
  cases op with
  | purge now => exact Iff.rfl
  | insert metadata payload now =>
      refine imp_congr_right fun hinspects ↦ forall_congr' fun hkey ↦ imp_congr_right fun hne ↦ ?_
      subst hkey
      exact h.insert_isError_iff hinspects hne now

theorem Blank.apply {env : ReassemblerSetup} {r : TcpStreamReassembler} {key : StreamKey}
    (h : Blank key r) {op : ReassemblerOp} (hrejects : Rejects env key r op) :
    Blank key (r.apply env op) := by
  cases op with
  | purge now => exact h.purgeExpired now
  | insert metadata payload now =>
      by_cases hother : ¬Inspects env metadata ∨ (makeKey metadata).1 ≠ key
      · exact h.insert_other hother payload now
      · obtain ⟨hinspects, hkey⟩ := not_or.mp hother
        obtain rfl := not_not.mp hkey
        by_cases hpayload : payload = []
        · subst hpayload
          exact h.insert_nil now
        · exact h.insert_isError (hrejects (not_not.mp hinspects) rfl hpayload)

/-- As long as there is no hostname yet, the packet is left to be forwarded. -/
theorem forward_of_deferred {cap : Nat} {μ σ : Type} {metadata : PacketMetadata}
    {st : BurstState cap μ σ} {verdict : DpiVerdict}
    (h : (if metadata.hostname = none then
        ((.inl { metadata, deferSpiCache := true }, st) :
          (DpiVerdict ⊕ PacketMetadata) × BurstState cap μ σ)
      else (.inr metadata, st)).1 = .inl verdict) : verdict.action = .kForward := by
  split_ifs at h
  · cases h
    rfl

/-- In the reassembly branch of `TryDpiClassify` the packet is dropped exactly for an error. -/
theorem findHostname_drops_iff {cap : Nat} {μ σ : Type} (ctx : WorkerContext)
    {svc : Services μ σ} (packet : μ) (metadata : PacketMetadata) (st : BurstState cap μ σ)
    {insert : PacketMetadata → List (BitVec 8) → BitVec 64 → σ → TcpReassemblyResult × σ}
    (hinsert : svc.tcpReassembler = some insert) {payload : List (BitVec 8)}
    (hread : svc.pktmbufRead packet metadata.tcpPayloadOffset.toNat
      (min metadata.tcpPayloadLength.toNat kMaxTcpInspectionPayload) = some payload) :
    (∃ verdict, (findHostname ctx svc packet metadata st).1 = .inl verdict ∧
        verdict.action = .kDrop ∧ verdict.matched = true) ↔
      (insert metadata payload ctx.currentBurstTsc st.world).1.status.isError = true := by
  unfold findHostname
  rw [hinsert]
  dsimp only
  rw [hread]
  dsimp only
  cases hstatus : (insert metadata payload ctx.currentBurstTsc st.world).1.status with
  | kConflictingOverlap => exact iff_of_true ⟨_, rfl, rfl, rfl⟩ rfl
  | kResourceLimit => exact iff_of_true ⟨_, rfl, rfl, rfl⟩ rfl
  | kDisabled =>
      refine iff_of_false ?_ Bool.false_ne_true
      rintro ⟨verdict, hverdict, -⟩
      cases hverdict
  | kWaiting =>
      refine iff_of_false ?_ Bool.false_ne_true
      rintro ⟨verdict, hverdict, haction, -⟩
      cases (forward_of_deferred hverdict).symm.trans haction
  | kReady =>
      refine iff_of_false ?_ Bool.false_ne_true
      rintro ⟨verdict, hverdict, haction, -⟩
      cases (forward_of_deferred hverdict).symm.trans haction

/-- After a conflict every later segment of the connection leads to an error exactly if each is
refused by what it comes upon.  If the connection has no other stream, they come upon nothing: then
each would also be refused as the first one of a new stream, which only happens where a limit is
reached.  And exactly an error makes `TryDpiClassify` drop the packet. -/
theorem conflicted_flow_stays_rejected_iff {env : ReassemblerSetup} {r : TcpStreamReassembler}
    (hreach : (reassembly env).Reach r) {metadata : PacketMetadata} {payload : List Byte}
    {now : BitVec 64}
    (hconflict : (r.insert env metadata payload now).1.status = .kConflictingOverlap) :
    (∀ later : List ReassemblerOp,
      System.Meets (Rejects env (makeKey metadata).1) (TcpStreamReassembler.apply env)
          (r.insert env metadata payload now).2 later ↔
        System.Meets (RefusesFound env (makeKey metadata).1) (TcpStreamReassembler.apply env)
          (r.insert env metadata payload now).2 later) ∧
      (Joins env r metadata now → ∀ later : List ReassemblerOp,
        System.Meets (Rejects env (makeKey metadata).1) (TcpStreamReassembler.apply env)
            (r.insert env metadata payload now).2 later ↔
          System.Meets (RefusesAsNew env (makeKey metadata).1) (TcpStreamReassembler.apply env)
            (r.insert env metadata payload now).2 later) ∧
      ∀ {cap : Nat} {μ : Type} (ctx : WorkerContext) (svc : Services μ TcpStreamReassembler)
        (packet : μ) (metadata' : PacketMetadata) (st : BurstState cap μ TcpStreamReassembler)
        (payload' : List Byte),
        svc.tcpReassembler = some (fun m p t w ↦ w.insert env m p t) →
        svc.pktmbufRead packet metadata'.tcpPayloadOffset.toNat
          (min metadata'.tcpPayloadLength.toNat kMaxTcpInspectionPayload) = some payload' →
        ((∃ verdict, (findHostname ctx svc packet metadata' st).1 = .inl verdict ∧
            verdict.action = .kDrop ∧ verdict.matched = true) ↔
          (st.world.insert env metadata' payload' ctx.currentBurstTsc).1.status.isError =
            true) := by
  have herror : (r.insert env metadata payload now).1.status.isError = true := by
    rw [hconflict]
    rfl
  have hnext : (reassembly env).Reach (r.insert env metadata payload now).2 :=
    .step (a := .insert metadata payload now) hreach rfl
  refine ⟨fun later ↦ ?_, fun hjoins later ↦ ?_, ?_⟩
  · refine System.meets_congr (I := (reassembly env).Reach) ?_ ?_ hnext later
    · exact fun s op hs ↦ rejects_iff (distinct_of_reach hs) _ op
    · exact fun s op hs _ ↦ .step hs rfl
  · refine System.meets_congr (I := Blank (makeKey metadata).1) ?_ ?_
      (noStream_of_isError hjoins herror).blank later
    · exact fun s op hs ↦ hs.rejects_iff op
    · exact fun s op hs hrejects ↦ hs.apply hrejects
  · intro cap μ ctx svc packet metadata' st payload' hinsert hread
    exact findHostname_drops_iff ctx packet metadata' st hinsert hread

/-- A request that has come. -/
def requestRun (env : ReassemblerSetup) : TcpStreamReassembler :=
  TcpStreamReassembler.apply env {} (.insert (clientSegment 0) (asciiBytes "GET /") 0)

theorem reach_requestRun (env : ReassemblerSetup) : (reassembly env).Reach (requestRun env) :=
  .step (.init rfl) rfl

/-- The first bytes of the request again, with other contents. -/
def conflictedRun (env : ReassemblerSetup) : TcpStreamReassembler :=
  ((requestRun env).insert env (clientSegment 0) (asciiBytes "PUT /") 1).2

/-- Reassembly of at most five bytes. -/
def tightSetup : ReassemblerSetup :=
  .new { enabled := true, maxBufferedBytesPerDirection := 5 } 1

theorem conflicted_flow_stays_rejected_tight :
    ((conflictedRun tightSetup).insert tightSetup (clientSegment 0) (asciiBytes "GET /a")
      2).1.status.isError = true := by
  have hconflict :
      ((requestRun tightSetup).insert tightSetup (clientSegment 0)
        (asciiBytes "PUT /") 1).1.status = .kConflictingOverlap := by
    decide +kernel
  have hjoins : Joins tightSetup (requestRun tightSetup) (clientSegment 0) 1 := by decide +kernel
  have hrefuses : RefusesAsNew tightSetup (makeKey (clientSegment 0)).1 (conflictedRun tightSetup)
      (.insert (clientSegment 0) (asciiBytes "GET /a") 2) :=
    fun _ _ _ ↦ .inr (.inr (.inl ⟨by decide, by decide⟩))
  have hmeets := ((conflicted_flow_stays_rejected_iff (reach_requestRun tightSetup)
    hconflict).2.1 hjoins [.insert (clientSegment 0) (asciiBytes "GET /a") 2]).mpr
    ⟨hrefuses, trivial⟩
  have hrejects : Rejects tightSetup (makeKey (clientSegment 0)).1 (conflictedRun tightSetup)
      (.insert (clientSegment 0) (asciiBytes "GET /a") 2) := hmeets.1
  exact hrejects ⟨rfl, rfl⟩ rfl (by decide)

/-- The request is taken again right after the conflict. -/
theorem conflicted_flow_accepted_again :
    defaultSetup.config.dropConflictingOverlap = true ∧
      ((requestRun defaultSetup).insert defaultSetup (clientSegment 0) (asciiBytes "PUT /")
        1).1.status = .kConflictingOverlap ∧
      ¬System.Meets (Rejects defaultSetup (makeKey (clientSegment 0)).1)
        (TcpStreamReassembler.apply defaultSetup) (conflictedRun defaultSetup)
        [.insert (clientSegment 0) (asciiBytes "GET /") 2] := by
  refine ⟨rfl, by decide +kernel, fun h ↦ ?_⟩
  have herror := h.1 ⟨rfl, rfl⟩ rfl (by decide)
  have hready : ((conflictedRun defaultSetup).insert defaultSetup (clientSegment 0)
      (asciiBytes "GET /") 2).1.status = .kReady := by
    decide +kernel
  rw [hready] at herror
  cases herror

end DpdkSpi
