import DpdkSpi.Tcp.Reassembly

/-!
# What a segment does to a direction

`AddSegment` first decides where a segment goes (`route`), which depends on the direction
and the segment alone, and then stores it, which may fail for lack of room.  What a call
can do is one of the cases of `Outcome`; everything that is proved about the directions of a
reassembler goes through them.
-/

namespace DpdkSpi

open Lib

/-! ## Routes -/

/-- Where a segment goes. -/
inductive Route where
  /-- There is nothing to store. -/
  | ignore
  /-- The segment disagrees with the contiguous part. -/
  | reject
  /-- `QueuePending` is called. -/
  | queue
  /-- `AppendAndDrain` is called with these bytes, at the end of `start`. -/
  | append (start : DirectionState) (bytes : List Byte)

/-- The decision of `AddSegment`. -/
def route (env : ReassemblerSetup) (direction : DirectionState) (sequence : BitVec 32)
    (payload : List Byte) : Route :=
  if payload.isEmpty then .ignore
  else if direction.baseKnown then
    if sequenceDistance sequence direction.nextSequence = 0 then .append direction payload
    else if 0 < sequenceDistance sequence direction.nextSequence then .queue
    else if verifyOverlap env direction sequence payload = .kConflictingOverlap then .reject
    else if sequenceDistance (sequence + BitVec.ofNat 32 payload.length)
        direction.nextSequence ≤ 0 then
      .ignore
    else
      .append direction
        (payload.drop (-sequenceDistance sequence direction.nextSequence).toNat)
  else if isStreamStart payload then .append (direction.withBase sequence) payload
  else .queue

theorem sequenceDistance_self (x : BitVec 32) : sequenceDistance x x = 0 :=
  Serial.distance_eq_zero_iff.mpr rfl

theorem sequenceDistance_eq_zero {x y : BitVec 32} (h : sequenceDistance x y = 0) : x = y :=
  Serial.distance_eq_zero_iff.mp h

theorem sequenceDistance_bounds (x y : BitVec 32) :
    -2 ^ 31 ≤ sequenceDistance x y ∧ sequenceDistance x y < 2 ^ 31 :=
  Serial.fits_distance x y

/-- A segment that starts before a place and ends behind it reaches it, unless it is so long
that the distance of its end wraps around. -/
theorem sequenceDistance_add_of_neg {x y : BitVec 32} {n : Nat} (hn : n < 2 ^ 31)
    (hneg : sequenceDistance x y < 0) :
    sequenceDistance (x + BitVec.ofNat 32 n) y = sequenceDistance x y + n := by
  have hbounds := sequenceDistance_bounds x y
  have hfits : Serial.Fits 32 (Serial.distance x y + n) := by
    unfold sequenceDistance at hneg hbounds
    exact ⟨by omega, by omega⟩
  exact Serial.distance_add_left (by decide) x y hfits

/-- `AddSegment` follows the route. -/
theorem addSegment_eq (env : ReassemblerSetup) (bufferedBytes : Nat) (direction : DirectionState)
    (sequence : BitVec 32) (payload : List Byte) :
    addSegment env bufferedBytes direction sequence payload =
      match route env direction sequence payload with
      | .ignore => (.kWaiting, direction, bufferedBytes)
      | .reject => (.kConflictingOverlap, direction, bufferedBytes)
      | .queue => queuePending env bufferedBytes direction sequence payload
      | .append start bytes =>
          appendAndDrain env bufferedBytes start start.nextSequence bytes := by
  unfold addSegment route
  by_cases hempty : payload.isEmpty = true
  · rw [if_pos hempty, if_pos hempty]
  · rw [if_neg hempty, if_neg hempty]
    cases hbase : direction.baseKnown with
    | false =>
        cases hstart : isStreamStart payload with
        | false => rfl
        | true =>
            have hself : sequenceDistance sequence (direction.withBase sequence).nextSequence = 0 :=
              sequenceDistance_self sequence
            simp only [Bool.not_false, Bool.not_true, Bool.and_false, Bool.false_eq_true,
              ↓reduceIte]
            rw [if_pos hself]
            rfl
    | true =>
        simp only [Bool.not_true, Bool.false_and, Bool.false_eq_true, ↓reduceIte]
        by_cases hzero : sequenceDistance sequence direction.nextSequence = 0
        · rw [if_pos hzero, if_pos hzero, sequenceDistance_eq_zero hzero]
        · rw [if_neg hzero, if_neg hzero]
          split_ifs <;> rfl

/-- What is known about the place bytes are appended at. -/
structure AppendsTo (direction : DirectionState) (sequence : BitVec 32) (payload : List Byte)
    (start : DirectionState) (bytes : List Byte) : Prop where
  contiguous_eq : start.contiguous = direction.contiguous
  pending_eq : start.pending = direction.pending
  baseKnown : start.baseKnown = true
  /-- Either the base was known and the end of the segment is new, or it starts here. -/
  extends_or_starts :
    (direction.baseKnown = true ∧ start = direction ∧
        sequenceDistance sequence direction.nextSequence ≤ 0 ∧
        bytes = payload.drop (-sequenceDistance sequence direction.nextSequence).toNat ∧
        (sequenceDistance sequence direction.nextSequence < 0 →
          0 < sequenceDistance (sequence + BitVec.ofNat 32 payload.length)
            direction.nextSequence)) ∨
      (direction.baseKnown = false ∧ isStreamStart payload = true ∧
        start = direction.withBase sequence ∧ bytes = payload)

theorem route_append {env : ReassemblerSetup} {direction start : DirectionState}
    {sequence : BitVec 32} {payload bytes : List Byte}
    (h : route env direction sequence payload = .append start bytes) :
    AppendsTo direction sequence payload start bytes := by
  unfold route at h
  split_ifs at h with hempty hbase hzero hpos hreject hend hstart
  · obtain ⟨rfl, rfl⟩ := Route.append.inj h
    refine ⟨rfl, rfl, hbase, .inl ⟨hbase, rfl, hzero.le, ?_, fun hlt ↦ absurd hzero hlt.ne⟩⟩
    rw [hzero]
    rfl
  · obtain ⟨rfl, rfl⟩ := Route.append.inj h
    exact ⟨rfl, rfl, hbase, .inl ⟨hbase, rfl, not_lt.mp hpos, rfl, fun _ ↦ not_le.mp hend⟩⟩
  · obtain ⟨rfl, rfl⟩ := Route.append.inj h
    exact ⟨rfl, rfl, rfl, .inr ⟨by simpa using hbase, hstart, rfl, rfl⟩⟩

/-- A segment is ignored when it is empty or lies before the end of the contiguous part. -/
theorem route_ignore {env : ReassemblerSetup} {direction : DirectionState} {sequence : BitVec 32}
    {payload : List Byte} (h : route env direction sequence payload = .ignore) :
    payload = [] ∨ (direction.baseKnown = true ∧
      sequenceDistance sequence direction.nextSequence < 0 ∧
      sequenceDistance (sequence + BitVec.ofNat 32 payload.length) direction.nextSequence ≤ 0) := by
  unfold route at h
  split_ifs at h with hempty hbase hzero hpos hreject hend hstart
  · exact .inl (by simpa using hempty)
  · exact .inr ⟨hbase, by omega, hend⟩

/-- A segment is queued when it comes before the base is known, or too early. -/
theorem route_queue_iff {env : ReassemblerSetup} {direction : DirectionState}
    {sequence : BitVec 32} {payload : List Byte} :
    route env direction sequence payload = .queue ↔
      payload ≠ [] ∧ (direction.baseKnown = false → isStreamStart payload = false) ∧
        (direction.baseKnown = true → 0 < sequenceDistance sequence direction.nextSequence) := by
  unfold route
  constructor
  · intro h
    split_ifs at h with hempty hbase hzero hpos hreject hend hstart
    · exact ⟨by simpa using hempty, fun hunknown ↦ absurd hbase (by simp [hunknown]), fun _ ↦ hpos⟩
    · exact ⟨by simpa using hempty, fun _ ↦ by simpa using hstart, fun hknown ↦ absurd hknown hbase⟩
  · rintro ⟨hempty, hunknown, hknown⟩
    rw [if_neg (by simpa using hempty)]
    split_ifs with hbase hzero hpos hreject hend hstart
    · exact absurd hzero (hknown hbase).ne'
    · rfl
    · exact absurd (hknown hbase) hpos
    · exact absurd (hknown hbase) hpos
    · exact absurd (hknown hbase) hpos
    · exact absurd hstart (by simp [hunknown (by simpa using hbase)])
    · rfl

/-- A segment at the end of the contiguous part is appended to it. -/
theorem route_next {env : ReassemblerSetup} {direction : DirectionState} {payload : List Byte}
    (hpayload : payload ≠ []) (hknown : direction.baseKnown = true) :
    route env direction direction.nextSequence payload = .append direction payload := by
  unfold route
  rw [if_neg (by simpa using hpayload), if_pos hknown, if_pos (sequenceDistance_self _)]

/-- Where no base is known, the start of a stream gives one. -/
theorem route_start {env : ReassemblerSetup} {direction : DirectionState} {sequence : BitVec 32}
    {payload : List Byte} (hpayload : payload ≠ []) (hunknown : direction.baseKnown = false)
    (hstart : isStreamStart payload = true) :
    route env direction sequence payload = .append (direction.withBase sequence) payload := by
  unfold route
  rw [if_neg (by simpa using hpayload), hunknown, if_neg Bool.false_ne_true, if_pos hstart]

/-! ## Draining -/

/-- The direction with more bytes at the end of its contiguous part. -/
def DirectionState.extend (direction : DirectionState) (bytes : List Byte) : DirectionState :=
  { direction with
    contiguous := direction.contiguous ++ bytes
    nextSequence := direction.nextSequence + BitVec.ofNat 32 bytes.length }

@[simp] theorem DirectionState.length_contiguous_extend (direction : DirectionState)
    (bytes : List Byte) :
    (direction.extend bytes).contiguous.length = direction.contiguous.length + bytes.length :=
  List.length_append

/-- What is pending, once one of the segments has been found. -/
theorem DirectionState.mem_pending_iff {direction : DirectionState} {p q : PendingSegment}
    {before after : List PendingSegment} (hpending : direction.pending = before ++ p :: after) :
    q ∈ direction.pending ↔ q = p ∨ q ∈ before ++ after := by
  rw [hpending, List.mem_append, List.mem_cons, List.mem_append]
  exact or_left_comm

/-- The loop of `AppendAndDrain`, round by round. -/
inductive Drains (limit : Nat) : DirectionState → TcpReassemblyStatus → DirectionState → Prop
  /-- No pending segment starts at the end of the contiguous part. -/
  | done {d : DirectionState} (hnone : ∀ p ∈ d.pending, p.sequence ≠ d.nextSequence) :
      Drains limit d .kReady d
  /-- There is one, but it does not fit. -/
  | full {d : DirectionState} {p : PendingSegment} (hmem : p ∈ d.pending)
      (hp : p.sequence = d.nextSequence)
      (hfull : limit < d.contiguous.length + p.payload.length) : Drains limit d .kResourceLimit d
  /-- There is one, and it is moved. -/
  | take {d d' : DirectionState} {status : TcpReassemblyStatus} {p : PendingSegment}
      {before after : List PendingSegment} (hpending : d.pending = before ++ p :: after)
      (hp : p.sequence = d.nextSequence)
      (hroom : d.contiguous.length + p.payload.length ≤ limit)
      (rest : Drains limit { d.extend p.payload with pending := before ++ after } status d') :
      Drains limit d status d'

/-- As many rounds as there are pending segments are enough. -/
theorem drains_drain (env : ReassemblerSetup) {fuel : Nat} {d : DirectionState}
    (hfuel : d.pending.length ≤ fuel) :
    Drains env.config.maxBufferedBytesPerDirection.toNat d (drain env fuel d).1
      (drain env fuel d).2 := by
  induction fuel generalizing d with
  | zero =>
      refine .done fun p hp ↦ ?_
      rw [List.length_eq_zero_iff.mp (Nat.le_zero.mp hfuel)] at hp
      exact absurd hp List.not_mem_nil
  | succ fuel ih =>
      unfold drain
      cases hfind : d.pending.find? fun p ↦ p.sequence = d.nextSequence with
      | none =>
          refine .done fun p hp heq ↦ ?_
          exact List.find?_eq_none.mp hfind p hp (by simpa using heq)
      | some p =>
          obtain ⟨hp, before, after, hpending, hbefore⟩ := List.find?_eq_some_iff_append.mp hfind
          have hp' : p.sequence = d.nextSequence := by simpa using hp
          dsimp only
          split_ifs with hfull
          · exact .full (List.mem_of_find?_eq_some hfind) hp' hfull
          · have herase : (d.pending.eraseP fun p ↦ p.sequence = d.nextSequence) =
                before ++ after := by
              rw [hpending, List.eraseP_append_right _ fun q hq ↦ by simpa using hbefore q hq,
                List.eraseP_cons_of_pos (p := fun p : PendingSegment ↦ p.sequence = d.nextSequence)
                  hp]
            have hlength : (before ++ after).length ≤ fuel := by
              rw [hpending] at hfuel
              simp only [List.length_append, List.length_cons] at hfuel ⊢
              omega
            rw [herase]
            exact .take hpending hp' (not_lt.mp hfull) (ih hlength)

/-- Draining keeps what every round keeps. -/
theorem Drains.invariant {limit : Nat} {I : DirectionState → Prop}
    (hround : ∀ (d : DirectionState) (p : PendingSegment) (before after : List PendingSegment),
      d.pending = before ++ p :: after → p.sequence = d.nextSequence →
      d.contiguous.length + p.payload.length ≤ limit → I d →
      I { d.extend p.payload with pending := before ++ after })
    {d d' : DirectionState} {status : TcpReassemblyStatus} (h : Drains limit d status d')
    (hd : I d) : I d' := by
  induction h with
  | done _ => exact hd
  | full _ _ _ => exact hd
  | take hpending hp hroom _ ih => exact ih (hround _ _ _ _ hpending hp hroom hd)

/-- Draining is never a conflict. -/
theorem Drains.status_eq {limit : Nat} {d d' : DirectionState} {status : TcpReassemblyStatus}
    (h : Drains limit d status d') : status = .kReady ∨ status = .kResourceLimit := by
  induction h with
  | done _ => exact .inl rfl
  | full _ _ _ => exact .inr rfl
  | take _ _ _ _ ih => exact ih

/-- Draining that ends well leaves nothing that starts at the end of the contiguous part. -/
theorem Drains.not_mem {limit : Nat} {d d' : DirectionState} {status : TcpReassemblyStatus}
    (h : Drains limit d status d') (hstatus : status = .kReady) :
    ∀ p ∈ d'.pending, p.sequence ≠ d'.nextSequence := by
  induction h with
  | done hnone => exact hnone
  | full _ _ _ => cases hstatus
  | take _ _ _ _ ih => exact ih hstatus

/-- Draining stops at once when nothing starts at the end of the contiguous part. -/
theorem Drains.of_none {limit : Nat} {d d' : DirectionState} {status : TcpReassemblyStatus}
    (h : Drains limit d status d') (hnone : ∀ p ∈ d.pending, p.sequence ≠ d.nextSequence) :
    status = .kReady ∧ d' = d := by
  cases h with
  | done _ => exact ⟨rfl, rfl⟩
  | full hmem hp _ => exact absurd hp (hnone _ hmem)
  | take hpending hp _ _ =>
      exact absurd hp (hnone _ ((DirectionState.mem_pending_iff hpending).mpr (.inl rfl)))

/-! ## Outcomes -/

/-- What `AddSegment` can do: the status, the direction and `buffered_bytes_` after the call. -/
inductive Outcome (env : ReassemblerSetup) (bufferedBytes : Nat) (d : DirectionState)
    (sequence : BitVec 32) (payload : List Byte) :
    TcpReassemblyStatus → DirectionState → Nat → Prop
  | ignored (hroute : route env d sequence payload = .ignore) :
      Outcome env bufferedBytes d sequence payload .kWaiting d bufferedBytes
  | rejected (hroute : route env d sequence payload = .reject) :
      Outcome env bufferedBytes d sequence payload .kConflictingOverlap d bufferedBytes
  | queueFull (hroute : route env d sequence payload = .queue)
      (hfull : env.config.maxOutOfOrderSegments.toNat ≤ d.pending.length ∨
        hasCapacity env bufferedBytes payload.length = false) :
      Outcome env bufferedBytes d sequence payload .kResourceLimit d bufferedBytes
  | repeated {p : PendingSegment} (hroute : route env d sequence payload = .queue)
      (hroom : d.pending.length < env.config.maxOutOfOrderSegments.toNat)
      (hcapacity : hasCapacity env bufferedBytes payload.length = true)
      (hmem : p ∈ d.pending) (hp : p.sequence = sequence) (hsame : p.payload = payload) :
      Outcome env bufferedBytes d sequence payload .kWaiting d bufferedBytes
  | differs {p : PendingSegment} (hroute : route env d sequence payload = .queue)
      (hroom : d.pending.length < env.config.maxOutOfOrderSegments.toNat)
      (hcapacity : hasCapacity env bufferedBytes payload.length = true)
      (hmem : p ∈ d.pending) (hp : p.sequence = sequence) (hdiffer : p.payload ≠ payload) :
      Outcome env bufferedBytes d sequence payload .kConflictingOverlap d bufferedBytes
  | queued (hroute : route env d sequence payload = .queue)
      (hroom : d.pending.length < env.config.maxOutOfOrderSegments.toNat)
      (hcapacity : hasCapacity env bufferedBytes payload.length = true)
      (hnew : ∀ p ∈ d.pending, p.sequence ≠ sequence) :
      Outcome env bufferedBytes d sequence payload .kWaiting
        { d with pending := d.pending ++ [⟨sequence, payload⟩] }
        (bufferedBytes + payload.length)
  | appendFull {start : DirectionState} {bytes : List Byte}
      (hroute : route env d sequence payload = .append start bytes)
      (hfull : hasCapacity env bufferedBytes bytes.length = false ∨
        env.config.maxBufferedBytesPerDirection.toNat < start.contiguous.length + bytes.length) :
      Outcome env bufferedBytes d sequence payload .kResourceLimit start bufferedBytes
  | appended {start d' : DirectionState} {bytes : List Byte} {status : TcpReassemblyStatus}
      (hroute : route env d sequence payload = .append start bytes)
      (hcapacity : hasCapacity env bufferedBytes bytes.length = true)
      (hroom : start.contiguous.length + bytes.length ≤
        env.config.maxBufferedBytesPerDirection.toNat)
      (hdrains : Drains env.config.maxBufferedBytesPerDirection.toNat (start.extend bytes)
        status d') :
      Outcome env bufferedBytes d sequence payload status d' (bufferedBytes + bytes.length)

theorem outcome_queuePending {env : ReassemblerSetup} (bufferedBytes : Nat) {d : DirectionState}
    {sequence : BitVec 32} {payload : List Byte}
    (hroute : route env d sequence payload = .queue) :
    Outcome env bufferedBytes d sequence payload
      (queuePending env bufferedBytes d sequence payload).1
      (queuePending env bufferedBytes d sequence payload).2.1
      (queuePending env bufferedBytes d sequence payload).2.2 := by
  unfold queuePending
  split_ifs with hfull
  · exact .queueFull hroute (by simpa using hfull)
  · obtain ⟨hroom, hcapacity⟩ := not_or.mp hfull
    have hroom' := not_le.mp hroom
    have hcapacity' : hasCapacity env bufferedBytes payload.length = true := by
      simpa using hcapacity
    cases hfind : d.pending.find? fun pending ↦ pending.sequence = sequence with
    | none =>
        refine .queued hroute hroom' hcapacity' fun p hp heq ↦ ?_
        exact List.find?_eq_none.mp hfind p hp (by simpa using heq)
    | some p =>
        have hmem := List.mem_of_find?_eq_some hfind
        have hp : p.sequence = sequence := by simpa using List.find?_some hfind
        dsimp only
        split_ifs with hsame
        · exact .repeated hroute hroom' hcapacity' hmem hp hsame
        · exact .differs hroute hroom' hcapacity' hmem hp hsame

theorem outcome_appendAndDrain {env : ReassemblerSetup} (bufferedBytes : Nat)
    {d start : DirectionState} {sequence : BitVec 32} {payload bytes : List Byte}
    (hroute : route env d sequence payload = .append start bytes) :
    Outcome env bufferedBytes d sequence payload
      (appendAndDrain env bufferedBytes start start.nextSequence bytes).1
      (appendAndDrain env bufferedBytes start start.nextSequence bytes).2.1
      (appendAndDrain env bufferedBytes start start.nextSequence bytes).2.2 := by
  unfold appendAndDrain
  split_ifs with hfull
  · exact .appendFull hroute (by simpa using hfull)
  · obtain ⟨hcapacity, hroom⟩ := not_or.mp hfull
    exact .appended hroute (by simpa using hcapacity) (not_lt.mp hroom) (drains_drain env le_rfl)

/-- Every call of `AddSegment` is one of the cases. -/
theorem outcome_addSegment (env : ReassemblerSetup) (bufferedBytes : Nat) (d : DirectionState)
    (sequence : BitVec 32) (payload : List Byte) :
    Outcome env bufferedBytes d sequence payload
      (addSegment env bufferedBytes d sequence payload).1
      (addSegment env bufferedBytes d sequence payload).2.1
      (addSegment env bufferedBytes d sequence payload).2.2 := by
  rw [addSegment_eq]
  cases hroute : route env d sequence payload with
  | ignore => exact .ignored hroute
  | reject => exact .rejected hroute
  | queue => exact outcome_queuePending bufferedBytes hroute
  | append start bytes => exact outcome_appendAndDrain bufferedBytes hroute

section

variable {env : ReassemblerSetup} {b b' : Nat} {d d' start : DirectionState}
  {sequence : BitVec 32} {payload bytes : List Byte} {status : TcpReassemblyStatus}

theorem Outcome.of_ignore (h : Outcome env b d sequence payload status d' b')
    (hroute : route env d sequence payload = .ignore) :
    status = .kWaiting ∧ d' = d ∧ b' = b := by
  cases h with
  | ignored _ => exact ⟨rfl, rfl, rfl⟩
  | rejected h => cases hroute.symm.trans h
  | queueFull h _ => cases hroute.symm.trans h
  | repeated h _ _ _ _ _ => cases hroute.symm.trans h
  | differs h _ _ _ _ _ => cases hroute.symm.trans h
  | queued h _ _ _ => cases hroute.symm.trans h
  | appendFull h _ => cases hroute.symm.trans h
  | appended h _ _ _ => cases hroute.symm.trans h

theorem Outcome.of_reject (h : Outcome env b d sequence payload status d' b')
    (hroute : route env d sequence payload = .reject) :
    status = .kConflictingOverlap ∧ d' = d ∧ b' = b := by
  cases h with
  | ignored h => cases hroute.symm.trans h
  | rejected _ => exact ⟨rfl, rfl, rfl⟩
  | queueFull h _ => cases hroute.symm.trans h
  | repeated h _ _ _ _ _ => cases hroute.symm.trans h
  | differs h _ _ _ _ _ => cases hroute.symm.trans h
  | queued h _ _ _ => cases hroute.symm.trans h
  | appendFull h _ => cases hroute.symm.trans h
  | appended h _ _ _ => cases hroute.symm.trans h

theorem Outcome.of_queue (h : Outcome env b d sequence payload status d' b')
    (hroute : route env d sequence payload = .queue) :
    ((env.config.maxOutOfOrderSegments.toNat ≤ d.pending.length ∨
          hasCapacity env b payload.length = false) ∧
        status = .kResourceLimit ∧ d' = d ∧ b' = b) ∨
      (d.pending.length < env.config.maxOutOfOrderSegments.toNat ∧
        hasCapacity env b payload.length = true ∧
        ((∃ p ∈ d.pending, p.sequence = sequence ∧ p.payload = payload ∧
            status = .kWaiting ∧ d' = d ∧ b' = b) ∨
          (∃ p ∈ d.pending, p.sequence = sequence ∧ p.payload ≠ payload ∧
            status = .kConflictingOverlap ∧ d' = d ∧ b' = b) ∨
          ((∀ p ∈ d.pending, p.sequence ≠ sequence) ∧ status = .kWaiting ∧
            d' = { d with pending := d.pending ++ [⟨sequence, payload⟩] } ∧
            b' = b + payload.length))) := by
  cases h with
  | ignored h => cases hroute.symm.trans h
  | rejected h => cases hroute.symm.trans h
  | queueFull _ hfull => exact .inl ⟨hfull, rfl, rfl, rfl⟩
  | repeated _ hroom hcapacity hmem hp hsame =>
      exact .inr ⟨hroom, hcapacity, .inl ⟨_, hmem, hp, hsame, rfl, rfl, rfl⟩⟩
  | differs _ hroom hcapacity hmem hp hdiffer =>
      exact .inr ⟨hroom, hcapacity, .inr (.inl ⟨_, hmem, hp, hdiffer, rfl, rfl, rfl⟩)⟩
  | queued _ hroom hcapacity hnew =>
      exact .inr ⟨hroom, hcapacity, .inr (.inr ⟨hnew, rfl, rfl, rfl⟩)⟩
  | appendFull h _ => cases hroute.symm.trans h
  | appended h _ _ _ => cases hroute.symm.trans h

theorem Outcome.of_append (h : Outcome env b d sequence payload status d' b')
    (hroute : route env d sequence payload = .append start bytes) :
    ((hasCapacity env b bytes.length = false ∨
          env.config.maxBufferedBytesPerDirection.toNat <
            start.contiguous.length + bytes.length) ∧
        status = .kResourceLimit ∧ d' = start ∧ b' = b) ∨
      (hasCapacity env b bytes.length = true ∧
        start.contiguous.length + bytes.length ≤
          env.config.maxBufferedBytesPerDirection.toNat ∧
        Drains env.config.maxBufferedBytesPerDirection.toNat (start.extend bytes) status d' ∧
        b' = b + bytes.length) := by
  cases h with
  | ignored h => cases hroute.symm.trans h
  | rejected h => cases hroute.symm.trans h
  | queueFull h _ => cases hroute.symm.trans h
  | repeated h _ _ _ _ _ => cases hroute.symm.trans h
  | differs h _ _ _ _ _ => cases hroute.symm.trans h
  | queued h _ _ _ => cases hroute.symm.trans h
  | appendFull h hfull =>
      obtain ⟨rfl, rfl⟩ := Route.append.inj (hroute.symm.trans h)
      exact .inl ⟨hfull, rfl, rfl, rfl⟩
  | appended h hcapacity hroom hdrains =>
      obtain ⟨rfl, rfl⟩ := Route.append.inj (hroute.symm.trans h)
      exact .inr ⟨hcapacity, hroom, hdrains, rfl⟩

/-- Queueing, where there is room. -/
theorem Outcome.of_queue_of_room (h : Outcome env b d sequence payload status d' b')
    (hroute : route env d sequence payload = .queue)
    (hroom : d.pending.length < env.config.maxOutOfOrderSegments.toNat)
    (hcapacity : hasCapacity env b payload.length = true) :
    (∃ p ∈ d.pending, p.sequence = sequence ∧ p.payload = payload ∧
        status = .kWaiting ∧ d' = d ∧ b' = b) ∨
      (∃ p ∈ d.pending, p.sequence = sequence ∧ p.payload ≠ payload ∧
        status = .kConflictingOverlap ∧ d' = d ∧ b' = b) ∨
      ((∀ p ∈ d.pending, p.sequence ≠ sequence) ∧ status = .kWaiting ∧
        d' = { d with pending := d.pending ++ [⟨sequence, payload⟩] } ∧
        b' = b + payload.length) := by
  rcases h.of_queue hroute with ⟨hfull | hfull, -⟩ | ⟨-, -, hcases⟩
  · exact absurd hfull (not_le.mpr hroom)
  · cases hcapacity.symm.trans hfull
  · exact hcases

/-- Appending, where there is room. -/
theorem Outcome.drains_of_room (h : Outcome env b d sequence payload status d' b')
    (hroute : route env d sequence payload = .append start bytes)
    (hcapacity : hasCapacity env b bytes.length = true)
    (hroom : start.contiguous.length + bytes.length ≤
      env.config.maxBufferedBytesPerDirection.toNat) :
    Drains env.config.maxBufferedBytesPerDirection.toNat (start.extend bytes) status d' := by
  rcases h.of_append hroute with ⟨hfull | hfull, -⟩ | ⟨-, -, hdrains, -⟩
  · cases hcapacity.symm.trans hfull
  · exact absurd hroom (not_le.mpr hfull)
  · exact hdrains

end

/-- A call that does not fail keeps what queueing, appending and a round of draining keep. -/
theorem Outcome.invariant {env : ReassemblerSetup} {b b' : Nat} {d d' : DirectionState}
    {sequence : BitVec 32} {payload : List Byte} {status : TcpReassemblyStatus}
    {I : DirectionState → Prop}
    (hqueue : route env d sequence payload = .queue →
      d.pending.length < env.config.maxOutOfOrderSegments.toNat →
      (∀ p ∈ d.pending, p.sequence ≠ sequence) → I d →
      I { d with pending := d.pending ++ [⟨sequence, payload⟩] })
    (happend : ∀ start bytes, route env d sequence payload = .append start bytes →
      start.contiguous.length + bytes.length ≤ env.config.maxBufferedBytesPerDirection.toNat →
      I d → I (start.extend bytes))
    (hround : ∀ (d : DirectionState) (p : PendingSegment) (before after : List PendingSegment),
      d.baseKnown = true → d.pending = before ++ p :: after → p.sequence = d.nextSequence →
      d.contiguous.length + p.payload.length ≤ env.config.maxBufferedBytesPerDirection.toNat →
      I d → I { d.extend p.payload with pending := before ++ after })
    (h : Outcome env b d sequence payload status d' b') (hstatus : status.isError = false)
    (hd : I d) : I d' := by
  cases h with
  | ignored _ => exact hd
  | rejected _ => cases hstatus
  | queueFull _ _ => cases hstatus
  | repeated _ _ _ _ _ _ => exact hd
  | differs _ _ _ _ _ _ => cases hstatus
  | queued hroute hroom _ hnew => exact hqueue hroute hroom hnew hd
  | appendFull _ _ => cases hstatus
  | appended hroute _ hroom hdrains =>
      have hstart : (_ : Bool) = true ∧ I _ :=
        ⟨(route_append hroute).baseKnown, happend _ _ hroute hroom hd⟩
      refine (hdrains.invariant (I := fun e ↦ e.baseKnown = true ∧ I e) ?_ hstart).2
      intro e p before after hpending hp hroom he
      exact ⟨he.1, hround e p before after he.1 hpending hp hroom he.2⟩

/-! ### Bytes -/

theorem DirectionState.bytes_extend (d : DirectionState) (bytes : List Byte) :
    (d.extend bytes).bytes = d.bytes + bytes.length := by
  simp only [DirectionState.bytes, DirectionState.extend, List.length_append]
  omega

/-- Draining moves bytes and neither adds nor loses any. -/
theorem Drains.bytes_eq {limit : Nat} {d d' : DirectionState} {status : TcpReassemblyStatus}
    (h : Drains limit d status d') : d'.bytes = d.bytes := by
  refine h.invariant (I := fun e ↦ e.bytes = d.bytes) ?_ rfl
  intro d p before after hpending _ _ hd
  rw [← hd]
  simp only [DirectionState.bytes, DirectionState.extend, hpending, List.length_append,
    List.map_append, List.map_cons, List.sum_append, List.sum_cons]
  omega

/-- `buffered_bytes_` grows by as much as the direction does, also in a call that fails. -/
theorem Outcome.bytes_eq {env : ReassemblerSetup} {b b' : Nat} {d d' : DirectionState}
    {sequence : BitVec 32} {payload : List Byte} {status : TcpReassemblyStatus}
    (h : Outcome env b d sequence payload status d' b') : b' + d.bytes = b + d'.bytes := by
  cases h with
  | ignored _ => rfl
  | rejected _ => rfl
  | queueFull _ _ => rfl
  | repeated _ _ _ _ _ _ => rfl
  | differs _ _ _ _ _ _ => rfl
  | queued _ _ _ _ =>
      simp only [DirectionState.bytes, List.map_append, List.map_cons, List.map_nil,
        List.sum_append, List.sum_cons, List.sum_nil]
      omega
  | appendFull hroute _ =>
      have happends := route_append hroute
      rw [DirectionState.bytes, DirectionState.bytes, happends.contiguous_eq, happends.pending_eq]
  | appended hroute _ _ hdrains =>
      have happends := route_append hroute
      rw [hdrains.bytes_eq, DirectionState.bytes_extend, DirectionState.bytes,
        DirectionState.bytes, happends.contiguous_eq, happends.pending_eq]
      omega

/-- A direction grows by the bytes of the segment or fewer. -/
theorem Outcome.bytes_le {env : ReassemblerSetup} {b b' : Nat} {d d' : DirectionState}
    {sequence : BitVec 32} {payload : List Byte} {status : TcpReassemblyStatus}
    (h : Outcome env b d sequence payload status d' b') :
    d'.bytes ≤ d.bytes + payload.length := by
  have hbytes := h.bytes_eq
  cases h with
  | ignored _ => exact Nat.le_add_right _ _
  | rejected _ => exact Nat.le_add_right _ _
  | queueFull _ _ => exact Nat.le_add_right _ _
  | repeated _ _ _ _ _ _ => exact Nat.le_add_right _ _
  | differs _ _ _ _ _ _ => exact Nat.le_add_right _ _
  | queued _ _ _ _ => omega
  | appendFull hroute _ => omega
  | @appended _ _ bytes _ hroute _ _ _ =>
      have hle : bytes.length ≤ payload.length := by
        rcases (route_append hroute).extends_or_starts with ⟨-, -, -, rfl, -⟩ | ⟨-, -, -, rfl⟩
        · rw [List.length_drop]
          exact Nat.sub_le _ _
        · exact le_rfl
      omega

theorem hasCapacity_of_le {env : ReassemblerSetup} {b n : Nat} (h : b + n ≤ env.memoryBudgetBytes) :
    hasCapacity env b n = true := by
  rw [hasCapacity, decide_eq_true_iff]
  omega

/-- A call never goes over the budget. -/
theorem Outcome.le_budget {env : ReassemblerSetup} {b b' : Nat} {d d' : DirectionState}
    {sequence : BitVec 32} {payload : List Byte} {status : TcpReassemblyStatus}
    (h : Outcome env b d sequence payload status d' b') (hb : b ≤ env.memoryBudgetBytes) :
    b' ≤ env.memoryBudgetBytes := by
  have hadd : ∀ n, hasCapacity env b n = true → b + n ≤ env.memoryBudgetBytes := by
    intro n hn
    rw [hasCapacity, decide_eq_true_iff, min_eq_right hb] at hn
    omega
  cases h with
  | ignored _ => exact hb
  | rejected _ => exact hb
  | queueFull _ _ => exact hb
  | repeated _ _ _ _ _ _ => exact hb
  | differs _ _ _ _ _ _ => exact hb
  | queued _ _ hcapacity _ => exact hadd _ hcapacity
  | appendFull _ _ => exact hb
  | appended _ hcapacity _ _ => exact hadd _ hcapacity

/-! ### Conflicts -/

/-- No two pending segments start at the same place. -/
def DirectionState.Distinct (d : DirectionState) : Prop :=
  (d.pending.map PendingSegment.sequence).Nodup

theorem DirectionState.Distinct.eq {d : DirectionState} (h : d.Distinct) {p q : PendingSegment}
    (hp : p ∈ d.pending) (hq : q ∈ d.pending) (heq : p.sequence = q.sequence) : p = q :=
  List.inj_on_of_nodup_map h hp hq heq

/-- A segment that is taken starts where no other one does. -/
theorem DirectionState.Distinct.round {d : DirectionState} (h : d.Distinct) {p : PendingSegment}
    {before after : List PendingSegment} (hpending : d.pending = before ++ p :: after) :
    ({ d.extend p.payload with pending := before ++ after } : DirectionState).Distinct ∧
      ∀ q ∈ before ++ after, q.sequence ≠ p.sequence := by
  rw [DirectionState.Distinct, hpending, List.map_append, List.map_cons, List.nodup_middle,
    ← List.map_append] at h
  obtain ⟨hnot, hnodup⟩ := List.nodup_cons.mp h
  refine ⟨hnodup, fun q hq heq ↦ hnot ?_⟩
  rw [← heq]
  exact List.mem_map_of_mem hq

theorem Outcome.distinct {env : ReassemblerSetup} {b b' : Nat} {d d' : DirectionState}
    {sequence : BitVec 32} {payload : List Byte} {status : TcpReassemblyStatus}
    (h : Outcome env b d sequence payload status d' b') (hstatus : status.isError = false)
    (hd : d.Distinct) : d'.Distinct := by
  refine h.invariant ?_ ?_ ?_ hstatus hd
  · intro _ _ hnew hd
    have hfresh : ∀ s ∈ d.pending.map PendingSegment.sequence, s ≠ sequence := by
      simpa using hnew
    rw [DirectionState.Distinct, List.map_append, List.nodup_append]
    refine ⟨hd, List.nodup_singleton _, ?_⟩
    intro s hs t ht
    rw [List.map_singleton, List.mem_singleton] at ht
    rw [ht]
    exact hfresh s hs
  · intro start bytes hroute _ hd
    rw [DirectionState.Distinct, DirectionState.extend, (route_append hroute).pending_eq]
    exact hd
  · intro d p before after _ hpending _ _ hd
    exact (hd.round hpending).1

/-- `AddSegment` reports a conflict for a segment that its route rejects, and for one that it
would queue if there were not a pending segment with the same start and other bytes. -/
theorem Outcome.conflict_iff {env : ReassemblerSetup} {b b' : Nat} {d d' : DirectionState}
    {sequence : BitVec 32} {payload : List Byte} {status : TcpReassemblyStatus}
    (h : Outcome env b d sequence payload status d' b') (hd : d.Distinct) :
    status = .kConflictingOverlap ↔
      route env d sequence payload = .reject ∨
        (route env d sequence payload = .queue ∧
          d.pending.length < env.config.maxOutOfOrderSegments.toNat ∧
          hasCapacity env b payload.length = true ∧
          ∃ p ∈ d.pending, p.sequence = sequence ∧ p.payload ≠ payload) := by
  cases hroute : route env d sequence payload with
  | ignore =>
      rw [(h.of_ignore hroute).1]
      simp
  | reject =>
      rw [(h.of_reject hroute).1]
      simp
  | append start bytes =>
      refine iff_of_false (fun hstatus ↦ ?_) (by simp)
      rcases h.of_append hroute with ⟨-, hs, -⟩ | ⟨-, -, hdrains, -⟩
      · cases hs.symm.trans hstatus
      · rcases hdrains.status_eq with hs | hs
        · cases hs.symm.trans hstatus
        · cases hs.symm.trans hstatus
  | queue =>
      constructor
      · intro hstatus
        rcases h.of_queue hroute with ⟨-, hs, -⟩ | ⟨hroom, hcapacity, hcases⟩
        · cases hs.symm.trans hstatus
        · rcases hcases with ⟨-, -, -, -, hs, -⟩ | ⟨p, hmem, hp, hdiffer, -⟩ | ⟨-, hs, -⟩
          · cases hs.symm.trans hstatus
          · exact .inr ⟨rfl, hroom, hcapacity, p, hmem, hp, hdiffer⟩
          · cases hs.symm.trans hstatus
      · rintro (hreject | ⟨-, hroom, hcapacity, p, hmem, hp, hdiffer⟩)
        · cases hreject
        · rcases h.of_queue_of_room hroute hroom hcapacity with
            ⟨q, hq, hsequence, hsame, -⟩ | ⟨-, -, -, -, hs, -⟩ | ⟨hnew, -⟩
          · rw [hd.eq hmem hq (hp.trans hsequence.symm)] at hdiffer
            exact absurd hsame hdiffer
          · exact hs
          · exact absurd hp (hnew p hmem)

end DpdkSpi
