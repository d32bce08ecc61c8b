import DpdkSpi.Tcp.Streams

/-!
# Accounting and bounds

`buffered_bytes_` is the number of bytes in all streams, whatever comes in: every call adds
to it what it adds to a direction, and a stream that goes takes its bytes along, so that the
saturating subtraction of `AccountRemove` never saturates.  With that the limits of the
configuration hold in every state of a run, and no access to a buffer leaves it.
-/

namespace DpdkSpi

open Lib

/-! ## Directions -/

/-- The bounds on one direction. -/
structure DirectionState.Bounded (env : ReassemblerSetup) (d : DirectionState) : Prop where
  contiguous_le : d.contiguous.length ≤ env.config.maxBufferedBytesPerDirection.toNat
  pending_le : d.pending.length ≤ env.config.maxOutOfOrderSegments.toNat
  next_eq : d.baseKnown = true →
    d.nextSequence = d.baseSequence + BitVec.ofNat 32 d.contiguous.length
  contiguous_eq : d.baseKnown = false → d.contiguous = []

theorem DirectionState.bounded_empty (env : ReassemblerSetup) :
    ({} : DirectionState).Bounded env :=
  ⟨Nat.zero_le _, Nat.zero_le _, fun h ↦ absurd h Bool.false_ne_true, fun _ ↦ rfl⟩

/-- Bytes at the end move `next_sequence` with them. -/
theorem DirectionState.next_extend {d : DirectionState} (bytes : List Byte)
    (h : d.nextSequence = d.baseSequence + BitVec.ofNat 32 d.contiguous.length) :
    (d.extend bytes).nextSequence =
      (d.extend bytes).baseSequence + BitVec.ofNat 32 (d.extend bytes).contiguous.length := by
  dsimp only [DirectionState.extend]
  rw [h, List.length_append, BitVec.add_assoc, BitVec.ofNat_add]

theorem Outcome.bounded {env : ReassemblerSetup} {b b' : Nat} {d d' : DirectionState}
    {sequence : BitVec 32} {payload : List Byte} {status : TcpReassemblyStatus}
    (h : Outcome env b d sequence payload status d' b') (hstatus : status.isError = false)
    (hd : d.Bounded env) : d'.Bounded env := by
  refine h.invariant ?_ ?_ ?_ hstatus hd
  · intro _ hroom _ hd
    refine ⟨hd.contiguous_le, ?_, hd.next_eq, hd.contiguous_eq⟩
    rw [List.length_append, List.length_singleton]
    exact hroom
  · intro start bytes hroute hroom hd
    have happends := route_append hroute
    refine ⟨?_, ?_, fun _ ↦ DirectionState.next_extend bytes ?_, fun hunknown ↦ ?_⟩
    · simpa [DirectionState.extend] using hroom
    · simpa [DirectionState.extend, happends.pending_eq] using hd.pending_le
    · rcases happends.extends_or_starts with ⟨hbase, rfl, -⟩ | ⟨hbase, -, rfl, -⟩
      · exact hd.next_eq hbase
      · simp [DirectionState.withBase, hd.contiguous_eq hbase]
    · cases happends.baseKnown.symm.trans hunknown
  · intro d p before after hknown hpending hp hroom hd
    refine ⟨?_, ?_, fun _ ↦ DirectionState.next_extend p.payload (hd.next_eq hknown), ?_⟩
    · simpa [DirectionState.extend] using hroom
    · have hle := hd.pending_le
      rw [hpending] at hle
      simp only [List.length_append, List.length_cons] at hle ⊢
      omega
    · intro hunknown
      cases hknown.symm.trans hunknown

/-! ## Accounting -/

namespace TcpStreamReassembler

/-- `buffered_bytes_` is the number of bytes in all streams. -/
def Accounted (r : TcpStreamReassembler) : Prop := r.bufferedBytes = r.streams.weight stateBytes

theorem weight_erase_streamAt (r : TcpStreamReassembler) (place : StreamPlace) :
    FinMap.weight stateBytes (r.streams.erase place) + stateBytes (r.streamAt place) =
      r.streams.weight stateBytes := by
  unfold streamAt
  cases hlookup : r.streams.lookup place with
  | none =>
      rw [FinMap.erase_of_lookup_eq_none hlookup]
      rfl
  | some state => exact FinMap.weight_erase_add stateBytes hlookup

/-- Erasing a stream whose bytes are accounted for. -/
theorem accounted_eraseStream {r : TcpStreamReassembler} {place : StreamPlace}
    {state : StreamState}
    (h : r.bufferedBytes = FinMap.weight stateBytes (r.streams.erase place) + stateBytes state) :
    (r.eraseStream place state).Accounted := by
  unfold Accounted eraseStream
  dsimp only
  rw [h]
  omega

theorem accounted_foldl_purgeStream (env : ReassemblerSetup) (now : BitVec 64)
    {entries : List ((_ : StreamPlace) × StreamState)} {r : TcpStreamReassembler}
    (hnodup : entries.NodupKeys) (hmem : ∀ e ∈ entries, r.streams.lookup e.1 = some e.2)
    (hr : r.Accounted) : (entries.foldl (purgeStream env now) r).Accounted := by
  induction entries generalizing r with
  | nil => exact hr
  | cons e entries ih =>
      obtain ⟨hnot, hnodup'⟩ := List.nodupKeys_cons.mp hnodup
      have he := hmem e List.mem_cons_self
      have hrest : ∀ f ∈ entries, r.streams.lookup f.1 = some f.2 :=
        fun f hf ↦ hmem f (List.mem_cons_of_mem e hf)
      rw [List.foldl_cons, purgeStream]
      split_ifs
      · refine ih hnodup' (fun f hf ↦ ?_) (accounted_eraseStream ?_)
        · have hne : f.1 ≠ e.1 := fun heq ↦ hnot (heq ▸ List.mem_keys_of_mem hf)
          rw [eraseStream, AList.lookup_erase_ne hne]
          exact hrest f hf
        · rw [FinMap.weight_erase_add stateBytes he]
          exact hr
      · exact ih hnodup' hrest hr

theorem Accounted.purgeExpired {r : TcpStreamReassembler} (h : r.Accounted)
    (env : ReassemblerSetup) (now : BitVec 64) : (r.purgeExpired env now).Accounted := by
  unfold TcpStreamReassembler.purgeExpired
  split_ifs
  · exact h
  · exact accounted_foldl_purgeStream env now r.streams.nodupKeys
      (fun e he ↦ FinMap.mem_entries.mp he) h

/-- The bytes of a stream change by those of the direction that is replaced. -/
theorem stateBytes_stored (env : ReassemblerSetup) (r : TcpStreamReassembler)
    (metadata : PacketMetadata) (now : BitVec 64) (d : DirectionState) :
    stateBytes (stored env r metadata now d) + (working env r metadata now).bytes =
      stateBytes (workingStream env r metadata now) + d.bytes := by
  unfold stateBytes stored working
  dsimp only
  generalize (makeKey metadata).2 = i
  match i with
  | 0 =>
      rw [Function.update_self, Function.update_of_ne (by decide)]
      omega
  | 1 =>
      rw [Function.update_self, Function.update_of_ne (by decide)]
      omega

/-- After `AddSegment` the counter is what the other streams and the new state of this one
hold, also when the segment has failed half way. -/
theorem bufferedBytes_outcome {env : ReassemblerSetup} {r : TcpStreamReassembler}
    {metadata : PacketMetadata} {payload : List Byte} {now : BitVec 64}
    {status : TcpReassemblyStatus} {d : DirectionState} {b : Nat} (h : r.Accounted)
    (houtcome : Outcome env (r.purgeExpired env now).bufferedBytes (working env r metadata now)
      (dataSequence metadata) payload status d b) :
    b = FinMap.weight stateBytes
        ((r.purgeExpired env now).streams.erase (workingPlace env r metadata now)) +
      stateBytes (stored env r metadata now d) := by
  have hpurged : (r.purgeExpired env now).bufferedBytes = _ := h.purgeExpired env now
  have hbytes := houtcome.bytes_eq
  have hstored := stateBytes_stored env r metadata now d
  have herase := weight_erase_streamAt (r.purgeExpired env now) (workingPlace env r metadata now)
  unfold workingStream at hstored
  omega

theorem Accounted.insert {r : TcpStreamReassembler} (h : r.Accounted) (env : ReassemblerSetup)
    (metadata : PacketMetadata) (payload : List Byte) (now : BitVec 64) :
    (r.insert env metadata payload now).2.Accounted := by
  obtain ⟨result, r', hinsert, hinsertion⟩ := exists_insertion env r metadata payload now
  simp only [hinsert]
  cases hinsertion with
  | skipped _ => exact h
  | refused _ _ => exact h.purgeExpired env now
  | failed _ _ houtcome _ => exact accounted_eraseStream (bufferedBytes_outcome h houtcome)
  | kept _ _ houtcome _ =>
      rw [Accounted, FinMap.weight_insert, bufferedBytes_outcome h houtcome]
      exact Nat.add_comm _ _

/-! ## The number of streams -/

theorem keys_length_purgeExpired_le (env : ReassemblerSetup) (r : TcpStreamReassembler)
    (now : BitVec 64) :
    (r.purgeExpired env now).streams.keys.length ≤ r.streams.keys.length := by
  unfold purgeExpired
  split_ifs
  · exact le_rfl
  · rw [streams_foldl_purgeStream, ← FinMap.weight_one, ← FinMap.weight_one]
    exact FinMap.weight_foldl_sweepStep_le _ _ _ _

theorem keys_length_erase_le (s : FinMap StreamPlace StreamState) (place : StreamPlace) :
    (s.erase place).keys.length ≤ s.keys.length := by
  rw [← FinMap.weight_one, ← FinMap.weight_one]
  exact FinMap.weight_erase_le _ s place

theorem keys_length_insert (s : FinMap StreamPlace StreamState) (place : StreamPlace)
    (state : StreamState) :
    (s.insert place state).keys.length = 1 + (s.erase place).keys.length := by
  rw [← FinMap.weight_one, ← FinMap.weight_one]
  exact FinMap.weight_insert _ s place state

/-- Replacing a stream adds none. -/
theorem keys_length_insert_of_mem {s : FinMap StreamPlace StreamState} {place : StreamPlace}
    {old : StreamState} (hlookup : s.lookup place = some old) (state : StreamState) :
    (s.insert place state).keys.length = s.keys.length := by
  have herase := FinMap.weight_erase_add (fun _ ↦ 1) hlookup
  rw [FinMap.weight_one, FinMap.weight_one] at herase
  rw [keys_length_insert]
  omega

/-- A stream at a place without one. -/
theorem keys_length_insert_of_not_mem {s : FinMap StreamPlace StreamState} {place : StreamPlace}
    (hlookup : s.lookup place = none) (state : StreamState) :
    (s.insert place state).keys.length = 1 + s.keys.length := by
  rw [keys_length_insert, FinMap.erase_of_lookup_eq_none hlookup]

/-- A new stream comes in where one was, or where there is room. -/
theorem keys_length_insert_le {env : ReassemblerSetup} {r : TcpStreamReassembler} {key : StreamKey}
    (hfull : r.streamTableFull env key = false)
    (hle : r.streams.keys.length ≤ env.config.maxConcurrentStreams.toNat) (state : StreamState) :
    (r.streams.insert (r.place env key) state).keys.length ≤
      env.config.maxConcurrentStreams.toNat := by
  cases hlookup : r.streams.lookup (r.place env key) with
  | some old =>
      rw [keys_length_insert_of_mem hlookup]
      exact hle
  | none =>
      have hsought : r.streams.lookup (r.soughtPlace env key) = none := by
        by_contra hsome
        rw [place, if_pos (Option.isSome_iff_ne_none.mpr hsome)] at hlookup
        exact hsome hlookup
      have hroom : r.streams.keys.length < env.config.maxConcurrentStreams.toNat := by
        simpa [streamTableFull, hsought] using hfull
      rw [keys_length_insert_of_not_mem hlookup]
      omega

/-! ## The invariant -/

/-- The accounting and all limits of the configuration. -/
structure Bounded (env : ReassemblerSetup) (r : TcpStreamReassembler) : Prop where
  accounted : r.Accounted
  budget : r.bufferedBytes ≤ env.memoryBudgetBytes
  streams_le : r.streams.keys.length ≤ env.config.maxConcurrentStreams.toNat
  directions : Everywhere (fun _ _ d ↦ d.Bounded env) r

theorem bounded_empty (env : ReassemblerSetup) : Bounded env {} :=
  ⟨rfl, Nat.zero_le _, Nat.zero_le _, everywhere_empty⟩

theorem bufferedBytes_purgeExpired_le {r : TcpStreamReassembler} (h : r.Accounted)
    (env : ReassemblerSetup) (now : BitVec 64) :
    (r.purgeExpired env now).bufferedBytes ≤ r.bufferedBytes := by
  have hpurged : (r.purgeExpired env now).bufferedBytes = _ := h.purgeExpired env now
  rw [hpurged, h]
  unfold purgeExpired
  split_ifs
  · exact le_rfl
  · rw [streams_foldl_purgeStream]
    exact FinMap.weight_foldl_sweepStep_le _ _ _ _

theorem Bounded.purgeExpired {env : ReassemblerSetup} {r : TcpStreamReassembler}
    (h : Bounded env r) (now : BitVec 64) : Bounded env (r.purgeExpired env now) where
  accounted := h.accounted.purgeExpired env now
  budget := (bufferedBytes_purgeExpired_le h.accounted env now).trans h.budget
  streams_le := (keys_length_purgeExpired_le env r now).trans h.streams_le
  directions := h.directions.purgeExpired now

theorem Bounded.insert {env : ReassemblerSetup} {r : TcpStreamReassembler} (h : Bounded env r)
    (metadata : PacketMetadata) (payload : List Byte) (now : BitVec 64) :
    Bounded env (r.insert env metadata payload now).2 := by
  have hpurged := h.purgeExpired now
  have haccounted := h.accounted.insert env metadata payload now
  have hdirections : Everywhere (fun _ _ d ↦ d.Bounded env)
      (r.insert env metadata payload now).2 :=
    h.directions.insert (fun _ _ ↦ DirectionState.bounded_empty env)
      fun _ _ _ _ _ houtcome herror hd ↦ houtcome.bounded herror hd
  obtain ⟨result, r', hinsert, hinsertion⟩ := exists_insertion env r metadata payload now
  simp only [hinsert] at haccounted hdirections ⊢
  cases hinsertion with
  | skipped _ => exact h
  | refused _ _ =>
      exact ⟨haccounted, hpurged.budget, hpurged.streams_le, hdirections⟩
  | failed _ _ houtcome _ =>
      refine ⟨haccounted, ?_, ?_, hdirections⟩
      · exact (Nat.sub_le _ _).trans (houtcome.le_budget hpurged.budget)
      · exact (keys_length_erase_le _ _).trans hpurged.streams_le
  | kept _ hfull houtcome _ =>
      refine ⟨haccounted, houtcome.le_budget hpurged.budget, ?_, hdirections⟩
      rw [← workingPlace_of_room hfull]
      exact keys_length_insert_le hfull hpurged.streams_le _

/-- The accounting is exact and the limits hold in every state of a run. -/
theorem bounded_of_reach {env : ReassemblerSetup} {r : TcpStreamReassembler}
    (h : (reassembly env).Reach r) : Bounded env r := by
  refine h.invariant ?_ ?_
  · rintro r rfl
    exact bounded_empty env
  · rintro r op r' hr rfl
    cases op with
    | insert metadata payload now => exact hr.insert metadata payload now
    | purge now => exact hr.purgeExpired now

end TcpStreamReassembler

/-! ## Accesses

The functions that read ranges of buffers, with every access checked: `none` stands for a
range that leaves its buffer, or for a negation that overflows. -/

/-- `subspan(offset)`, defined up to the end of the span. -/
def subspanChecked (payload : List Byte) (offset : Nat) : Option (List Byte) :=
  if offset ≤ payload.length then some (payload.drop offset) else none

/-- `std::equal` of the first `count` bytes of `lhs` and those of `rhs` from `begin` on, defined
when both ranges are inside. -/
def equalChecked (lhs : List Byte) (count : Nat) (rhs : List Byte) (begin : Nat) : Option Bool :=
  if count ≤ lhs.length ∧ begin + count ≤ rhs.length then
    some (lhs.take count = (rhs.drop begin).take count)
  else none

/-- The negation of an `std::int32_t`. -/
def negateChecked (x : Int) : Option Int := if x = -2 ^ 31 then none else some (-x)

/-- `VerifyOverlap` with its accesses checked. -/
def verifyOverlapChecked (env : ReassemblerSetup) (direction : DirectionState)
    (sequence : BitVec 32) (payload : List Byte) : Option TcpReassemblyStatus :=
  let offset := sequenceDistance sequence direction.baseSequence
  if offset < 0 then some (conflictStatus env)
  else
    let begin := offset.toNat
    if direction.contiguous.length ≤ begin then some .kWaiting
    else do
      let overlap := min payload.length (direction.contiguous.length - begin)
      let same ← equalChecked payload overlap direction.contiguous begin
      if same then some .kWaiting else some (conflictStatus env)

/-- `AddSegment` with its accesses checked. -/
def addSegmentChecked (env : ReassemblerSetup) (bufferedBytes : Nat) (direction : DirectionState)
    (sequence : BitVec 32) (payload : List Byte) :
    Option (TcpReassemblyStatus × DirectionState × Nat) :=
  if payload.isEmpty then some (.kWaiting, direction, bufferedBytes)
  else if !direction.baseKnown && !isStreamStart payload then
    some (queuePending env bufferedBytes direction sequence payload)
  else
    let direction := if direction.baseKnown then direction else direction.withBase sequence
    let distance := sequenceDistance sequence direction.nextSequence
    if distance = 0 then some (appendAndDrain env bufferedBytes direction sequence payload)
    else if 0 < distance then some (queuePending env bufferedBytes direction sequence payload)
    else do
      let overlap ← verifyOverlapChecked env direction sequence payload
      if overlap = .kConflictingOverlap then some (.kConflictingOverlap, direction, bufferedBytes)
      else if sequenceDistance (sequence + BitVec.ofNat 32 payload.length)
          direction.nextSequence ≤ 0 then
        some (.kWaiting, direction, bufferedBytes)
      else do
        let trim ← negateChecked distance
        let rest ← subspanChecked payload trim.toNat
        some (appendAndDrain env bufferedBytes direction direction.nextSequence rest)

theorem verifyOverlapChecked_eq (env : ReassemblerSetup) (direction : DirectionState)
    (sequence : BitVec 32) (payload : List Byte) :
    verifyOverlapChecked env direction sequence payload =
      some (verifyOverlap env direction sequence payload) := by
  unfold verifyOverlapChecked verifyOverlap
  dsimp only
  split_ifs with hoffset hbegin hsame
  · rfl
  · rfl
  · rw [equalChecked, if_pos ⟨Nat.min_le_left _ _, by omega⟩]
    simp [hsame]
  · rw [equalChecked, if_pos ⟨Nat.min_le_left _ _, by omega⟩]
    simp [hsame]

theorem addSegmentChecked_eq (env : ReassemblerSetup) (b : Nat) (d : DirectionState)
    (sequence : BitVec 32) {payload : List Byte} (hlength : payload.length < 2 ^ 31) :
    addSegmentChecked env b d sequence payload = some (addSegment env b d sequence payload) := by
  unfold addSegmentChecked addSegment
  dsimp only
  generalize (if d.baseKnown = true then d else d.withBase sequence) = e
  simp only [verifyOverlapChecked_eq, Option.bind_eq_bind, Option.bind_some]
  split_ifs with hempty hqueue hzero hpos hconflict hend
  · rfl
  · rfl
  · rfl
  · rfl
  · rfl
  · rfl
  · have hneg : sequenceDistance sequence e.nextSequence < 0 := by omega
    have hshift := sequenceDistance_add_of_neg hlength hneg
    have hnegate : negateChecked (sequenceDistance sequence e.nextSequence) =
        some (-sequenceDistance sequence e.nextSequence) :=
      if_neg (by omega)
    have hsubspan : subspanChecked payload (-sequenceDistance sequence e.nextSequence).toNat =
        some (payload.drop (-sequenceDistance sequence e.nextSequence).toNat) :=
      if_pos (by omega)
    rw [hnegate, Option.bind_some, hsubspan, Option.bind_some]

/-- In every state of a run `buffered_bytes_` is exactly what the streams hold, and the limits
on memory, streams, contiguous bytes and pending segments hold.  No packet of up to
65536 bytes, whatever it says, makes `AddSegment` leave a buffer. -/
theorem reassembler_accounting_and_bounds (env : ReassemblerSetup) {r : TcpStreamReassembler}
    (h : (reassembly env).Reach r) :
    r.bufferedBytes = r.streams.weight stateBytes ∧ r.bufferedBytes ≤ env.memoryBudgetBytes ∧
      r.streams.keys.length ≤ env.config.maxConcurrentStreams.toNat ∧
      (∀ place state, r.streams.lookup place = some state → ∀ i,
        (state.directions i).contiguous.length ≤
            env.config.maxBufferedBytesPerDirection.toNat ∧
          (state.directions i).pending.length ≤ env.config.maxOutOfOrderSegments.toNat ∧
          ((state.directions i).baseKnown = true →
            (state.directions i).nextSequence = (state.directions i).baseSequence +
              BitVec.ofNat 32 (state.directions i).contiguous.length)) ∧
      ∀ metadata payload now, payload.length ≤ 65536 →
        addSegmentChecked env (r.purgeExpired env now).bufferedBytes (r.working env metadata now)
            (TcpStreamReassembler.dataSequence metadata) payload =
          some (addSegment env (r.purgeExpired env now).bufferedBytes (r.working env metadata now)
            (TcpStreamReassembler.dataSequence metadata) payload) := by
  have hbounded := TcpStreamReassembler.bounded_of_reach h
  refine ⟨hbounded.accounted, hbounded.budget, hbounded.streams_le, ?_, ?_⟩
  · intro place state hlookup i
    have hd := hbounded.directions place state hlookup i
    exact ⟨hd.contiguous_le, hd.pending_le, hd.next_eq⟩
  · intro metadata payload now hlength
    exact addSegmentChecked_eq env _ _ _ (by omega)

/-- A stream that expires, and one of which a segment comes early and is drained before another
one comes early. -/
def boundedOps : List ReassemblerOp :=
  [.insert (otherClientSegment 0) (asciiBytes "PUT ") 0,
    .insert (clientSegment 0) (asciiBytes "GET ") 20,
    .insert (clientSegment 6) (asciiBytes "cd") 21, .insert (clientSegment 4) (asciiBytes "ab") 22,
    .insert (clientSegment 10) (asciiBytes "gh") 23, .purge 70]

/-- The reassembler after them. -/
def boundedRun : TcpStreamReassembler :=
  boundedOps.foldl (TcpStreamReassembler.apply defaultSetup) {}

theorem reassembler_accounting_and_bounds_purged :
    let state := (boundedRun.streams.lookup clientPlace).get (by decide +kernel)
    ((state.directions 0).contiguous.length = 8 ∧ (state.directions 0).pending.length = 1 ∧
        boundedRun.streams.keys.length = 1 ∧ boundedRun.bufferedBytes = 10) ∧
      boundedRun.bufferedBytes = boundedRun.streams.weight stateBytes ∧
      boundedRun.bufferedBytes ≤ 256 * kBytesPerMiB ∧
      (state.directions 0).nextSequence = (state.directions 0).baseSequence +
        BitVec.ofNat 32 (state.directions 0).contiguous.length := by
  have hreach : (reassembly defaultSetup).Reach boundedRun :=
    (System.Reach.foldl (C := fun _ _ ↦ True) (.init rfl) boundedOps
      ⟨trivial, trivial, trivial, trivial, trivial, trivial, trivial⟩).of_restrict
  obtain ⟨hbytes, hbudget, -, hstreams, -⟩ :=
    reassembler_accounting_and_bounds defaultSetup hreach
  refine ⟨⟨by decide +kernel, by decide +kernel, by decide +kernel, by decide +kernel⟩, hbytes,
    hbudget, ?_⟩
  exact (hstreams clientPlace _ (Option.some_get _).symm 0).2.2 (by decide +kernel)

end DpdkSpi
