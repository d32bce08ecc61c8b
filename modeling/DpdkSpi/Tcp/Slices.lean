import DpdkSpi.Lib.Slice
import DpdkSpi.Tcp.Streams

/-!
# Segments of one byte stream

A sender cuts a byte string into segments, with any overlaps, and they come in any order and
any number of times.  What a direction holds is then made of slices of that string, at the
places their sequence numbers say, also across the point where the numbers wrap around.
-/

namespace DpdkSpi

open Lib

/-- The segment is a slice of `stream`, whose first byte has the sequence number `isn`. -/
def SliceAt (stream : List Byte) (isn sequence : BitVec 32) (payload : List Byte) : Prop :=
  ∃ offset, sequence = Serial.nth isn offset ∧ Slice stream offset payload

/-- The contiguous part is the slice of `stream` from `base` on. -/
structure DirectionState.StandsAt (stream : List Byte) (isn : BitVec 32) (base : Nat)
    (d : DirectionState) : Prop where
  known : d.baseKnown = true
  base_eq : d.baseSequence = Serial.nth isn base
  next_eq : d.nextSequence = Serial.nth isn (base + d.contiguous.length)
  slice : Slice stream base d.contiguous

/-- A direction that only holds slices of `stream`. -/
structure DirectionState.SlicesOf (stream : List Byte) (isn : BitVec 32) (d : DirectionState) :
    Prop where
  pending : ∀ p ∈ d.pending, SliceAt stream isn p.sequence p.payload
  stands : d.baseKnown = true → ∃ base, d.StandsAt stream isn base
  empty : d.baseKnown = false → d.contiguous = []

theorem DirectionState.slicesOf_empty (stream : List Byte) (isn : BitVec 32) :
    ({} : DirectionState).SlicesOf stream isn where
  pending _ hp := absurd hp List.not_mem_nil
  stands h := absurd h Bool.false_ne_true
  empty _ := rfl

section

variable {stream : List Byte} {isn : BitVec 32} {env : ReassemblerSetup}

/-- Sequence numbers of places in a stream are as far apart as the places. -/
theorem sequenceDistance_nth (hstream : stream.length < 2 ^ 31) {m n : Nat}
    (hm : m ≤ stream.length) (hn : n ≤ stream.length) :
    sequenceDistance (Serial.nth isn m) (Serial.nth isn n) = m - n :=
  Serial.distance_nth (by decide) isn (by omega) (by omega)

theorem nth_eq_iff (hstream : stream.length < 2 ^ 31) {m n : Nat} (hm : m ≤ stream.length)
    (hn : n ≤ stream.length) : Serial.nth isn m = Serial.nth isn n ↔ m = n :=
  Serial.nth_inj (by decide) (by omega) (by omega)

theorem DirectionState.StandsAt.extend {d : DirectionState} {base : Nat} {bytes : List Byte}
    (h : d.StandsAt stream isn base) (hbytes : Slice stream (base + d.contiguous.length) bytes) :
    (d.extend bytes).StandsAt stream isn base where
  known := h.known
  base_eq := h.base_eq
  next_eq := by
    dsimp only [DirectionState.extend]
    rw [h.next_eq, Serial.nth_add, List.length_append, Nat.add_assoc]
  slice := h.slice.append hbytes

theorem DirectionState.StandsAt.withPending {d : DirectionState} {base : Nat}
    (h : d.StandsAt stream isn base) (pending : List PendingSegment) :
    ({ d with pending } : DirectionState).StandsAt stream isn base :=
  ⟨h.known, h.base_eq, h.next_eq, h.slice⟩

theorem DirectionState.StandsAt.base_unique {d : DirectionState} {base base' : Nat}
    (hstream : stream.length < 2 ^ 31) (h : d.StandsAt stream isn base)
    (h' : d.StandsAt stream isn base') : base = base' := by
  have hbound := h.slice.bound
  have hbound' := h'.slice.bound
  exact (nth_eq_iff hstream (by omega) (by omega)).mp (h.base_eq.symm.trans h'.base_eq)

/-- A segment that is appended starts where the contiguous part ends or before; without what
is there already it starts exactly there. -/
theorem DirectionState.SlicesOf.appends {d start : DirectionState} {offset : Nat}
    {payload bytes : List Byte} (hstream : stream.length < 2 ^ 31) (hd : d.SlicesOf stream isn)
    (hslice : Slice stream offset payload)
    (hroute : route env d (Serial.nth isn offset) payload = .append start bytes) :
    ∃ base, start.StandsAt stream isn base ∧
      Slice stream (base + start.contiguous.length) bytes ∧
      offset ≤ base + start.contiguous.length ∧
      base + start.contiguous.length + bytes.length = offset + payload.length := by
  rcases (route_append hroute).extends_or_starts with
    ⟨hknown, rfl, hle, rfl, hend⟩ | ⟨hunknown, -, rfl, rfl⟩
  · obtain ⟨base, hstands⟩ := hd.stands hknown
    have hbound := hslice.bound
    have hbase := hstands.slice.bound
    rw [hstands.next_eq, sequenceDistance_nth hstream (by omega) hbase] at hle ⊢
    rw [hstands.next_eq, Serial.nth_add, sequenceDistance_nth hstream (by omega) hbase,
      sequenceDistance_nth hstream hbound hbase] at hend
    have htrim := hslice.drop
      (n := (-((offset : Int) - (base + start.contiguous.length : Nat))).toNat) (by omega)
    rw [show offset + (-((offset : Int) - (base + start.contiguous.length : Nat))).toNat =
      base + start.contiguous.length by omega] at htrim
    refine ⟨base, hstands, htrim, by omega, ?_⟩
    rw [List.length_drop]
    omega
  · have hempty := hd.empty hunknown
    refine ⟨offset, ⟨rfl, rfl, ?_, ?_⟩, ?_, Nat.le_add_right _ _, ?_⟩
    · simp [DirectionState.withBase, hempty]
    · rw [DirectionState.withBase, hempty]
      exact Slice.nil (by have := hslice.bound; omega)
    · simpa [DirectionState.withBase, hempty] using hslice
    · simp [DirectionState.withBase, hempty]

/-- A pending segment that starts at `next_sequence` continues the contiguous part. -/
theorem DirectionState.StandsAt.continues {d : DirectionState} {base : Nat} {p : PendingSegment}
    (hstream : stream.length < 2 ^ 31) (hstands : d.StandsAt stream isn base)
    (hp : SliceAt stream isn p.sequence p.payload) (hnext : p.sequence = d.nextSequence) :
    Slice stream (base + d.contiguous.length) p.payload := by
  obtain ⟨offset, hsequence, hslice⟩ := hp
  rw [hsequence, hstands.next_eq,
    nth_eq_iff hstream (by have := hslice.bound; omega) hstands.slice.bound] at hnext
  rwa [← hnext]

/-- Slices lead to slices. -/
theorem Outcome.slicesOf {b b' : Nat} {d d' : DirectionState} {sequence : BitVec 32}
    {payload : List Byte} {status : TcpReassemblyStatus} (hstream : stream.length < 2 ^ 31)
    (h : Outcome env b d sequence payload status d' b') (hstatus : status.isError = false)
    (hpayload : SliceAt stream isn sequence payload) (hd : d.SlicesOf stream isn) :
    d'.SlicesOf stream isn := by
  refine h.invariant ?_ ?_ ?_ hstatus hd
  · intro _ _ _ hd
    refine ⟨fun p hp ↦ ?_, fun hknown ↦ ?_, hd.empty⟩
    · rcases List.mem_append.mp hp with hp | hp
      · exact hd.pending p hp
      · rw [List.mem_singleton.mp hp]
        exact hpayload
    · obtain ⟨base, hstands⟩ := hd.stands hknown
      exact ⟨base, hstands.withPending _⟩
  · intro start bytes hroute _ hd
    obtain ⟨offset, rfl, hslice⟩ := hpayload
    obtain ⟨base, hstands, hbytes, -⟩ := hd.appends hstream hslice hroute
    refine ⟨fun p hp ↦ hd.pending p ?_, fun _ ↦ ⟨base, hstands.extend hbytes⟩, fun hunknown ↦ ?_⟩
    · rw [← (route_append hroute).pending_eq]
      exact hp
    · cases hstands.known.symm.trans hunknown
  · intro d p before after hknown hpending hp _ hd
    obtain ⟨base, hstands⟩ := hd.stands hknown
    have hmem := fun q ↦ DirectionState.mem_pending_iff (q := q) hpending
    have hslice := hd.pending p ((hmem p).mpr (.inl rfl))
    have hmoved := hstands.extend (hstands.continues hstream hslice hp)
    refine ⟨fun q hq ↦ hd.pending q ((hmem q).mpr (.inr hq)),
      fun _ ↦ ⟨base, hmoved.withPending _⟩, fun hunknown ↦ ?_⟩
    cases hknown.symm.trans hunknown

end

/-! ## Runs -/

/-- Every segment of one direction of a connection is a slice of `stream`; whatever else comes
is free. -/
def SlicesOnly (stream : List Byte) (isn : BitVec 32) (key : StreamKey) (i : Fin 2) :
    TcpStreamReassembler → ReassemblerOp → Prop
  | _, .insert metadata payload _ => metadata.protocol = .kTcp → makeKey metadata = (key, i) →
      SliceAt stream isn (TcpStreamReassembler.dataSequence metadata) payload
  | _, .purge _ => True

theorem slicesOf_of_reach {env : ReassemblerSetup} {stream : List Byte} {isn : BitVec 32}
    {key : StreamKey} {i : Fin 2} (hstream : stream.length < 2 ^ 31) {r : TcpStreamReassembler}
    (h : ((reassembly env).restrict (SlicesOnly stream isn key i)).Reach r) :
    r.Everywhere fun key' i' d ↦ key' = key → i' = i → d.SlicesOf stream isn := by
  refine everywhere_of_reach (fun _ _ _ _ ↦ DirectionState.slicesOf_empty stream isn) ?_ h
  intro r metadata payload now b b' d status hslice _ hinspects houtcome hstatus hd hkey hi
  have hpayload := hslice hinspects.2 (Prod.ext hkey hi)
  exact houtcome.slicesOf hstream hstatus hpayload (hd hkey hi)

/-- The direction that the next segment is added to. -/
theorem slicesOf_working {env : ReassemblerSetup} {stream : List Byte} {isn : BitVec 32}
    {key : StreamKey} {i : Fin 2} (hstream : stream.length < 2 ^ 31) {r : TcpStreamReassembler}
    (h : ((reassembly env).restrict (SlicesOnly stream isn key i)).Reach r)
    {metadata : PacketMetadata} (hkey : makeKey metadata = (key, i)) (now : BitVec 64) :
    (r.working env metadata now).SlicesOf stream isn :=
  (slicesOf_of_reach hstream h).working (fun _ _ _ _ ↦ DirectionState.slicesOf_empty stream isn)
    metadata now (congrArg Prod.fst hkey) (congrArg Prod.snd hkey)

/-- If every segment of a direction is a slice of `stream`, then in every state of a run the
pending segments of every stream of the connection are slices, and the contiguous part is the slice
from the base on. -/
theorem reassembled_bytes_are_the_stream {env : ReassemblerSetup} {stream : List Byte}
    {isn : BitVec 32} {key : StreamKey} {i : Fin 2} (hstream : stream.length < 2 ^ 31)
    {r : TcpStreamReassembler}
    (h : ((reassembly env).restrict (SlicesOnly stream isn key i)).Reach r) {place : StreamPlace}
    (hplace : place.key = key) {state : StreamState}
    (hstate : r.streams.lookup place = some state) :
    (∀ p ∈ (state.directions i).pending, ∃ o,
        p.sequence = isn + BitVec.ofNat 32 o ∧ o + p.payload.length ≤ stream.length ∧
        p.payload = (stream.drop o).take p.payload.length) ∧
      ((state.directions i).baseKnown = true → ∃ b,
        (state.directions i).baseSequence = isn + BitVec.ofNat 32 b ∧
        b + (state.directions i).contiguous.length ≤ stream.length ∧
        (state.directions i).contiguous =
          (stream.drop b).take (state.directions i).contiguous.length) := by
  have hslices := slicesOf_of_reach hstream h place state hstate i hplace rfl
  constructor
  · intro p hp
    obtain ⟨o, hsequence, hslice⟩ := hslices.pending p hp
    exact ⟨o, hsequence, hslice.bound, hslice.eq.symm⟩
  · intro hknown
    obtain ⟨b, hstands⟩ := hslices.stands hknown
    exact ⟨b, hstands.base_eq, hstands.slice.bound, hstands.slice.eq.symm⟩

/-- Two segments that overlap, of a stream whose sequence numbers wrap around in the first one. -/
def wrappedOps : List ReassemblerOp :=
  [.insert (clientSegment 0xfffffffe) (asciiBytes "GET /") 0,
    .insert (clientSegment 1) (asciiBytes " /a b") 1]

/-- The reassembler after them. -/
def wrappedRun : TcpStreamReassembler :=
  wrappedOps.foldl (TcpStreamReassembler.apply defaultSetup) {}

/-- The stream of the client in `wrappedRun`. -/
def wrappedState : StreamState :=
  (wrappedRun.streams.lookup clientPlace).get (by decide +kernel)

theorem reassembled_bytes_are_the_stream_wrapped :
    (wrappedState.directions 0).contiguous.length = 8 ∧
      ∃ b, (wrappedState.directions 0).baseSequence = 0xfffffffe + BitVec.ofNat 32 b ∧
        b + (wrappedState.directions 0).contiguous.length ≤ (asciiBytes "GET /a b").length ∧
        (wrappedState.directions 0).contiguous = ((asciiBytes "GET /a b").drop b).take
          (wrappedState.directions 0).contiguous.length := by
  refine ⟨by decide +kernel, ?_⟩
  have hreach : ((reassembly defaultSetup).restrict (SlicesOnly (asciiBytes "GET /a b")
      0xfffffffe clientStreamKey 0)).Reach wrappedRun :=
    System.Reach.foldl (.init rfl) wrappedOps
      ⟨fun _ _ ↦ ⟨0, by decide, by decide, by decide⟩,
        fun _ _ ↦ ⟨3, by decide, by decide, by decide⟩, trivial⟩
  have hplace : clientPlace.key = clientStreamKey := rfl
  have hstate : wrappedRun.streams.lookup clientPlace = some wrappedState :=
    (Option.some_get _).symm
  exact (reassembled_bytes_are_the_stream (by decide) hreach hplace hstate).2 (by decide +kernel)

end DpdkSpi
