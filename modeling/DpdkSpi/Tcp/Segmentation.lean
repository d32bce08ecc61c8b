import DpdkSpi.Lib.Pieces
import DpdkSpi.Tcp.Single

/-!
# Segments in order

A request that is sent in order, cut anywhere.  `IsStreamStart` looks at one segment at a
time, so what is recognised depends on the cut: the segments up to the first one that looks
like a start stay pending for good, and the contiguous part is what follows them.
-/

namespace DpdkSpi

open Lib TcpStreamReassembler

/-- The segments follow each other, the first one at position `n`. -/
def InOrder (isn : BitVec 32) : (n : Nat) → List Arrival → Prop
  | _, [] => True
  | n, a :: arrivals =>
      dataSequence a.metadata = Serial.nth isn n ∧ InOrder isn (n + a.payload.length) arrivals

/-- The bytes of the segments. -/
def payloads (arrivals : List Arrival) : List (List Byte) := arrivals.map Arrival.payload

/-- A segment stands behind those before it. -/
theorem InOrder.sequence_eq {isn : BitVec 32} {n : Nat} {seen rest : List Arrival} {a : Arrival}
    (h : InOrder isn n (seen ++ a :: rest)) :
    dataSequence a.metadata = Serial.nth isn (n + (payloads seen).flatten.length) := by
  induction seen generalizing n with
  | nil => exact h.1
  | cons s seen ih =>
      rw [ih h.2, payloads, payloads, List.map_cons, List.flatten_cons, List.length_append,
        Nat.add_assoc]

/-- The limits leave room for segments that come in order, beside `others` bytes. -/
structure AmpleInOrder (env : ReassemblerSetup) (others : Nat) (pieces : List (List Byte)) :
    Prop where
  buffered : pieces.flatten.length ≤ env.config.maxBufferedBytesPerDirection.toNat
  segments : pieces.length ≤ env.config.maxOutOfOrderSegments.toNat
  memory : others + pieces.flatten.length ≤ env.memoryBudgetBytes

/-- After the segments `seen`: those before the first start are pending, the others are the
contiguous part. -/
structure Split (isn : BitVec 32) (first : List Byte) (seen : List Arrival)
    (skipped taken : List (List Byte)) (d : DirectionState) : Prop where
  seen_eq : payloads seen = skipped ++ taken
  pending_eq : d.pending = (placed 0 skipped).map fun a ↦ ⟨Serial.nth isn a.1, a.2⟩
  contiguous_eq : d.contiguous = taken.flatten
  known : d.baseKnown = true →
    seen ≠ [] ∧ d.nextSequence = Serial.nth isn (payloads seen).flatten.length
  unknown : d.baseKnown = false → taken = []
  skipped_iff : seen ≠ [] → (skipped = [] ↔ isStreamStart first = true)

section

variable {env : ReassemblerSetup} {isn : BitVec 32} {first : List Byte} {seen : List Arrival}
  {skipped taken : List (List Byte)} {d : DirectionState}

theorem Split.bytes_eq (h : Split isn first seen skipped taken d) :
    d.bytes = (payloads seen).flatten.length := by
  have hpending : (d.pending.map fun p ↦ p.payload.length).sum = skipped.flatten.length := by
    rw [h.pending_eq, List.map_map, ← sum_length_placed 0 skipped]
    rfl
  rw [DirectionState.bytes, hpending, h.contiguous_eq, h.seen_eq, List.flatten_append,
    List.length_append, Nat.add_comm]

/-- Pending segments start before the position of the next one. -/
theorem Split.pending_ne (h : Split isn first seen skipped taken d)
    (hnonempty : ∀ p ∈ skipped, p ≠ []) {n : Nat} (hn : (payloads seen).flatten.length ≤ n)
    (hshort : n < 2 ^ 32) : ∀ p ∈ d.pending, p.sequence ≠ Serial.nth isn n := by
  intro p hp heq
  rw [h.pending_eq] at hp
  obtain ⟨a, ha, rfl⟩ := List.mem_map.mp hp
  have hbound := (slice_of_mem_placed ha).bound
  have hpos := List.length_pos_of_ne_nil (hnonempty a.2 (mem_of_mem_placed ha))
  have hseen : skipped.flatten.length ≤ (payloads seen).flatten.length := by
    rw [h.seen_eq, List.flatten_append, List.length_append]
    exact Nat.le_add_right _ _
  have := (Serial.nth_inj_of_lt (by omega) hshort).mp heq
  omega

theorem payloads_append (a : Arrival) : payloads (seen ++ [a]) = payloads seen ++ [a.payload] := by
  rw [payloads, List.map_append]
  rfl

/-- The next segment is appended. -/
theorem Split.appended (h : Split isn first seen skipped taken d) {a : Arrival}
    {start : DirectionState} (hcontiguous : start.contiguous = d.contiguous)
    (hpending : start.pending = d.pending) (hknown : start.baseKnown = true)
    (hnext : start.nextSequence = Serial.nth isn (payloads seen).flatten.length)
    (hfirst : seen = [] → isStreamStart first = true) :
    Split isn first (seen ++ [a]) skipped (taken ++ [a.payload]) (start.extend a.payload) where
  seen_eq := by rw [payloads_append, h.seen_eq, List.append_assoc]
  pending_eq := hpending.trans h.pending_eq
  contiguous_eq := by
    rw [DirectionState.extend, hcontiguous, h.contiguous_eq, List.flatten_append]
    simp
  known _ := by
    refine ⟨by simp, ?_⟩
    rw [payloads_append, DirectionState.extend, hnext, Serial.nth_add]
    simp
  unknown hunknown := by cases hknown.symm.trans hunknown
  skipped_iff _ := by
    by_cases hseen : seen = []
    · have hskipped : skipped = [] := by
        have heq := h.seen_eq
        rw [hseen] at heq
        exact (List.append_eq_nil_iff.mp heq.symm).1
      exact iff_of_true hskipped (hfirst hseen)
    · exact h.skipped_iff hseen

/-- The next segment is queued, as those before it. -/
theorem Split.queued (h : Split isn first seen skipped taken d) {a : Arrival}
    (hunknown : d.baseKnown = false) (hfirst : seen = [] → isStreamStart first = false) :
    Split isn first (seen ++ [a]) (skipped ++ [a.payload]) []
      { d with pending := d.pending ++
        [⟨Serial.nth isn (payloads seen).flatten.length, a.payload⟩] } where
  seen_eq := by
    rw [payloads_append, h.seen_eq, h.unknown hunknown, List.append_nil, List.append_nil]
  pending_eq := by
    have hseen := h.seen_eq
    rw [h.unknown hunknown, List.append_nil] at hseen
    rw [h.pending_eq, placed_append, List.map_append, hseen, Nat.zero_add]
    rfl
  contiguous_eq := by
    rw [h.contiguous_eq, h.unknown hunknown]
  known hknown := by cases hknown.symm.trans hunknown
  unknown _ := rfl
  skipped_iff _ := by
    refine iff_of_false (by simp) fun hstart ↦ ?_
    by_cases hseen : seen = []
    · cases (hfirst hseen).symm.trans hstart
    · have hskipped := (h.skipped_iff hseen).mpr hstart
      have heq := h.seen_eq
      rw [hskipped, h.unknown hunknown] at heq
      exact hseen (List.map_eq_nil_iff.mp heq)

/-- Without anything to drain, a segment with room is just appended. -/
theorem Split.append_outcome {a : Arrival} {start d' : DirectionState} {b b' : Nat}
    {status : TcpReassemblyStatus} {sequence : BitVec 32}
    (hroute : route env d sequence a.payload = .append start a.payload)
    (hcapacity : hasCapacity env b a.payload.length = true)
    (hroom : start.contiguous.length + a.payload.length ≤
      env.config.maxBufferedBytesPerDirection.toNat)
    (hnone : ∀ p ∈ start.pending,
      p.sequence ≠ start.nextSequence + BitVec.ofNat 32 a.payload.length)
    (houtcome : Outcome env b d sequence a.payload status d' b') :
    status.isError = false ∧ d' = start.extend a.payload := by
  obtain ⟨rfl, rfl⟩ := (houtcome.drains_of_room hroute hcapacity hroom).of_none hnone
  exact ⟨rfl, rfl⟩

/-- Where there is room for all segments there is room for the next one. -/
theorem Split.room (h : Split isn first seen skipped taken d) {a : Arrival} {others b : Nat}
    (hample : AmpleInOrder env others (payloads (seen ++ [a]))) (hb : b ≤ others + d.bytes) :
    hasCapacity env b a.payload.length = true ∧
      d.contiguous.length + a.payload.length ≤
        env.config.maxBufferedBytesPerDirection.toNat ∧
      d.pending.length < env.config.maxOutOfOrderSegments.toNat ∧
      (payloads seen).flatten.length + a.payload.length < 2 ^ 32 := by
  have hbuffered := hample.buffered
  have hmemory := hample.memory
  have hsegments := hample.segments
  have hlength : (payloads seen ++ [a.payload]).flatten.length =
      (payloads seen).flatten.length + a.payload.length := by
    rw [List.flatten_append, List.length_append, List.flatten_singleton]
  rw [payloads_append, hlength] at hbuffered hmemory
  rw [payloads_append, List.length_append, List.length_singleton] at hsegments
  have hwidth := env.config.maxBufferedBytesPerDirection.isLt
  have hbytes := h.bytes_eq
  have hcontiguous : d.contiguous.length ≤ d.bytes := Nat.le_add_right _ _
  have hpending : d.pending.length ≤ (payloads seen).length := by
    rw [h.pending_eq, List.length_map, length_placed, h.seen_eq, List.length_append]
    exact Nat.le_add_right _ _
  exact ⟨hasCapacity_of_le (by omega), by omega, by omega, by omega⟩

/-- The next segment in order is taken. -/
theorem Split.step (h : Split isn first seen skipped taken d) {a : Arrival}
    (hnonempty : ∀ p ∈ payloads (seen ++ [a]), p ≠ []) (hfirst : seen = [] → a.payload = first)
    {others b b' : Nat} {d' : DirectionState} {status : TcpReassemblyStatus}
    (hample : AmpleInOrder env others (payloads (seen ++ [a]))) (hb : b ≤ others + d.bytes)
    (houtcome : Outcome env b d (Serial.nth isn (payloads seen).flatten.length) a.payload status
      d' b') :
    status.isError = false ∧
      ∃ skipped' taken', Split isn first (seen ++ [a]) skipped' taken' d' := by
  obtain ⟨hcapacity, hbuffered, hroom, hshort⟩ := h.room hample hb
  rw [payloads_append] at hnonempty
  have hpayload : a.payload ≠ [] := hnonempty _ (List.mem_append_right _ List.mem_cons_self)
  have hskipped : ∀ p ∈ skipped, p ≠ [] := by
    intro p hp
    refine hnonempty p (List.mem_append_left _ ?_)
    rw [h.seen_eq]
    exact List.mem_append_left _ hp
  have hnone := h.pending_ne hskipped (Nat.le_add_right _ a.payload.length) hshort
  cases hknown : d.baseKnown with
  | true =>
      obtain ⟨hseen, hnext⟩ := h.known hknown
      rw [← hnext] at houtcome
      obtain ⟨hok, rfl⟩ := Split.append_outcome (route_next hpayload hknown) hcapacity hbuffered
        (by rw [hnext, Serial.nth_add]; exact hnone) houtcome
      exact ⟨hok, skipped, _, h.appended rfl rfl hknown hnext fun hnil ↦ absurd hnil hseen⟩
  | false =>
      cases hstart : isStreamStart a.payload with
      | true =>
          obtain ⟨hok, rfl⟩ := Split.append_outcome (route_start hpayload hknown hstart) hcapacity
            hbuffered (by rw [DirectionState.withBase, Serial.nth_add]; exact hnone) houtcome
          refine ⟨hok, skipped, _, h.appended rfl rfl rfl rfl fun hseen ↦ ?_⟩
          rw [← hfirst hseen]
          exact hstart
      | false =>
          have hroute : route env d (Serial.nth isn (payloads seen).flatten.length) a.payload =
              .queue :=
            route_queue_iff.mpr ⟨hpayload, fun _ ↦ hstart,
              fun h ↦ absurd h (by simp [hknown])⟩
          have hne := h.pending_ne hskipped (Nat.le_refl _)
            (Nat.lt_of_le_of_lt (Nat.le_add_right _ _) hshort)
          rcases houtcome.of_queue_of_room hroute hroom hcapacity with
            ⟨p, hp, hsequence, -⟩ | ⟨p, hp, hsequence, -⟩ | ⟨-, rfl, rfl, -⟩
          · exact absurd hsequence (hne p hp)
          · exact absurd hsequence (hne p hp)
          · refine ⟨rfl, _, _, h.queued hknown fun hseen ↦ ?_⟩
            rw [← hfirst hseen]
            exact hstart

theorem split_empty : Split isn first [] [] [] {} where
  seen_eq := rfl
  pending_eq := rfl
  contiguous_eq := rfl
  known h := absurd h Bool.false_ne_true
  unknown _ := rfl
  skipped_iff h := absurd rfl h

theorem AmpleInOrder.of_append {others : Nat} {pieces more : List (List Byte)}
    (h : AmpleInOrder env others (pieces ++ more)) : AmpleInOrder env others pieces := by
  have hlength : pieces.flatten.length ≤ (pieces ++ more).flatten.length := by
    rw [List.flatten_append, List.length_append]
    exact Nat.le_add_right _ _
  refine ⟨hlength.trans h.buffered, ?_, (Nat.add_le_add_left hlength _).trans h.memory⟩
  refine Nat.le_trans ?_ h.segments
  rw [List.length_append]
  exact Nat.le_add_right _ _

/-- The contiguous part is everything exactly if nothing was skipped. -/
theorem Split.contiguous_eq_iff (h : Split isn first seen skipped taken d)
    (hnonempty : ∀ p ∈ payloads seen, p ≠ []) :
    d.contiguous = (payloads seen).flatten ↔ skipped = [] := by
  rw [h.contiguous_eq, h.seen_eq]
  constructor
  · intro heq
    have hlength := congrArg List.length heq
    rw [List.flatten_append, List.length_append] at hlength
    cases hskipped : skipped with
    | nil => rfl
    | cons p skipped' =>
        have hp : p ∈ payloads seen := by
          rw [h.seen_eq, hskipped]
          exact List.mem_cons_self
        have hpos := List.length_pos_of_ne_nil (hnonempty p hp)
        rw [hskipped, List.flatten_cons, List.length_append] at hlength
        omega
  · rintro rfl
    rfl

end

/-! ## Segments that go astray -/

section

variable {env : ReassemblerSetup} {r : TcpStreamReassembler} {key : StreamKey} {i : Fin 2}
  {total : Nat} {a : Arrival}

/-- No stream of the connection has as many bytes as have come. -/
def Short (r : TcpStreamReassembler) (key : StreamKey) (i : Fin 2) (total : Nat) : Prop :=
  ∀ place state, place.key = key → r.streams.lookup place = some state →
    (state.directions i).bytes < total

theorem short_insert (ha : a.IsFor env key i)
    (hothers : Short r key i (total + a.payload.length))
    (hworking : (r.working env a.metadata a.now).bytes < total) :
    (r.insert env a.metadata a.payload a.now).1.contiguousPayload.length <
        total + a.payload.length ∧
      Short (r.insert env a.metadata a.payload a.now).2 key i (total + a.payload.length) := by
  obtain ⟨hinspects, hkey⟩ := ha
  have hgrows : ∀ {b b' d status}, Outcome env b (r.working env a.metadata a.now)
      (dataSequence a.metadata) a.payload status d b' → d.bytes < total + a.payload.length := by
    intro b b' d status houtcome
    have hle := houtcome.bytes_le
    omega
  constructor
  · obtain ⟨result, r', hinsert, hinsertion⟩ := exists_insertion env r a.metadata a.payload a.now
    rw [hinsert]
    cases hinsertion with
    | skipped hskip => exact absurd hinspects hskip
    | refused _ _ => exact Nat.lt_of_lt_of_le (Nat.zero_lt_of_lt hworking) (Nat.le_add_right _ _)
    | failed _ _ _ _ =>
        exact Nat.lt_of_lt_of_le (Nat.zero_lt_of_lt hworking) (Nat.le_add_right _ _)
    | kept _ _ houtcome _ =>
        exact Nat.lt_of_le_of_lt (Nat.le_add_right _ _) (hgrows houtcome)
  · intro place state hplace hlookup
    rcases (insertion_insert env r a.metadata a.payload a.now).lookup_cases hlookup with
      ⟨hskip, -⟩ | ⟨-, -, hold⟩ | ⟨-, -, d, b, houtcome, -, -, rfl⟩
    · exact absurd hinspects hskip
    · exact hothers place state hplace (lookup_of_purgeExpired hold)
    · have hi : (makeKey a.metadata).2 = i := by rw [hkey]
      rw [← hi, stored_self]
      exact hgrows houtcome

theorem Short.working_lt (h : Short r key i total) (hpos : 0 < total) (ha : a.IsFor env key i) :
    (r.working env a.metadata a.now).bytes < total := by
  obtain ⟨-, hkey⟩ := ha
  have hplace := key_workingPlace env r a.metadata a.now
  rw [hkey] at hplace
  rw [working, workingStream, TcpStreamReassembler.streamAt, hkey]
  cases hlookup : (r.purgeExpired env a.now).streams.lookup
    (workingPlace env r a.metadata a.now) with
  | none => exact hpos
  | some state => exact h _ state hplace (lookup_of_purgeExpired hlookup)

/-- A packet that misses the stream: that stream lacks the bytes of the packet, and the one that the
packet starts those before. -/
theorem Tracks.short_astray {others : Nat} {home : StreamPlace} {d : DirectionState}
    {t : BitVec 64} (h : Tracks env home i others r d (some t)) (ha : a.IsFor env home.key i)
    (hastray : ¬env.keyMemory.Reaches r.calls home) (hbytes : d.bytes = total) (hpos : 0 < total)
    (hpayload : 0 < a.payload.length) :
    (r.insert env a.metadata a.payload a.now).1.contiguousPayload.length <
        total + a.payload.length ∧
      Short (r.insert env a.metadata a.payload a.now).2 home.key i (total + a.payload.length) := by
  have hothers : Short r home.key i (total + a.payload.length) := by
    intro place state hplace hlookup
    by_cases hhome : place = home
    · obtain ⟨old, hold, rfl, -⟩ := h.stream t rfl
      rw [hhome] at hlookup
      obtain rfl := Option.some.inj (hold.symm.trans hlookup)
      omega
    · cases (h.alone place hplace hhome).symm.trans hlookup
  have hworking : (r.working env a.metadata a.now).bytes < total := by
    have hnone := (h.astray (by rw [ha.2]) hastray a.now).2
    rw [working, workingStream, TcpStreamReassembler.streamAt, hnone]
    exact hpos
  exact short_insert ha hothers hworking

/-- It stays so, and no result has them all. -/
theorem Short.insertAll {arrivals : List Arrival} (h : Short r key i total) (hpos : 0 < total)
    (hfor : ∀ a ∈ arrivals, a.IsFor env key i) :
    ∀ result ∈ (r.insertAll env arrivals).1,
      result.contiguousPayload.length < total + (payloads arrivals).flatten.length := by
  induction arrivals generalizing r total with
  | nil => exact fun result hresult ↦ absurd hresult List.not_mem_nil
  | cons a arrivals ih =>
      have ha := hfor a List.mem_cons_self
      have hothers : Short r key i (total + a.payload.length) :=
        fun place state hplace hlookup ↦ (h place state hplace hlookup).trans_le
          (Nat.le_add_right _ _)
      obtain ⟨hresult, hshort⟩ := short_insert ha hothers (h.working_lt hpos ha)
      have hlength : (payloads (a :: arrivals)).flatten.length =
          a.payload.length + (payloads arrivals).flatten.length := by
        rw [payloads, List.map_cons, List.flatten_cons, List.length_append]
        rfl
      rw [hlength]
      intro result hmem
      rcases List.mem_cons.mp hmem with rfl | hmem
      · omega
      · have hlt := ih hshort (Nat.lt_of_lt_of_le hpos (Nat.le_add_right _ _))
          (fun b hb ↦ hfor b (List.mem_cons_of_mem a hb)) result hmem
        omega

end

/-! ## Runs -/

section

variable {env : ReassemblerSetup} {r : TcpStreamReassembler} {key : StreamKey} {i : Fin 2}
  {isn : BitVec 32} {first : Arrival} {rest : List Arrival}

/-- The segments seen so far are split. -/
def IsSplit (isn : BitVec 32) (first : List Byte) (seen : List Arrival) (d : DirectionState) :
    Prop :=
  ∃ skipped taken, Split isn first seen skipped taken d

/-- The next segment is taken. -/
theorem IsSplit.step (horder : InOrder isn 0 (first :: rest))
    (hnonempty : ∀ p ∈ payloads (first :: rest), p ≠ []) {others : Nat}
    (hample : AmpleInOrder env others (payloads (first :: rest))) :
    ∀ seen a tail d b status d' b', first :: rest = seen ++ a :: tail →
      IsSplit isn first.payload seen d → b ≤ others + d.bytes →
      Outcome env b d (dataSequence a.metadata) a.payload status d' b' →
      status.isError = false ∧ IsSplit isn first.payload (seen ++ [a]) d' := by
  rintro seen a tail d b status d' b' hsplit ⟨skipped, taken, hseen⟩ hb houtcome
  have hall : payloads (first :: rest) = payloads (seen ++ [a]) ++ payloads tail := by
    rw [hsplit, payloads, payloads, payloads, ← List.map_append, List.append_assoc]
    rfl
  rw [hsplit] at horder
  rw [horder.sequence_eq, Nat.zero_add] at houtcome
  rw [hall] at hample hnonempty
  refine hseen.step (fun p hp ↦ hnonempty p (List.mem_append_left _ hp)) ?_ hample.of_append hb
    houtcome
  rintro rfl
  rw [List.nil_append] at hsplit
  exact congrArg Arrival.payload (List.cons.inj hsplit).1.symm

/-- Where a segment misses the stream of the first one, the last result has not all bytes. -/
theorem contiguousPayload_ne_of_astray (hreach : (reassembly env).Reach r) (hkey : r.NoStream key)
    (hstreams : r.streams.keys.length + 1 < env.config.maxConcurrentStreams.toNat)
    (horder : InOrder isn 0 (first :: rest)) (hnonempty : ∀ p ∈ payloads (first :: rest), p ≠ [])
    (hfor : ∀ a ∈ first :: rest, a.IsFor env key i)
    (htime : ((first :: rest).map Arrival.now).IsChain (WithinTimeout env))
    (hample : AmpleInOrder env r.bufferedBytes (payloads (first :: rest)))
    (hastray : ¬Together env r key (first :: rest).length) :
    (r.insertAll env (first :: rest)).1.getLast?.map TcpReassemblyResult.contiguousPayload ≠
      some (payloads (first :: rest)).flatten := by
  obtain ⟨seen, a, tail, d, last, hsplit, htracks, ⟨skipped, taken, hseen⟩, hlast, hmiss⟩ :=
    Tracks.insertAll_astray hfor (IsSplit.step horder hnonempty hample)
      (tracks_fresh hreach hkey hstreams i) ⟨[], [], split_empty⟩ htime hastray
  rcases hlast with ⟨rfl, -⟩ | ⟨t, ht, rfl⟩
  · exact absurd (.inr rfl) hmiss
  rw [hsplit] at hfor hnonempty ⊢
  have ha := hfor a (by simp)
  have hbytes := hseen.bytes_eq
  have hpos : 0 < (payloads seen).flatten.length := by
    obtain ⟨s, hs, -⟩ := List.mem_map.mp ht
    obtain ⟨x, hx⟩ := List.exists_mem_of_ne_nil _
      (hnonempty s.payload (List.mem_map_of_mem (List.mem_append_left _ hs)))
    exact List.length_pos_of_mem (List.mem_flatten_of_mem (List.mem_map_of_mem hs) hx)
  have hpayload : 0 < a.payload.length :=
    List.length_pos_of_ne_nil (hnonempty a.payload (List.mem_map_of_mem (by simp)))
  obtain ⟨hresult, hshort⟩ := htracks.short_astray ha hmiss hbytes hpos hpayload
  have hlater := hshort.insertAll (by omega)
    (fun b hb ↦ hfor b (List.mem_append_right _ (List.mem_cons_of_mem a hb)))
  have hlength : (payloads (seen ++ a :: tail)).flatten.length =
      (payloads seen).flatten.length + a.payload.length + (payloads tail).flatten.length := by
    simp only [payloads, List.map_append, List.map_cons, List.flatten_append, List.flatten_cons,
      List.length_append, Nat.add_assoc]
  have hlt : ∀ result ∈ ((r.insertAll env seen).2.insertAll env (a :: tail)).1,
      result.contiguousPayload.length < (payloads (seen ++ a :: tail)).flatten.length := by
    rw [hlength]
    intro result hmem
    rcases List.mem_cons.mp hmem with rfl | hmem
    · omega
    · exact hlater result hmem
  intro heq
  obtain ⟨result, hgetLast, hcontiguous⟩ := Option.map_eq_some_iff.mp heq
  rw [TcpStreamReassembler.insertAll_append, List.getLast?_append_of_ne_nil _
    (by rw [TcpStreamReassembler.insertAll]; exact List.cons_ne_nil _ _)] at hgetLast
  have hlast := hlt result (List.mem_of_getLast? hgetLast)
  rw [hcontiguous] at hlast
  exact lt_irrefl _ hlast

end

/-- Segments in order, within all limits and times, on a new stream: the bytes that the last
`Insert` returns are those of all segments exactly if the first one is recognised as the
start of a stream for itself and the others come upon its stream. -/
theorem segmentation_independent_iff {env : ReassemblerSetup} {r : TcpStreamReassembler}
    (hreach : (reassembly env).Reach r) {key : StreamKey} {i : Fin 2} (hkey : r.NoStream key)
    (hstreams : r.streams.keys.length + 1 < env.config.maxConcurrentStreams.toNat)
    {isn : BitVec 32} {first : Arrival} {rest : List Arrival}
    (horder : InOrder isn 0 (first :: rest)) (hnonempty : ∀ p ∈ payloads (first :: rest), p ≠ [])
    (hfor : ∀ a ∈ first :: rest, a.IsFor env key i)
    (htime : ((first :: rest).map Arrival.now).IsChain (WithinTimeout env))
    (hample : AmpleInOrder env r.bufferedBytes (payloads (first :: rest))) :
    (r.insertAll env (first :: rest)).1.getLast?.map TcpReassemblyResult.contiguousPayload =
        some (payloads (first :: rest)).flatten ↔
      isStreamStart first.payload = true ∧ Together env r key (first :: rest).length := by
  by_cases htogether : Together env r key (first :: rest).length
  · obtain ⟨-, d, last, -, ⟨skipped, taken, hsplit⟩, hlast⟩ :=
      Tracks.insertAll hfor (IsSplit.step horder hnonempty hample) (List.nil_append _).symm
        (tracks_fresh hreach hkey hstreams i) ⟨[], [], split_empty⟩ htogether htime
    rcases hlast with ⟨hnil, -⟩ | ⟨-, hpayload⟩
    · cases hnil
    · rw [hpayload, Option.some_inj, hsplit.contiguous_eq_iff hnonempty,
        hsplit.skipped_iff (List.cons_ne_nil _ _)]
      exact (and_iff_left htogether).symm
  · refine iff_of_false ?_ fun h ↦ htogether h.2
    exact contiguousPayload_ne_of_astray hreach hkey hstreams horder hnonempty hfor htime hample
      htogether

/-- A request in two segments, cut behind the method. -/
def cutBehindMethod : List (Nat × List Byte) := [(0, asciiBytes "GET "), (4, asciiBytes "/ HTTP")]

/-- The same request, cut inside the method. -/
def cutInsideMethod : List (Nat × List Byte) := [(0, asciiBytes "GE"), (2, asciiBytes "T / HTTP")]

theorem segmentation_independent_behind_method :
    (insertAll defaultSetup {} (clientPieces 7 cutBehindMethod)).1.getLast?.map
      TcpReassemblyResult.contiguousPayload =
        some (payloads (clientPieces 7 cutBehindMethod)).flatten := by
  have horder : InOrder 7 0 (clientPieces 7 cutBehindMethod) :=
    ⟨dataSequence_clientSegment _, dataSequence_clientSegment _, trivial⟩
  have hample : AmpleInOrder defaultSetup 0 (payloads (clientPieces 7 cutBehindMethod)) :=
    ⟨by decide, by decide, by decide⟩
  have hnonempty : ∀ p ∈ payloads (clientPieces 7 cutBehindMethod), p ≠ [] := by decide
  have hfor : ∀ a ∈ clientPieces 7 cutBehindMethod, a.IsFor defaultSetup clientStreamKey 0 :=
    isFor_clientPieces rfl
  have htime := timely_clientPieces defaultSetup 7 cutBehindMethod
  rw [clientPieces, cutBehindMethod, List.map_cons] at *
  exact (segmentation_independent_iff (.init rfl) (fun _ _ ↦ rfl) (by decide) horder hnonempty hfor
    htime hample).mpr ⟨by decide, by decide +kernel⟩

/-- The request is a stream start and comes in order, and nothing of it is returned; nor, where it
is cut behind the method, if the key of the second segment has other padding. -/
theorem segmentation_dependent_inside_method :
    isStreamStart (asciiBytes "GET / HTTP") = true ∧
      (payloads (clientPieces 7 cutInsideMethod)).flatten = asciiBytes "GET / HTTP" ∧
      InOrder 7 0 (clientPieces 7 cutInsideMethod) ∧
      (insertAll defaultSetup {} (clientPieces 7 cutInsideMethod)).1.getLast?.map
        TcpReassemblyResult.contiguousPayload = some [] ∧
      (insertAll (paddedSetup 1) {} (clientPieces 7 cutBehindMethod)).1.getLast?.map
        TcpReassemblyResult.contiguousPayload = some [] := by
  refine ⟨by decide, by decide, ?_, by decide +kernel, by decide +kernel⟩
  exact ⟨dataSequence_clientSegment _, dataSequence_clientSegment _, trivial⟩

end DpdkSpi
