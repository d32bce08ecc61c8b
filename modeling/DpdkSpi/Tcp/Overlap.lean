import DpdkSpi.Tcp.Slices

/-!
# Overlapping segments

`Insert` reports a conflict at three places: for a segment that starts before the base, for
one that starts inside the contiguous part and differs from it, and for one that is to be
queued and has the start of a pending segment but not its bytes.  Only the first two look at
`drop_conflicting_overlap`, the first looks at no byte, and nothing is compared with
pending segments that start elsewhere.  `insert_conflict_iff` says this once; what is
missed and what is reported in vain follows from it.
-/

namespace DpdkSpi

open Lib

/-! ## When a segment conflicts -/

namespace DirectionState

/-- A segment that starts at the base or behind it, with a byte that is not the contiguous
part's byte at that place. -/
def Differs (d : DirectionState) (sequence : BitVec 32) (payload : List Byte) : Prop :=
  ∃ j x y, payload[j]? = some x ∧
    d.contiguous[(sequenceDistance sequence d.baseSequence).toNat + j]? = some y ∧ x ≠ y

/-- `VerifyOverlap` is asked, since the segment starts before `next_sequence`. -/
def Overlapped (d : DirectionState) (sequence : BitVec 32) (payload : List Byte) : Prop :=
  payload ≠ [] ∧ d.baseKnown = true ∧ sequenceDistance sequence d.nextSequence < 0

/-- `QueuePending` is asked, and neither limit is reached. -/
def Queueable (env : ReassemblerSetup) (bufferedBytes : Nat) (d : DirectionState)
    (sequence : BitVec 32) (payload : List Byte) : Prop :=
  payload ≠ [] ∧ (d.baseKnown = false → isStreamStart payload = false) ∧
    (d.baseKnown = true → 0 < sequenceDistance sequence d.nextSequence) ∧
    d.pending.length < env.config.maxOutOfOrderSegments.toNat ∧
    hasCapacity env bufferedBytes payload.length = true

end DirectionState

theorem verifyOverlap_conflict_iff {env : ReassemblerSetup} {d : DirectionState}
    {sequence : BitVec 32} {payload : List Byte} :
    verifyOverlap env d sequence payload = .kConflictingOverlap ↔
      env.config.dropConflictingOverlap = true ∧
        (sequenceDistance sequence d.baseSequence < 0 ∨ d.Differs sequence payload) := by
  have hstatus : conflictStatus env = .kConflictingOverlap ↔
      env.config.dropConflictingOverlap = true := by
    unfold conflictStatus
    split_ifs with hflag
    · exact iff_of_true rfl hflag
    · exact iff_of_false (fun h ↦ by cases h) hflag
  unfold verifyOverlap
  dsimp only
  split_ifs with hbefore hbehind hsame
  · rw [hstatus]
    exact (and_iff_left (.inl hbefore)).symm
  · refine iff_of_false (fun h ↦ by cases h) ?_
    rintro ⟨-, hneg | ⟨j, x, y, -, hy, -⟩⟩
    · exact hbefore hneg
    · have := (List.getElem?_eq_some_iff.mp hy).1
      omega
  · refine iff_of_false (fun h ↦ by cases h) ?_
    rintro ⟨-, hneg | ⟨j, x, y, hx, hy, hne⟩⟩
    · exact hbefore hneg
    · exact hne (take_eq_take_drop_iff.mp hsame j x y hx hy)
  · rw [hstatus, take_eq_take_drop_iff] at *
    refine (and_iff_left (.inr ?_)).symm
    push Not at hsame
    exact hsame

theorem route_reject_iff {env : ReassemblerSetup} {d : DirectionState} {sequence : BitVec 32}
    {payload : List Byte} :
    route env d sequence payload = .reject ↔ d.Overlapped sequence payload ∧
      env.config.dropConflictingOverlap = true ∧
      (sequenceDistance sequence d.baseSequence < 0 ∨ d.Differs sequence payload) := by
  rw [← verifyOverlap_conflict_iff]
  unfold route DirectionState.Overlapped
  constructor
  · intro h
    split_ifs at h with hempty hbase hzero hpos hreject hend hstart
    exact ⟨⟨by simpa using hempty, hbase, by omega⟩, hreject⟩
  · rintro ⟨⟨hempty, hbase, hneg⟩, hreject⟩
    rw [if_neg (by simpa using hempty), if_pos hbase, if_neg (by omega), if_neg (by omega),
      if_pos hreject]

/-- What `AddSegment` reports as a conflict. -/
def DirectionState.Conflicts (env : ReassemblerSetup) (bufferedBytes : Nat) (d : DirectionState)
    (sequence : BitVec 32) (payload : List Byte) : Prop :=
  (d.Overlapped sequence payload ∧ env.config.dropConflictingOverlap = true ∧
      (sequenceDistance sequence d.baseSequence < 0 ∨ d.Differs sequence payload)) ∨
    (d.Queueable env bufferedBytes sequence payload ∧
      ∃ p ∈ d.pending, p.sequence = sequence ∧ p.payload ≠ payload)

theorem Outcome.conflicts_iff {env : ReassemblerSetup} {b b' : Nat} {d d' : DirectionState}
    {sequence : BitVec 32} {payload : List Byte} {status : TcpReassemblyStatus}
    (h : Outcome env b d sequence payload status d' b') (hd : d.Distinct) :
    status = .kConflictingOverlap ↔ d.Conflicts env b sequence payload := by
  rw [h.conflict_iff hd, route_reject_iff, route_queue_iff, DirectionState.Conflicts,
    DirectionState.Queueable]
  simp only [and_assoc]

theorem DirectionState.not_conflicts_empty (env : ReassemblerSetup) (b : Nat)
    (sequence : BitVec 32) (payload : List Byte) :
    ¬({} : DirectionState).Conflicts env b sequence payload := by
  rintro (⟨⟨-, hknown, -⟩, -⟩ | ⟨-, p, hp, -⟩)
  · cases hknown
  · exact absurd hp List.not_mem_nil

open TcpStreamReassembler

/-- `Insert` reports a conflict exactly where `AddSegment` does. -/
theorem insert_conflict_iff {env : ReassemblerSetup} {r : TcpStreamReassembler}
    (h : (reassembly env).Reach r) (metadata : PacketMetadata) (payload : List Byte)
    (now : BitVec 64) :
    (r.insert env metadata payload now).1.status = .kConflictingOverlap ↔
      Inspects env metadata ∧
        (r.working env metadata now).Conflicts env (r.purgeExpired env now).bufferedBytes
          (dataSequence metadata) payload := by
  have hdistinct : (r.working env metadata now).Distinct :=
    (distinct_of_reach h).working (fun _ _ ↦ List.nodup_nil) metadata now
  obtain ⟨result, r', hinsert, hinsertion⟩ := exists_insertion env r metadata payload now
  simp only [hinsert]
  cases hinsertion with
  | skipped hskip => exact iff_of_false (fun h ↦ by cases h) fun h ↦ hskip h.1
  | refused _ hfull =>
      rw [working_of_streamTableFull hfull]
      exact iff_of_false (fun h ↦ by cases h) fun h ↦ DirectionState.not_conflicts_empty _ _ _ _ h.2
  | failed hinspects _ houtcome _ =>
      rw [houtcome.conflicts_iff hdistinct]
      exact (and_iff_right hinspects).symm
  | kept hinspects _ houtcome _ =>
      rw [houtcome.conflicts_iff hdistinct]
      exact (and_iff_right hinspects).symm

/-! ## Conflicts that are missed -/

/-- The segment has this byte at this place of the stream. -/
def ByteAt (sequence : BitVec 32) (payload : List Byte) (place : BitVec 32) (byte : Byte) : Prop :=
  ∃ j, payload[j]? = some byte ∧ place = sequence + BitVec.ofNat 32 j

/-- The byte is buffered for this place, in the contiguous part or in a pending segment. -/
def DirectionState.Buffers (d : DirectionState) (place : BitVec 32) (byte : Byte) : Prop :=
  (d.baseKnown = true ∧ ByteAt d.baseSequence d.contiguous place byte) ∨
    ∃ p ∈ d.pending, ByteAt p.sequence p.payload place byte

/-- The segment has another byte than the buffered one for some place. -/
def DirectionState.Disagrees (d : DirectionState) (sequence : BitVec 32) (payload : List Byte) :
    Prop :=
  ∃ place x y, ByteAt sequence payload place x ∧ d.Buffers place y ∧ x ≠ y

/-- The segment disagrees with a byte that is buffered for its direction of the connection. -/
def TcpStreamReassembler.Disagrees (r : TcpStreamReassembler) (metadata : PacketMetadata)
    (payload : List Byte) : Prop :=
  ∃ place : StreamPlace, place.key = (makeKey metadata).1 ∧
    ∃ state, r.streams.lookup place = some state ∧
      (state.directions (makeKey metadata).2).Disagrees (dataSequence metadata) payload

/-- With `drop_conflicting_overlap`, a segment that disagrees with a buffered byte of its direction
is reported exactly when `Insert` comes upon a stream of the connection that has not timed out, and
the segment either starts before its `next_sequence`, and before the base or with another byte than
the contiguous part, or is queued where there is room and has the start of a pending segment. -/
theorem conflicting_overlap_detected_iff {env : ReassemblerSetup} {r : TcpStreamReassembler}
    (h : (reassembly env).Reach r) (hflag : env.config.dropConflictingOverlap = true)
    {metadata : PacketMetadata} (hinspects : Inspects env metadata) (payload : List Byte)
    (now : BitVec 64) :
    (r.Disagrees metadata payload →
        (r.insert env metadata payload now).1.status = .kConflictingOverlap) ↔
      (r.Disagrees metadata payload →
        ∃ found, r.streams.lookup (workingPlace env r metadata now) = some found ∧
          live env now found = true ∧
          (((found.directions (makeKey metadata).2).Overlapped (dataSequence metadata) payload ∧
              (sequenceDistance (dataSequence metadata)
                  (found.directions (makeKey metadata).2).baseSequence < 0 ∨
                (found.directions (makeKey metadata).2).Differs (dataSequence metadata) payload)) ∨
            ((found.directions (makeKey metadata).2).Queueable env
                (r.purgeExpired env now).bufferedBytes (dataSequence metadata) payload ∧
              ∃ p ∈ (found.directions (makeKey metadata).2).pending,
                p.sequence = dataSequence metadata ∧ p.payload ≠ payload))) := by
  refine imp_congr_right fun _ ↦ ?_
  rw [insert_conflict_iff h, and_iff_right hinspects]
  constructor
  · intro hconflicts
    by_cases hlive : ∃ found, r.streams.lookup (workingPlace env r metadata now) = some found ∧
        live env now found = true
    · obtain ⟨found, hfound, hlive⟩ := hlive
      rw [working, workingStream_of_live hfound hlive, DirectionState.Conflicts,
        and_iff_right hflag] at hconflicts
      exact ⟨found, hfound, hlive, hconflicts⟩
    · have hempty : workingStream env r metadata now = {} :=
        workingStream_of_not_live fun found hfound ↦
          Bool.eq_false_iff.mpr fun hlive' ↦ hlive ⟨found, hfound, hlive'⟩
      rw [working, hempty] at hconflicts
      exact absurd hconflicts (DirectionState.not_conflicts_empty _ _ _ _)
  · rintro ⟨found, hfound, hlive, hconflicts⟩
    rw [working, workingStream_of_live hfound hlive, DirectionState.Conflicts, and_iff_right hflag]
    exact hconflicts

/-- A request of which the bytes 6 and 7 have come early. -/
def gappedOps : List ReassemblerOp :=
  [.insert (clientSegment 0) (asciiBytes "GET ") 0, .insert (clientSegment 6) (asciiBytes "XX") 1]

/-- The reassembler after them. -/
def gappedRun : TcpStreamReassembler :=
  gappedOps.foldl (TcpStreamReassembler.apply defaultSetup) {}

/-- The stream of the client in `gappedRun`. -/
def gappedState : StreamState :=
  (gappedRun.streams.lookup clientPlace).get (by decide +kernel)

theorem reach_gappedRun : (reassembly defaultSetup).Reach gappedRun :=
  (System.Reach.foldl (C := fun _ _ ↦ True) (.init rfl) gappedOps
    ⟨trivial, trivial, trivial⟩).of_restrict

theorem lookup_gappedRun {place : StreamPlace} (h : place = clientPlace) :
    gappedRun.streams.lookup place = some gappedState := by
  rw [h]
  exact (Option.some_get _).symm

/-- The bytes 6 and 7 are pending. -/
theorem mem_pending_gappedState :
    (⟨6, asciiBytes "XX"⟩ : PendingSegment) ∈ (gappedState.directions 0).pending := by
  decide +kernel

theorem disagrees_gappedRun {sequence : BitVec 32} {payload : List Byte}
    (h : (gappedState.directions 0).Disagrees sequence payload) :
    gappedRun.Disagrees (clientSegment sequence) payload := by
  refine ⟨clientPlace, ?_, gappedState, lookup_gappedRun rfl, ?_⟩
  · rw [makeKey_clientSegment, key_clientPlace]
  · simpa only [makeKey_clientSegment, dataSequence_clientSegment] using h

theorem conflicting_overlap_detected_same_start :
    gappedRun.Disagrees (clientSegment 6) (asciiBytes "XY") ∧
      (gappedRun.insert defaultSetup (clientSegment 6) (asciiBytes "XY") 2).1.status =
        .kConflictingOverlap := by
  have hdisagrees : gappedRun.Disagrees (clientSegment 6) (asciiBytes "XY") :=
    disagrees_gappedRun ⟨7, 0x59, 0x58, ⟨1, by decide, by decide⟩,
      .inr ⟨_, mem_pending_gappedState, 1, by decide, by decide⟩, by decide⟩
  have hplace : workingPlace defaultSetup gappedRun (clientSegment 6) 2 = clientPlace := by
    decide +kernel
  have hfound : gappedRun.streams.lookup
      (workingPlace defaultSetup gappedRun (clientSegment 6) 2) = some gappedState :=
    lookup_gappedRun hplace
  refine ⟨hdisagrees, ?_⟩
  refine (conflicting_overlap_detected_iff reach_gappedRun rfl ⟨rfl, rfl⟩ (asciiBytes "XY") 2).mpr
    (fun _ ↦ ⟨gappedState, hfound, by decide +kernel, .inr ?_⟩) hdisagrees
  simp only [makeKey_clientSegment, dataSequence_clientSegment]
  refine ⟨⟨by decide, fun _ ↦ by decide, fun _ ↦ by decide +kernel, by decide +kernel,
    by decide +kernel⟩, _, mem_pending_gappedState, rfl, by decide⟩

/-- The segment for bytes 5 to 7 has other bytes for 6 and 7, and is queued. -/
theorem conflicting_overlap_missed :
    (reassembly defaultSetup).Reach gappedRun ∧
      defaultSetup.config.dropConflictingOverlap = true ∧
      gappedRun.Disagrees (clientSegment 5) (asciiBytes "abc") ∧
      (gappedRun.insert defaultSetup (clientSegment 5) (asciiBytes "abc") 2).1.status =
        .kWaiting := by
  refine ⟨reach_gappedRun, rfl, disagrees_gappedRun ?_, by decide +kernel⟩
  exact ⟨6, 0x62, 0x58, ⟨1, by decide, by decide⟩,
    .inr ⟨_, mem_pending_gappedState, 0, by decide, by decide⟩, by decide⟩

/-! ## Conflicts that are none -/

/-- What is reported as a conflict between segments of one stream: a segment that starts before
the base, and one that is queued next to a pending one with the same start and another length.
In a stream of 2 GiB or more, places have sequence numbers in common. -/
def DirectionState.ConflictsInVain (env : ReassemblerSetup) (bufferedBytes : Nat)
    (stream : List Byte) (d : DirectionState) (sequence : BitVec 32) (payload : List Byte) : Prop :=
  (d.Overlapped sequence payload ∧ env.config.dropConflictingOverlap = true ∧
      (sequenceDistance sequence d.baseSequence < 0 ∨
        (2 ^ 31 ≤ stream.length ∧ d.Differs sequence payload))) ∨
    (d.Queueable env bufferedBytes sequence payload ∧ ∃ p ∈ d.pending, p.sequence = sequence ∧
      (p.payload.length ≠ payload.length ∨ (2 ^ 31 ≤ stream.length ∧ p.payload ≠ payload)))

section

variable {stream : List Byte} {isn : BitVec 32} {d : DirectionState} {sequence : BitVec 32}
  {payload : List Byte}

/-- A slice agrees with the contiguous part. -/
theorem DirectionState.SlicesOf.not_differs (hstream : stream.length < 2 ^ 31)
    (hd : d.SlicesOf stream isn) (hpayload : SliceAt stream isn sequence payload)
    (hknown : d.baseKnown = true) (hbase : 0 ≤ sequenceDistance sequence d.baseSequence) :
    ¬d.Differs sequence payload := by
  rintro ⟨j, x, y, hx, hy, hne⟩
  obtain ⟨base, hstands⟩ := hd.stands hknown
  obtain ⟨offset, rfl, hslice⟩ := hpayload
  have hxlt := (List.getElem?_eq_some_iff.mp hx).1
  have hylt := (List.getElem?_eq_some_iff.mp hy).1
  have hoffset := hslice.bound
  have hbound := hstands.slice.bound
  rw [hstands.base_eq, sequenceDistance_nth hstream (by omega) (by omega)] at hbase hy hylt
  rw [hslice.getElem?_eq hxlt] at hx
  rw [hstands.slice.getElem?_eq hylt] at hy
  rw [show base + (((offset : Int) - base).toNat + j) = offset + j by omega, hx] at hy
  exact hne (Option.some.inj hy)

/-- Slices with the same start and the same length are the same. -/
theorem DirectionState.SlicesOf.payload_eq (hstream : stream.length < 2 ^ 31)
    (hd : d.SlicesOf stream isn) (hpayload : SliceAt stream isn sequence payload)
    {p : PendingSegment} (hp : p ∈ d.pending) (hsequence : p.sequence = sequence)
    (hlength : p.payload.length = payload.length) : p.payload = payload := by
  obtain ⟨offset, rfl, hslice⟩ := hpayload
  obtain ⟨offset', hp', hslice'⟩ := hd.pending p hp
  have hbound := hslice.bound
  have hbound' := hslice'.bound
  rw [hp', nth_eq_iff hstream (by omega) (by omega)] at hsequence
  rw [hsequence] at hslice'
  exact hslice'.eq_of_length_eq hslice hlength

/-- Between segments of one stream the other conflicts do not happen. -/
theorem DirectionState.SlicesOf.conflicts_iff {env : ReassemblerSetup} {b : Nat}
    (hd : stream.length < 2 ^ 31 → d.SlicesOf stream isn)
    (hpayload : SliceAt stream isn sequence payload) :
    d.Conflicts env b sequence payload ↔ d.ConflictsInVain env b stream sequence payload := by
  refine or_congr ?_ (and_congr_right fun _ ↦ ?_)
  · refine and_congr_right fun hoverlapped ↦ and_congr_right fun _ ↦ ?_
    by_cases hbase : sequenceDistance sequence d.baseSequence < 0
    · exact iff_of_true (.inl hbase) (.inl hbase)
    · refine or_congr_right ⟨fun hdiffers ↦ ⟨?_, hdiffers⟩, fun h ↦ h.2⟩
      by_contra hstream
      exact (hd (not_le.mp hstream)).not_differs (not_le.mp hstream) hpayload hoverlapped.2.1
        (not_lt.mp hbase) hdiffers
  · refine exists_congr fun p ↦ and_congr_right fun hp ↦ and_congr_right fun hsequence ↦ ?_
    constructor
    · intro hne
      by_contra hnot
      obtain ⟨hlength, hstream⟩ := not_or.mp hnot
      have hstream' := not_le.mp fun hle ↦ hstream ⟨hle, hne⟩
      exact hne ((hd hstream').payload_eq hstream' hpayload hp hsequence (not_not.mp hlength))
    · rintro (hlength | ⟨-, hne⟩)
      · exact fun heq ↦ hlength (congrArg List.length heq)
      · exact hne

end

/-- In a run in which all segments of a direction are slices of one stream, `Insert` reports a
conflict for a slice exactly in the cases of `ConflictsInVain`; and without
`drop_conflicting_overlap` exactly for a segment that is queued where there is room, with the
start of a pending one and other bytes. -/
theorem false_conflict_iff (env : ReassemblerSetup) :
    (∀ (stream : List Byte) (isn : BitVec 32) (key : StreamKey) (i : Fin 2)
        (r : TcpStreamReassembler),
      ((reassembly env).restrict (SlicesOnly stream isn key i)).Reach r →
      ∀ (metadata : PacketMetadata) (payload : List Byte) (now : BitVec 64),
        Inspects env metadata → makeKey metadata = (key, i) →
        SliceAt stream isn (dataSequence metadata) payload →
        ((r.insert env metadata payload now).1.status = .kConflictingOverlap ↔
          (r.working env metadata now).ConflictsInVain env (r.purgeExpired env now).bufferedBytes
            stream (dataSequence metadata) payload)) ∧
      (env.config.dropConflictingOverlap = false → ∀ r, (reassembly env).Reach r →
        ∀ (metadata : PacketMetadata) (payload : List Byte) (now : BitVec 64),
          ((r.insert env metadata payload now).1.status = .kConflictingOverlap ↔
            Inspects env metadata ∧
              (r.working env metadata now).Queueable env (r.purgeExpired env now).bufferedBytes
                (dataSequence metadata) payload ∧
              ∃ p ∈ (r.working env metadata now).pending,
                p.sequence = dataSequence metadata ∧ p.payload ≠ payload)) := by
  constructor
  · intro stream isn key i r hreach metadata payload now hinspects hkey hpayload
    rw [insert_conflict_iff hreach.of_restrict, and_iff_right hinspects]
    exact DirectionState.SlicesOf.conflicts_iff
      (fun hstream ↦ slicesOf_working hstream hreach hkey now) hpayload
  · intro hflag r hreach metadata payload now
    rw [insert_conflict_iff hreach, DirectionState.Conflicts, hflag]
    simp

/-- A request that follows other bytes. -/
def laterStartOps : List ReassemblerOp := [.insert (clientSegment 4) (asciiBytes "GET /") 0]

/-- The reassembler after it. -/
def laterStartRun : TcpStreamReassembler :=
  laterStartOps.foldl (TcpStreamReassembler.apply defaultSetup) {}

/-- Reassembly that is not to drop anything for conflicts. -/
def tolerantSetup : ReassemblerSetup :=
  .new { enabled := true, dropConflictingOverlap := false } 1

theorem reach_laterStartRun : ((reassembly defaultSetup).restrict
    (SlicesOnly (asciiBytes "220 GET /") 0 (makeKey (clientSegment 0)).1 0)).Reach laterStartRun :=
  System.Reach.foldl (.init rfl) laterStartOps
    ⟨fun _ _ ↦ ⟨4, by decide, by decide, by decide⟩, trivial⟩

theorem false_conflict_later_start :
    (laterStartRun.working defaultSetup (clientSegment 0) 1).ConflictsInVain defaultSetup
      (laterStartRun.purgeExpired defaultSetup 1).bufferedBytes (asciiBytes "220 GET /")
      (dataSequence (clientSegment 0)) (asciiBytes "220 ") :=
  ((false_conflict_iff defaultSetup).1 _ _ _ _ _ reach_laterStartRun (clientSegment 0) _ 1
    ⟨rfl, rfl⟩ rfl ⟨0, by decide, by decide, by decide⟩).mp (by decide +kernel)

/-- The bytes before the request are sent again and rejected; and without the flag a longer
segment is rejected for the start it shares with a pending one. -/
theorem false_conflict_before_base :
    (((reassembly defaultSetup).restrict (SlicesOnly (asciiBytes "220 GET /") 0
        (makeKey (clientSegment 0)).1 0)).Reach laterStartRun ∧
      SliceAt (asciiBytes "220 GET /") 0 (dataSequence (clientSegment 0)) (asciiBytes "220 ") ∧
      (laterStartRun.insert defaultSetup (clientSegment 0) (asciiBytes "220 ") 1).1.status =
        .kConflictingOverlap) ∧
    tolerantSetup.config.dropConflictingOverlap = false ∧
      (reassembly tolerantSetup).Reach
        (gappedOps.foldl (TcpStreamReassembler.apply tolerantSetup) {}) ∧
      ((gappedOps.foldl (TcpStreamReassembler.apply tolerantSetup) {}).insert tolerantSetup
        (clientSegment 6) (asciiBytes "XXX") 2).1.status = .kConflictingOverlap := by
  refine ⟨⟨reach_laterStartRun, ?_, by decide +kernel⟩, rfl, ?_, by decide +kernel⟩
  · exact ⟨0, by decide, by decide, by decide⟩
  · exact (System.Reach.foldl (C := fun _ _ ↦ True) (.init rfl) gappedOps
      ⟨trivial, trivial, trivial⟩).of_restrict

end DpdkSpi
