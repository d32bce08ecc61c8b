import DpdkSpi.Lib.System
import DpdkSpi.Tcp.Segment

/-!
# Runs of the reassembler

What `Insert` and `PurgeExpired` do to the table of streams, said once (`Insertion`), and the
runs of a reassembler, in which packets of any connections come at any time.  A property
of directions that an empty one has, and that every segment that is stored keeps, holds of
every direction in every state of a run (`everywhere_of_reach`).
-/

namespace DpdkSpi

open Lib

/-! ## Purging -/

/-- A stream that `PurgeExpired` leaves alone. -/
def live (env : ReassemblerSetup) (now : BitVec 64) (state : StreamState) : Bool :=
  env.timeoutCycles = 0 || !expired env now state

namespace TcpStreamReassembler

theorem streams_foldl_purgeStream (env : ReassemblerSetup) (now : BitVec 64)
    (entries : List ((_ : StreamPlace) × StreamState)) (r : TcpStreamReassembler) :
    (entries.foldl (purgeStream env now) r).streams =
      entries.foldl (FinMap.sweepStep (expired env now)) r.streams := by
  induction entries generalizing r with
  | nil => rfl
  | cons entry entries ih =>
      rw [List.foldl_cons, List.foldl_cons, ih]
      congr 1
      unfold purgeStream FinMap.sweepStep
      split_ifs <;> rfl

/-- What `PurgeExpired` leaves. -/
theorem lookup_purgeExpired (env : ReassemblerSetup) (r : TcpStreamReassembler) (now : BitVec 64)
    (place : StreamPlace) :
    (r.purgeExpired env now).streams.lookup place =
      (r.streams.lookup place).filter (live env now) := by
  by_cases htimeout : env.timeoutCycles = 0
  · have hlive : live env now = fun _ ↦ true := by
      funext state
      simp [live, htimeout]
    rw [purgeExpired, if_pos htimeout, hlive]
    cases r.streams.lookup place <;> rfl
  · have hlive : live env now = fun state ↦ !expired env now state := by
      funext state
      rw [live, decide_eq_false htimeout, Bool.false_or]
    rw [purgeExpired, if_neg htimeout, hlive, streams_foldl_purgeStream]
    exact FinMap.lookup_sweep (expired env now) r.streams place

theorem lookup_of_purgeExpired {env : ReassemblerSetup} {r : TcpStreamReassembler}
    {now : BitVec 64} {place : StreamPlace} {state : StreamState}
    (h : (r.purgeExpired env now).streams.lookup place = some state) :
    r.streams.lookup place = some state := by
  rw [lookup_purgeExpired, Option.filter_eq_some_iff] at h
  exact h.1

@[simp] theorem calls_purgeExpired (env : ReassemblerSetup) (r : TcpStreamReassembler)
    (now : BitVec 64) : (r.purgeExpired env now).calls = r.calls := by
  unfold purgeExpired
  split_ifs
  · rfl
  · generalize r.streams.entries = entries
    induction entries generalizing r with
    | nil => rfl
    | cons entry entries ih =>
        rw [List.foldl_cons, ih]
        unfold purgeStream
        split_ifs <;> rfl

/-! ## The place of a packet -/

/-- The place where `Insert` finds or creates the stream of a packet; where there is no room for
a stream, the one where it looks for it. -/
def workingPlace (env : ReassemblerSetup) (r : TcpStreamReassembler) (metadata : PacketMetadata)
    (now : BitVec 64) : StreamPlace :=
  let r := r.purgeExpired env now
  if r.streamTableFull env (makeKey metadata).1 then r.soughtPlace env (makeKey metadata).1
  else r.place env (makeKey metadata).1

theorem key_place (env : ReassemblerSetup) (r : TcpStreamReassembler) (key : StreamKey) :
    (r.place env key).key = key := by
  unfold place
  split_ifs <;> rfl

/-- Every place is one of the connection. -/
@[simp] theorem key_workingPlace (env : ReassemblerSetup) (r : TcpStreamReassembler)
    (metadata : PacketMetadata) (now : BitVec 64) :
    (workingPlace env r metadata now).key = (makeKey metadata).1 := by
  unfold workingPlace
  dsimp only
  split_ifs
  · rfl
  · exact key_place env _ _

theorem workingPlace_of_room {env : ReassemblerSetup} {r : TcpStreamReassembler}
    {metadata : PacketMetadata} {now : BitVec 64}
    (hfull : (r.purgeExpired env now).streamTableFull env (makeKey metadata).1 = false) :
    (r.purgeExpired env now).place env (makeKey metadata).1 = workingPlace env r metadata now := by
  rw [workingPlace, if_neg (by rw [hfull]; exact Bool.false_ne_true)]

/-- The stream that `Insert` works on, a new one if there is none. -/
def workingStream (env : ReassemblerSetup) (r : TcpStreamReassembler) (metadata : PacketMetadata)
    (now : BitVec 64) : StreamState :=
  (r.purgeExpired env now).streamAt (workingPlace env r metadata now)

/-- The direction that `Insert` hands to `AddSegment`. -/
def working (env : ReassemblerSetup) (r : TcpStreamReassembler) (metadata : PacketMetadata)
    (now : BitVec 64) : DirectionState :=
  (workingStream env r metadata now).directions (makeKey metadata).2

theorem workingStream_of_live {env : ReassemblerSetup} {r : TcpStreamReassembler}
    {metadata : PacketMetadata} {now : BitVec 64} {state : StreamState}
    (hlookup : r.streams.lookup (workingPlace env r metadata now) = some state)
    (hlive : live env now state = true) : workingStream env r metadata now = state := by
  rw [workingStream, streamAt, lookup_purgeExpired, hlookup, Option.filter_some, if_pos hlive]
  rfl

theorem workingStream_of_not_live {env : ReassemblerSetup} {r : TcpStreamReassembler}
    {metadata : PacketMetadata} {now : BitVec 64}
    (h : ∀ state, r.streams.lookup (workingPlace env r metadata now) = some state →
      live env now state = false) : workingStream env r metadata now = {} := by
  rw [workingStream, streamAt, lookup_purgeExpired]
  cases hlookup : r.streams.lookup (workingPlace env r metadata now) with
  | none => rfl
  | some state =>
      rw [Option.filter_some, if_neg (by rw [h state hlookup]; exact Bool.false_ne_true)]
      rfl

/-- Where the table has no room there is no stream either. -/
theorem lookup_workingPlace_of_full {env : ReassemblerSetup} {r : TcpStreamReassembler}
    {metadata : PacketMetadata} {now : BitVec 64}
    (hfull : (r.purgeExpired env now).streamTableFull env (makeKey metadata).1 = true) :
    (r.purgeExpired env now).streams.lookup (workingPlace env r metadata now) = none := by
  rw [workingPlace, if_pos hfull]
  rw [streamTableFull, Bool.and_eq_true, Option.isNone_iff_eq_none] at hfull
  exact hfull.1

theorem working_of_streamTableFull {env : ReassemblerSetup} {r : TcpStreamReassembler}
    {metadata : PacketMetadata} {now : BitVec 64}
    (hfull : (r.purgeExpired env now).streamTableFull env (makeKey metadata).1 = true) :
    working env r metadata now = {} := by
  rw [working, workingStream, streamAt, lookup_workingPlace_of_full hfull]
  rfl

/-! ## The streams of a connection -/

/-- The connection has no stream, in no bucket. -/
def NoStream (r : TcpStreamReassembler) (key : StreamKey) : Prop :=
  ∀ place, place.key = key → r.streams.lookup place = none

/-- `Insert` comes upon every stream that the connection of the packet still has. -/
def Joins (env : ReassemblerSetup) (r : TcpStreamReassembler) (metadata : PacketMetadata)
    (now : BitVec 64) : Prop :=
  ∀ place ∈ (r.purgeExpired env now).streams.keys, place.key = (makeKey metadata).1 →
    place = workingPlace env r metadata now

instance (env : ReassemblerSetup) (r : TcpStreamReassembler) (metadata : PacketMetadata)
    (now : BitVec 64) : Decidable (Joins env r metadata now) :=
  inferInstanceAs (Decidable (∀ place ∈ _, _ → _))

theorem mem_keys_of_lookup {r : TcpStreamReassembler} {place : StreamPlace} {state : StreamState}
    (h : r.streams.lookup place = some state) : place ∈ r.streams.keys :=
  AList.lookup_isSome.mp (by rw [h]; rfl)

/-! ## Inserting -/

/-- `Insert` looks at the packet. -/
def Inspects (env : ReassemblerSetup) (metadata : PacketMetadata) : Prop :=
  env.config.enabled = true ∧ metadata.protocol = .kTcp

instance (env : ReassemblerSetup) (metadata : PacketMetadata) :
    Decidable (Inspects env metadata) :=
  inferInstanceAs (Decidable (_ ∧ _))

/-- The stream of a packet with one of its directions replaced. -/
def stored (env : ReassemblerSetup) (r : TcpStreamReassembler) (metadata : PacketMetadata)
    (now : BitVec 64) (d : DirectionState) : StreamState where
  directions := Function.update (workingStream env r metadata now).directions
    (makeKey metadata).2 d
  lastSeenTsc := now

@[simp] theorem stored_self (env : ReassemblerSetup) (r : TcpStreamReassembler)
    (metadata : PacketMetadata) (now : BitVec 64) (d : DirectionState) :
    (stored env r metadata now d).directions (makeKey metadata).2 = d :=
  Function.update_self _ _ _

theorem stored_of_ne {env : ReassemblerSetup} {r : TcpStreamReassembler}
    {metadata : PacketMetadata} {now : BitVec 64} {d : DirectionState} {i : Fin 2}
    (hi : i ≠ (makeKey metadata).2) :
    (stored env r metadata now d).directions i =
      (workingStream env r metadata now).directions i :=
  Function.update_of_ne hi _ _

/-- The reassembler behind `PurgeExpired`, with another counter of bytes and one key more. -/
def counted (env : ReassemblerSetup) (r : TcpStreamReassembler) (now : BitVec 64) (b : Nat) :
    TcpStreamReassembler :=
  { r.purgeExpired env now with bufferedBytes := b, calls := r.calls + 1 }

/-- What `Insert` can do: the result and the reassembler after the call. -/
inductive Insertion (env : ReassemblerSetup) (r : TcpStreamReassembler)
    (metadata : PacketMetadata) (payload : List Byte) (now : BitVec 64) :
    TcpReassemblyResult → TcpStreamReassembler → Prop
  /-- The packet is not for the reassembler. -/
  | skipped (hskip : ¬Inspects env metadata) : Insertion env r metadata payload now {} r
  /-- The table of streams is full. -/
  | refused (hinspects : Inspects env metadata)
      (hfull : (r.purgeExpired env now).streamTableFull env (makeKey metadata).1 = true) :
      Insertion env r metadata payload now { status := .kResourceLimit }
        (counted env r now (r.purgeExpired env now).bufferedBytes)
  /-- The segment leads to an error, and the stream is erased. -/
  | failed {status : TcpReassemblyStatus} {d : DirectionState} {b : Nat}
      (hinspects : Inspects env metadata)
      (hfull : (r.purgeExpired env now).streamTableFull env (makeKey metadata).1 = false)
      (houtcome : Outcome env (r.purgeExpired env now).bufferedBytes (working env r metadata now)
        (dataSequence metadata) payload status d b)
      (herror : status.isError = true) :
      Insertion env r metadata payload now { status }
        ((counted env r now b).eraseStream (workingPlace env r metadata now)
          (stored env r metadata now d))
  /-- The stream is kept. -/
  | kept {status : TcpReassemblyStatus} {d : DirectionState} {b : Nat}
      (hinspects : Inspects env metadata)
      (hfull : (r.purgeExpired env now).streamTableFull env (makeKey metadata).1 = false)
      (houtcome : Outcome env (r.purgeExpired env now).bufferedBytes (working env r metadata now)
        (dataSequence metadata) payload status d b)
      (herror : status.isError = false) :
      Insertion env r metadata payload now { status, contiguousPayload := d.contiguous }
        { counted env r now b with
          streams := (r.purgeExpired env now).streams.insert (workingPlace env r metadata now)
            (stored env r metadata now d) }

/-- Every call of `Insert` is one of the cases. -/
theorem insertion_insert (env : ReassemblerSetup) (r : TcpStreamReassembler)
    (metadata : PacketMetadata) (payload : List Byte) (now : BitVec 64) :
    Insertion env r metadata payload now (r.insert env metadata payload now).1
      (r.insert env metadata payload now).2 := by
  unfold insert
  dsimp only
  split_ifs with hskip hfull
  · refine .skipped ?_
    rintro ⟨henabled, hprotocol⟩
    simp [henabled, hprotocol] at hskip
  · rw [calls_purgeExpired]
    exact .refused (by simpa [Inspects] using hskip) hfull
  · have hinspects : Inspects env metadata := by simpa [Inspects] using hskip
    have hroom := Bool.eq_false_iff.mpr hfull
    have houtcome := outcome_addSegment env (r.purgeExpired env now).bufferedBytes
      (working env r metadata now) (dataSequence metadata) payload
    unfold insertSegment
    dsimp only
    rw [workingPlace_of_room hroom, calls_purgeExpired]
    split_ifs with herror
    · exact .failed hinspects hroom houtcome herror
    · exact .kept hinspects hroom houtcome (Bool.eq_false_iff.mpr herror)

theorem exists_insertion (env : ReassemblerSetup) (r : TcpStreamReassembler)
    (metadata : PacketMetadata) (payload : List Byte) (now : BitVec 64) :
    ∃ result r', r.insert env metadata payload now = (result, r') ∧
      Insertion env r metadata payload now result r' :=
  ⟨_, _, rfl, insertion_insert env r metadata payload now⟩

/-- Where a stream after `Insert` comes from. -/
theorem Insertion.lookup_cases {env : ReassemblerSetup} {r r' : TcpStreamReassembler}
    {metadata : PacketMetadata} {payload : List Byte} {now : BitVec 64}
    {result : TcpReassemblyResult} (h : Insertion env r metadata payload now result r')
    {place : StreamPlace} {state : StreamState} (hlookup : r'.streams.lookup place = some state) :
    (¬Inspects env metadata ∧ r.streams.lookup place = some state) ∨
      (Inspects env metadata ∧ place ≠ workingPlace env r metadata now ∧
        (r.purgeExpired env now).streams.lookup place = some state) ∨
      (Inspects env metadata ∧ place = workingPlace env r metadata now ∧ ∃ d b,
        Outcome env (r.purgeExpired env now).bufferedBytes (working env r metadata now)
          (dataSequence metadata) payload result.status d b ∧
        result.status.isError = false ∧ result.contiguousPayload = d.contiguous ∧
        state = stored env r metadata now d) := by
  cases h with
  | skipped hskip => exact .inl ⟨hskip, hlookup⟩
  | refused hinspects hfull =>
      refine .inr (.inl ⟨hinspects, ?_, hlookup⟩)
      rintro rfl
      cases (lookup_workingPlace_of_full hfull).symm.trans hlookup
  | failed hinspects _ _ _ =>
      by_cases hplace : place = workingPlace env r metadata now
      · rw [hplace, eraseStream, AList.lookup_erase] at hlookup
        cases hlookup
      · rw [eraseStream, AList.lookup_erase_ne hplace] at hlookup
        exact .inr (.inl ⟨hinspects, hplace, hlookup⟩)
  | kept hinspects _ houtcome herror =>
      by_cases hplace : place = workingPlace env r metadata now
      · rw [hplace, AList.lookup_insert] at hlookup
        exact .inr (.inr ⟨hinspects, hplace, _, _, houtcome, herror, rfl,
          (Option.some.inj hlookup).symm⟩)
      · rw [AList.lookup_insert_ne hplace] at hlookup
        exact .inr (.inl ⟨hinspects, hplace, hlookup⟩)

/-- Every packet that is looked at has a key of its own. -/
theorem calls_insert {env : ReassemblerSetup} {metadata : PacketMetadata}
    (hinspects : Inspects env metadata) (r : TcpStreamReassembler) (payload : List Byte)
    (now : BitVec 64) : (r.insert env metadata payload now).2.calls = r.calls + 1 := by
  obtain ⟨result, r', hinsert, hinsertion⟩ := exists_insertion env r metadata payload now
  rw [hinsert]
  cases hinsertion with
  | skipped hskip => exact absurd hinspects hskip
  | refused _ _ => rfl
  | failed _ _ _ _ => rfl
  | kept _ _ _ _ => rfl

/-- A call without an error leaves the streams that have not expired. -/
theorem lookup_insert_of_live {env : ReassemblerSetup} {r : TcpStreamReassembler}
    {metadata : PacketMetadata} {payload : List Byte} {now : BitVec 64}
    (hok : (r.insert env metadata payload now).1.status.isError = false) {place : StreamPlace}
    {state : StreamState} (hlookup : r.streams.lookup place = some state)
    (hlive : live env now state = true) :
    ∃ state', (r.insert env metadata payload now).2.streams.lookup place = some state' ∧
      (state' = state ∨ state'.lastSeenTsc = now) := by
  obtain ⟨result, r', hinsert, hinsertion⟩ := exists_insertion env r metadata payload now
  simp only [hinsert] at hok ⊢
  cases hinsertion with
  | skipped _ => exact ⟨state, hlookup, .inl rfl⟩
  | refused _ _ => cases hok
  | failed _ _ _ herror => cases herror.symm.trans hok
  | @kept _ d _ _ _ _ _ =>
      by_cases hplace : place = workingPlace env r metadata now
      · rw [hplace]
        exact ⟨stored env r metadata now d, AList.lookup_insert _, .inr rfl⟩
      · refine ⟨state, ?_, .inl rfl⟩
        rw [AList.lookup_insert_ne hplace, lookup_purgeExpired, hlookup, Option.filter_some,
          if_pos hlive]

/-- The stream of a packet that is taken. -/
theorem lookup_workingPlace_of_not_isError {env : ReassemblerSetup} {r : TcpStreamReassembler}
    {metadata : PacketMetadata} {payload : List Byte} {now : BitVec 64}
    (hinspects : Inspects env metadata)
    (hok : (r.insert env metadata payload now).1.status.isError = false) :
    ∃ d, (r.insert env metadata payload now).1.contiguousPayload = d.contiguous ∧
      (r.insert env metadata payload now).2.streams.lookup (workingPlace env r metadata now) =
        some (stored env r metadata now d) := by
  obtain ⟨result, r', hinsert, hinsertion⟩ := exists_insertion env r metadata payload now
  simp only [hinsert] at hok ⊢
  cases hinsertion with
  | skipped hskip => exact absurd hinspects hskip
  | refused _ _ => cases hok
  | failed _ _ _ herror => cases herror.symm.trans hok
  | kept _ _ _ _ => exact ⟨_, rfl, AList.lookup_insert _⟩

/-- Where the connection has no other stream, it has none behind an error. -/
theorem noStream_of_isError {env : ReassemblerSetup} {r : TcpStreamReassembler}
    {metadata : PacketMetadata} {payload : List Byte} {now : BitVec 64}
    (hjoins : Joins env r metadata now)
    (h : (r.insert env metadata payload now).1.status.isError = true) :
    (r.insert env metadata payload now).2.NoStream (makeKey metadata).1 := by
  intro place hkey
  by_contra hsome
  obtain ⟨state, hlookup⟩ := Option.ne_none_iff_exists'.mp hsome
  rcases (insertion_insert env r metadata payload now).lookup_cases hlookup with
    ⟨hskip, -⟩ | ⟨-, hne, hold⟩ | ⟨-, -, d, b, -, hok, -⟩
  · obtain ⟨result, r', hinsert, hinsertion⟩ := exists_insertion env r metadata payload now
    rw [hinsert] at h
    cases hinsertion with
    | skipped _ => cases h
    | refused hinspects _ => exact hskip hinspects
    | failed hinspects _ _ _ => exact hskip hinspects
    | kept hinspects _ _ _ => exact hskip hinspects
  · exact hne (hjoins place (mem_keys_of_lookup hold) hkey)
  · cases h.symm.trans hok

/-! ## Properties of directions -/

/-- Every direction of every stream has a property. -/
def Everywhere (P : StreamKey → Fin 2 → DirectionState → Prop) (r : TcpStreamReassembler) : Prop :=
  ∀ place state, r.streams.lookup place = some state → ∀ i, P place.key i (state.directions i)

section Everywhere

variable {P : StreamKey → Fin 2 → DirectionState → Prop} {env : ReassemblerSetup}
  {r : TcpStreamReassembler}

theorem everywhere_empty : Everywhere P {} := by
  intro place state hlookup
  rw [AList.lookup_empty] at hlookup
  cases hlookup

theorem Everywhere.purgeExpired (h : Everywhere P r) (now : BitVec 64) :
    Everywhere P (r.purgeExpired env now) :=
  fun place state hlookup ↦ h place state (lookup_of_purgeExpired hlookup)

/-- A stream that is there or new has the property if an empty direction has it. -/
theorem Everywhere.streamAt (h : Everywhere P r) (hempty : ∀ key i, P key i {})
    (place : StreamPlace) (i : Fin 2) : P place.key i ((r.streamAt place).directions i) := by
  unfold TcpStreamReassembler.streamAt
  cases hlookup : r.streams.lookup place with
  | none => exact hempty place.key i
  | some state => exact h place state hlookup i

theorem Everywhere.workingStream (h : Everywhere P r) (hempty : ∀ key i, P key i {})
    (metadata : PacketMetadata) (now : BitVec 64) (i : Fin 2) :
    P (makeKey metadata).1 i ((workingStream env r metadata now).directions i) := by
  rw [← key_workingPlace env r metadata now]
  exact (h.purgeExpired now).streamAt hempty _ i

theorem Everywhere.working (h : Everywhere P r) (hempty : ∀ key i, P key i {})
    (metadata : PacketMetadata) (now : BitVec 64) :
    P (makeKey metadata).1 (makeKey metadata).2 (working env r metadata now) :=
  h.workingStream hempty metadata now _

/-- `Insert` keeps a property that the segment keeps when it is stored. -/
theorem Everywhere.insert {metadata : PacketMetadata} {payload : List Byte} {now : BitVec 64}
    (h : Everywhere P r) (hempty : ∀ key i, P key i {})
    (hsegment : ∀ b b' d status, Inspects env metadata →
      Outcome env b (TcpStreamReassembler.working env r metadata now) (dataSequence metadata)
        payload status d b' → status.isError = false →
      P (makeKey metadata).1 (makeKey metadata).2
        (TcpStreamReassembler.working env r metadata now) →
      P (makeKey metadata).1 (makeKey metadata).2 d) :
    Everywhere P (r.insert env metadata payload now).2 := by
  intro place state hlookup i
  rcases (insertion_insert env r metadata payload now).lookup_cases hlookup with
    ⟨-, hold⟩ | ⟨-, -, hold⟩ | ⟨hinspects, rfl, d, b, houtcome, herror, -, rfl⟩
  · exact h place state hold i
  · exact h.purgeExpired now place state hold i
  · rw [key_workingPlace]
    by_cases hi : i = (makeKey metadata).2
    · rw [hi, stored_self]
      exact hsegment _ _ d _ hinspects houtcome herror (h.working hempty metadata now)
    · rw [stored_of_ne hi]
      exact h.workingStream hempty metadata now i

end Everywhere

end TcpStreamReassembler

/-! ## Runs -/

/-- What is done to a reassembler. -/
inductive ReassemblerOp where
  | insert (metadata : PacketMetadata) (payload : List Byte) (now : BitVec 64)
  | purge (now : BitVec 64)

/-- The reassembler after an operation. -/
def TcpStreamReassembler.apply (env : ReassemblerSetup) (r : TcpStreamReassembler) :
    ReassemblerOp → TcpStreamReassembler
  | .insert metadata payload now => (r.insert env metadata payload now).2
  | .purge now => r.purgeExpired env now

/-- A reassembler, from its construction on. -/
def reassembly (env : ReassemblerSetup) : System TcpStreamReassembler ReassemblerOp :=
  System.ofFun {} (TcpStreamReassembler.apply env)

open TcpStreamReassembler in
/-- A property that an empty direction has, and that segments keep when they are stored, holds
of every direction in every state of a run. -/
theorem everywhere_of_reach {env : ReassemblerSetup}
    {C : TcpStreamReassembler → ReassemblerOp → Prop}
    {P : StreamKey → Fin 2 → DirectionState → Prop} (hempty : ∀ key i, P key i {})
    (hsegment : ∀ r metadata payload now b b' d status, C r (.insert metadata payload now) →
      Everywhere P r → Inspects env metadata →
      Outcome env b (working env r metadata now) (dataSequence metadata) payload status d b' →
      status.isError = false →
      P (makeKey metadata).1 (makeKey metadata).2 (working env r metadata now) →
      P (makeKey metadata).1 (makeKey metadata).2 d)
    {r : TcpStreamReassembler} (h : ((reassembly env).restrict C).Reach r) : Everywhere P r := by
  refine h.invariant ?_ ?_
  · rintro r rfl
    exact everywhere_empty
  · rintro r op r' hr ⟨hC, rfl⟩
    cases op with
    | insert metadata payload now =>
        exact hr.insert hempty fun b b' d status ↦
          hsegment r metadata payload now b b' d status hC hr
    | purge now => exact hr.purgeExpired now

/-- In every state of a run no two pending segments of a direction start at the same place. -/
theorem distinct_of_reach {env : ReassemblerSetup} {r : TcpStreamReassembler}
    (h : (reassembly env).Reach r) : r.Everywhere fun _ _ d ↦ d.Distinct :=
  everywhere_of_reach (C := fun _ _ ↦ True) (fun _ _ ↦ List.nodup_nil)
    (fun _ _ _ _ _ _ _ _ _ _ _ houtcome hstatus hd ↦ houtcome.distinct hstatus hd)
    (h.restrict fun _ _ ↦ trivial)

/-- The padding of the keys that `Insert` makes for a connection, and of their copies, is always
the same. -/
def PaddedAs (env : ReassemblerSetup) (key : StreamKey) (padding : Byte) :
    TcpStreamReassembler → ReassemblerOp → Prop
  | r, .insert metadata _ _ => (makeKey metadata).1 = key →
      env.keyMemory.keyPadding r.calls = padding ∧ env.keyMemory.nodePadding r.calls = padding
  | _, .purge _ => True

open TcpStreamReassembler in
theorem workingPlace_of_paddedAs {env : ReassemblerSetup} {key : StreamKey} {padding : Byte}
    {r : TcpStreamReassembler} {metadata : PacketMetadata} {payload : List Byte}
    {now : BitVec 64} (h : PaddedAs env key padding r (.insert metadata payload now))
    (hkey : (makeKey metadata).1 = key) :
    workingPlace env r metadata now = env.keyMemory.place padding key := by
  obtain ⟨hsought, hnode⟩ := h hkey
  unfold workingPlace TcpStreamReassembler.place soughtPlace emplacedPlace
  simp only [calls_purgeExpired, hsought, hnode, hkey, ite_self]

open TcpStreamReassembler in
/-- As long as the padding is the same, a connection has a single stream and `Insert` comes upon
it. -/
theorem joins_of_paddedAs {env : ReassemblerSetup} {key : StreamKey} {padding : Byte}
    {r : TcpStreamReassembler} (h : ((reassembly env).restrict (PaddedAs env key padding)).Reach r)
    {metadata : PacketMetadata} {payload : List Byte} {now : BitVec 64}
    (hkey : (makeKey metadata).1 = key)
    (hpadding : PaddedAs env key padding r (.insert metadata payload now)) :
    Joins env r metadata now := by
  have hplaces : ∀ place state, r.streams.lookup place = some state → place.key = key →
      place = env.keyMemory.place padding key := by
    refine h.invariant (I := fun r ↦ ∀ place state, r.streams.lookup place = some state →
      place.key = key → place = env.keyMemory.place padding key) ?_ ?_
    · rintro r rfl place state hlookup
      rw [AList.lookup_empty] at hlookup
      cases hlookup
    · rintro r op r' hr ⟨hC, rfl⟩ place state hlookup hplace
      cases op with
      | insert metadata payload now =>
          rcases (insertion_insert env r metadata payload now).lookup_cases hlookup with
            ⟨-, hold⟩ | ⟨-, -, hold⟩ | ⟨-, rfl, -⟩
          · exact hr place state hold hplace
          · exact hr place state (lookup_of_purgeExpired hold) hplace
          · exact workingPlace_of_paddedAs hC ((key_workingPlace env r metadata now).symm.trans
              hplace)
      | purge now => exact hr place state (lookup_of_purgeExpired hlookup) hplace
  intro place hplace hplacekey
  obtain ⟨state, hstate⟩ := Option.isSome_iff_exists.mp (AList.lookup_isSome.mpr hplace)
  rw [workingPlace_of_paddedAs hpadding hkey]
  exact hplaces place state (lookup_of_purgeExpired hstate) (hplacekey.trans hkey)

/-! ### Packets one after the other -/

/-- A packet and the time it comes. -/
structure Arrival where
  metadata : PacketMetadata
  payload : List Byte
  now : BitVec 64

/-- `Insert` for one packet after the other: the results and the reassembler in the end. -/
def TcpStreamReassembler.insertAll (env : ReassemblerSetup) :
    TcpStreamReassembler → List Arrival → List TcpReassemblyResult × TcpStreamReassembler
  | r, [] => ([], r)
  | r, a :: as =>
      let inserted := r.insert env a.metadata a.payload a.now
      let rest := insertAll env inserted.2 as
      (inserted.1 :: rest.1, rest.2)

theorem TcpStreamReassembler.insertAll_append (env : ReassemblerSetup) (r : TcpStreamReassembler)
    (as bs : List Arrival) :
    r.insertAll env (as ++ bs) =
      ((r.insertAll env as).1 ++ ((r.insertAll env as).2.insertAll env bs).1,
        ((r.insertAll env as).2.insertAll env bs).2) := by
  induction as generalizing r with
  | nil => rfl
  | cons a as ih => simp only [List.cons_append, TcpStreamReassembler.insertAll, ih]

/-! ### A setup for examples -/

/-- Reassembly with the default limits and a clock of one cycle a second. -/
def defaultSetup : ReassemblerSetup := .new { enabled := true } 1

/-- A segment from 10.0.0.1:4096 to 10.0.0.2:80. -/
def clientSegment (sequence : BitVec 32) : PacketMetadata where
  sourceIpBe := 0x0100000a
  destinationIpBe := 0x0200000a
  sourcePortBe := 0x0010
  destinationPortBe := 0x5000
  tcpSequence := sequence

/-- A segment of another client, 10.0.0.3:4096, to 10.0.0.2:80. -/
def otherClientSegment (sequence : BitVec 32) : PacketMetadata :=
  { clientSegment sequence with sourceIpBe := 0x0300000a }

/-- The key of the client's connection. -/
def clientStreamKey : StreamKey := (makeKey (clientSegment 0)).1

theorem makeKey_clientSegment (sequence : BitVec 32) :
    makeKey (clientSegment sequence) = (clientStreamKey, 0) := by
  have hzero : makeKey (clientSegment 0) = (clientStreamKey, 0) := by decide +kernel
  exact hzero

theorem dataSequence_clientSegment (sequence : BitVec 32) :
    TcpStreamReassembler.dataSequence (clientSegment sequence) = sequence := by
  simp [TcpStreamReassembler.dataSequence, clientSegment, TcpStreamReassembler.rteTcpSynFlag]

/-- Where its stream is in `defaultSetup`. -/
def clientPlace : StreamPlace := defaultSetup.keyMemory.place 0 clientStreamKey

theorem key_clientPlace : clientPlace.key = clientStreamKey := rfl

/-- The same setup, where the `n`-th call of `Insert` finds other padding in its key. -/
def paddedSetup (n : Nat) : ReassemblerSetup :=
  { defaultSetup with
    keyMemory :=
      { keyPadding := fun m ↦ if m = n then 1 else 0
        nodePadding := fun m ↦ if m = n then 1 else 0 } }

end DpdkSpi
