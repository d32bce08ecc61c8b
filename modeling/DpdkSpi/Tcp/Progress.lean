import DpdkSpi.Tcp.Slices

/-!
# Progress

How far the contiguous part reaches, compared with what has come in.  `AddSegment` cuts a
new segment that overlaps the contiguous part and appends the rest; the loop of
`AppendAndDrain` only takes pending segments that start exactly where the contiguous part
ends, and leaves one that starts before that place and ends behind it.  As long as that
does not happen (`DrainsClean`) and the segments come upon their stream, the contiguous part is
the longest one that the received segments cover.
-/

namespace DpdkSpi

open Lib TcpStreamReassembler

/-! ## Received segments

A reassembler together with the segments that each connection has received since it had no stream
last. -/

/-- The reassembler and what its connections have received. -/
structure LoggedReassembler where
  reassembler : TcpStreamReassembler := {}
  received : StreamKey → Fin 2 → List PendingSegment := fun _ _ ↦ []

/-- The connection has a stream. -/
def TcpStreamReassembler.hasStream (r : TcpStreamReassembler) (key : StreamKey) : Bool :=
  r.streams.keys.any fun place ↦ place.key = key

/-- An operation, with a note of the segment; the first stream of a connection starts a new list. -/
def LoggedReassembler.apply (env : ReassemblerSetup) (s : LoggedReassembler) :
    ReassemblerOp → LoggedReassembler
  | .purge now => { s with reassembler := s.reassembler.purgeExpired env now }
  | .insert metadata payload now =>
      { reassembler := (s.reassembler.insert env metadata payload now).2
        received :=
          if Inspects env metadata then fun key i ↦
            (if (s.reassembler.purgeExpired env now).hasStream key then s.received key i
            else []) ++
              if makeKey metadata = (key, i) then [⟨dataSequence metadata, payload⟩] else []
          else s.received }

/-- The reassembler with its notes, from its construction on. -/
def loggedReassembly (env : ReassemblerSetup) : System LoggedReassembler ReassemblerOp :=
  System.ofFun {} (LoggedReassembler.apply env)

/-- The directions of a connection and the segments they have received are related. -/
def LoggedReassembler.Relates (key : StreamKey)
    (P : Fin 2 → List PendingSegment → DirectionState → Prop) (s : LoggedReassembler) : Prop :=
  ∀ place state, place.key = key → s.reassembler.streams.lookup place = some state →
    ∀ i, P i (s.received key i) (state.directions i)

/-- A segment of a connection comes upon its stream. -/
def JoinsOf (env : ReassemblerSetup) (key : StreamKey) (r : TcpStreamReassembler) :
    ReassemblerOp → Prop
  | .insert metadata _ now => Inspects env metadata → (makeKey metadata).1 = key →
      Joins env r metadata now
  | .purge _ => True

section

variable {env : ReassemblerSetup} {key : StreamKey}
  {P : Fin 2 → List PendingSegment → DirectionState → Prop} {s : LoggedReassembler}

theorem hasStream_of_lookup {r : TcpStreamReassembler} {place : StreamPlace} {state : StreamState}
    (hplace : place.key = key) (hlookup : r.streams.lookup place = some state) :
    r.hasStream key = true :=
  List.any_eq_true.mpr ⟨place, mem_keys_of_lookup hlookup, by simpa using hplace⟩

/-- The list that goes with the stream that a segment comes upon. -/
theorem LoggedReassembler.Relates.workingStream (h : s.Relates key P) (hempty : ∀ i, P i [] {})
    {metadata : PacketMetadata} (hkey : (makeKey metadata).1 = key) (now : BitVec 64)
    (hjoins : Joins env s.reassembler metadata now) (i : Fin 2) :
    P i (if (s.reassembler.purgeExpired env now).hasStream key then s.received key i else [])
      ((s.reassembler.workingStream env metadata now).directions i) := by
  have hplace := (key_workingPlace env s.reassembler metadata now).trans hkey
  rw [TcpStreamReassembler.workingStream, TcpStreamReassembler.streamAt]
  cases hlookup : (s.reassembler.purgeExpired env now).streams.lookup
      (workingPlace env s.reassembler metadata now) with
  | none =>
      rw [if_neg]
      · exact hempty i
      · intro hstream
        obtain ⟨place, hmem, hplace'⟩ := List.any_eq_true.mp hstream
        rw [hjoins place hmem (by rw [hkey]; simpa using hplace')] at hmem
        rw [← AList.mem_keys, ← AList.lookup_isSome, hlookup] at hmem
        cases hmem
  | some state =>
      rw [if_pos (hasStream_of_lookup hplace hlookup)]
      exact h _ state hplace (lookup_of_purgeExpired hlookup) i

theorem LoggedReassembler.Relates.insert (h : s.Relates key P) (hempty : ∀ i, P i [] {})
    {metadata : PacketMetadata} {payload : List Byte} {now : BitVec 64}
    (hjoins : JoinsOf env key s.reassembler (.insert metadata payload now))
    (hsegment : ∀ b b' d status log, Inspects env metadata → (makeKey metadata).1 = key →
      Outcome env b (s.reassembler.working env metadata now) (dataSequence metadata) payload
        status d b' → status.isError = false →
      P (makeKey metadata).2 log (s.reassembler.working env metadata now) →
      P (makeKey metadata).2 (log ++ [⟨dataSequence metadata, payload⟩]) d) :
    (s.apply env (.insert metadata payload now)).Relates key P := by
  intro place state hplace hlookup i
  dsimp only [LoggedReassembler.apply] at hlookup ⊢
  rcases (insertion_insert env s.reassembler metadata payload now).lookup_cases hlookup with
    ⟨hskip, hold⟩ | ⟨hinspects, hne, hold⟩ |
      ⟨hinspects, rfl, d, b, houtcome, herror, -, rfl⟩
  · rw [if_neg hskip]
    exact h place state hplace hold i
  · have hother : (makeKey metadata).1 ≠ key := by
      intro hkey
      have hmem := mem_keys_of_lookup hold
      exact hne (hjoins hinspects hkey place hmem (hplace.trans hkey.symm))
    have hne' : makeKey metadata ≠ (key, i) := fun heq ↦ hother (congrArg Prod.fst heq)
    rw [if_pos hinspects, if_neg hne', List.append_nil, if_pos (hasStream_of_lookup hplace hold)]
    exact h place state hplace (lookup_of_purgeExpired hold) i
  · rw [key_workingPlace] at hplace
    have hbefore := h.workingStream hempty hplace now (hjoins hinspects hplace) i
    rw [if_pos hinspects]
    by_cases hi : i = (makeKey metadata).2
    · subst hi
      have heq : makeKey metadata = (key, (makeKey metadata).2) := Prod.ext hplace rfl
      rw [stored_self, if_pos heq]
      exact hsegment _ _ d _ _ hinspects hplace houtcome herror hbefore
    · have hne : makeKey metadata ≠ (key, i) := fun heq ↦ hi (congrArg Prod.snd heq).symm
      rw [stored_of_ne hi, if_neg hne, List.append_nil]
      exact hbefore

/-- What an empty direction has without segments, and every stored segment keeps, holds in
every state of a run in which the segments of the connection come upon its stream. -/
theorem relates_of_reach {C : LoggedReassembler → ReassemblerOp → Prop} (hempty : ∀ i, P i [] {})
    (hjoins : ∀ s op, C s op → JoinsOf env key s.reassembler op)
    (hsegment : ∀ s metadata payload now b b' d status log, C s (.insert metadata payload now) →
      Inspects env metadata → (makeKey metadata).1 = key →
      Outcome env b (s.reassembler.working env metadata now) (dataSequence metadata) payload
        status d b' → status.isError = false →
      P (makeKey metadata).2 log (s.reassembler.working env metadata now) →
      P (makeKey metadata).2 (log ++ [⟨dataSequence metadata, payload⟩]) d)
    (h : ((loggedReassembly env).restrict C).Reach s) : s.Relates key P := by
  refine h.invariant ?_ ?_
  · rintro s rfl place state - hlookup
    rw [AList.lookup_empty] at hlookup
    cases hlookup
  · rintro s op s' hs ⟨hC, rfl⟩
    cases op with
    | insert metadata payload now =>
        exact hs.insert hempty (hjoins s _ hC) fun b b' d status log ↦
          hsegment s metadata payload now b b' d status log hC
    | purge now =>
        intro place state hplace hlookup i
        exact hs place state hplace (lookup_of_purgeExpired hlookup) i

end

/-! ## What is covered -/

/-- The segment covers position `n` of the stream. -/
def PendingSegment.Covers (stream : List Byte) (isn : BitVec 32) (p : PendingSegment) (n : Nat) :
    Prop :=
  ∃ o, p.sequence = Serial.nth isn o ∧ Slice stream o p.payload ∧ o ≤ n ∧ n < o + p.payload.length

/-- The segment ends at position `n` or before. -/
def PendingSegment.EndsBy (stream : List Byte) (isn : BitVec 32) (p : PendingSegment) (n : Nat) :
    Prop :=
  ∃ o, p.sequence = Serial.nth isn o ∧ Slice stream o p.payload ∧ o + p.payload.length ≤ n

/-- The segment starts at a place or before it, and ends behind it. -/
def PendingSegment.Contains (p : PendingSegment) (place : BitVec 32) : Prop :=
  sequenceDistance p.sequence place ≤ 0 ∧
    0 < sequenceDistance (p.sequence + BitVec.ofNat 32 p.payload.length) place

/-- With the base at position `base`: the contiguous part is covered, and what has been
received is in it or pending. -/
structure Covering (stream : List Byte) (isn : BitVec 32) (base : Nat)
    (log : List PendingSegment) (d : DirectionState) : Prop where
  stands : d.StandsAt stream isn base
  covered : ∀ n, base ≤ n → n < base + d.contiguous.length →
    ∃ p ∈ log, p.Covers stream isn n
  settled : ∀ p ∈ log, p.payload ≠ [] →
    p ∈ d.pending ∨ p.EndsBy stream isn (base + d.contiguous.length)

/-- What the received segments and a direction have to do with each other. -/
structure Follows (stream : List Byte) (isn : BitVec 32) (log : List PendingSegment)
    (d : DirectionState) : Prop where
  slices : d.SlicesOf stream isn
  distinct : d.Distinct
  pending : ∀ p ∈ d.pending, p ∈ log ∧ p.payload ≠ []
  known : d.baseKnown = true → ∃ base, Covering stream isn base log d
  unknown : d.baseKnown = false → ∀ p ∈ log, p.payload ≠ [] → p ∈ d.pending

theorem follows_empty (stream : List Byte) (isn : BitVec 32) : Follows stream isn [] {} where
  slices := DirectionState.slicesOf_empty stream isn
  distinct := List.nodup_nil
  pending _ hp := absurd hp List.not_mem_nil
  known h := absurd h Bool.false_ne_true
  unknown _ _ hp := absurd hp List.not_mem_nil

section

variable {stream : List Byte} {isn : BitVec 32} {base : Nat} {log : List PendingSegment}
  {d : DirectionState}

theorem PendingSegment.EndsBy.mono {p : PendingSegment} {m n : Nat}
    (h : p.EndsBy stream isn m) (hle : m ≤ n) : p.EndsBy stream isn n := by
  obtain ⟨o, hsequence, hslice, hend⟩ := h
  exact ⟨o, hsequence, hslice, hend.trans hle⟩

/-- A slice contains a place of the stream if it covers it. -/
theorem PendingSegment.contains_iff (hstream : stream.length < 2 ^ 31) {p : PendingSegment}
    {o n : Nat} (hsequence : p.sequence = Serial.nth isn o) (hslice : Slice stream o p.payload)
    (hn : n ≤ stream.length) :
    p.Contains (Serial.nth isn n) ↔ o ≤ n ∧ n < o + p.payload.length := by
  have hbound := hslice.bound
  rw [PendingSegment.Contains, hsequence, Serial.nth_add,
    sequenceDistance_nth hstream (by omega) hn, sequenceDistance_nth hstream hbound hn]
  omega

theorem PendingSegment.contains_iff_covers (hstream : stream.length < 2 ^ 31)
    {p : PendingSegment} (hp : SliceAt stream isn p.sequence p.payload) {n : Nat}
    (hn : n ≤ stream.length) : p.Contains (Serial.nth isn n) ↔ p.Covers stream isn n := by
  constructor
  · intro hcontains
    obtain ⟨o, hsequence, hslice⟩ := hp
    exact ⟨o, hsequence, hslice, (contains_iff hstream hsequence hslice hn).mp hcontains⟩
  · rintro ⟨o, hsequence, hslice, hcovers⟩
    exact (contains_iff hstream hsequence hslice hn).mpr hcovers

/-- What ends before a place does not contain it, nor does it start there if it has bytes. -/
theorem PendingSegment.EndsBy.not_contains (hstream : stream.length < 2 ^ 31)
    {p : PendingSegment} {n : Nat} (h : p.EndsBy stream isn n) (hn : n ≤ stream.length) :
    ¬p.Contains (Serial.nth isn n) := by
  obtain ⟨o, hsequence, hslice, hend⟩ := h
  rw [contains_iff hstream hsequence hslice hn]
  omega

theorem PendingSegment.EndsBy.sequence_ne (hstream : stream.length < 2 ^ 31)
    {p : PendingSegment} {n : Nat} (h : p.EndsBy stream isn n) (hn : n ≤ stream.length)
    (hpayload : p.payload ≠ []) : p.sequence ≠ Serial.nth isn n := by
  obtain ⟨o, hsequence, hslice, hend⟩ := h
  have hpos := List.length_pos_of_ne_nil hpayload
  have hbound := hslice.bound
  rw [hsequence, ne_eq, nth_eq_iff hstream (by omega) hn]
  omega

/-- A round of draining covers what it takes. -/
theorem Covering.round (hstream : stream.length < 2 ^ 31) (h : Covering stream isn base log d)
    (hpending' : ∀ p ∈ d.pending, SliceAt stream isn p.sequence p.payload ∧ p ∈ log)
    {p : PendingSegment} {before after : List PendingSegment}
    (hpending : d.pending = before ++ p :: after) (hp : p.sequence = d.nextSequence) :
    Covering stream isn base log { d.extend p.payload with pending := before ++ after } := by
  have hmem := fun q ↦ DirectionState.mem_pending_iff (q := q) hpending
  obtain ⟨hslice, hlog⟩ := hpending' p ((hmem p).mpr (.inl rfl))
  have hcontinues := h.stands.continues hstream hslice hp
  have hsequence : p.sequence = Serial.nth isn (base + d.contiguous.length) :=
    hp.trans h.stands.next_eq
  have hlength := d.length_contiguous_extend p.payload
  refine ⟨(h.stands.extend hcontinues).withPending _, ?_, ?_⟩
  · intro n hbase hn
    dsimp only at hn
    rw [hlength] at hn
    by_cases hold : n < base + d.contiguous.length
    · exact h.covered n hbase hold
    · exact ⟨p, hlog, _, hsequence, hcontinues, not_lt.mp hold, by omega⟩
  · intro q hq hpayload
    dsimp only
    rw [hlength]
    rcases h.settled q hq hpayload with hq' | hq'
    · rcases (hmem q).mp hq' with rfl | hq'
      · exact .inr ⟨_, hsequence, hcontinues, by omega⟩
      · exact .inl hq'
    · exact .inr (hq'.mono (by omega))

/-- A segment that is appended covers what is new. -/
theorem Follows.covering (hstream : stream.length < 2 ^ 31) (h : Follows stream isn log d)
    {env : ReassemblerSetup} {p : PendingSegment} {start : DirectionState} {bytes : List Byte}
    (hp : SliceAt stream isn p.sequence p.payload)
    (hroute : route env d p.sequence p.payload = .append start bytes) :
    ∃ base, Covering stream isn base (log ++ [p]) (start.extend bytes) := by
  obtain ⟨o, hsequence, hslice⟩ := hp
  rw [hsequence] at hroute
  obtain ⟨base, hstands, hbytes, hle, hend⟩ := h.slices.appends hstream hslice hroute
  have happends := route_append hroute
  have hlength := start.length_contiguous_extend bytes
  have hlogged : p ∈ log ++ [p] := List.mem_append_right _ List.mem_cons_self
  -- what was covered and settled before, in the direction that is extended
  have hbefore : (∀ n, base ≤ n → n < base + start.contiguous.length →
      ∃ q ∈ log, q.Covers stream isn n) ∧
      ∀ q ∈ log, q.payload ≠ [] →
        q ∈ d.pending ∨ q.EndsBy stream isn (base + start.contiguous.length) := by
    rcases happends.extends_or_starts with ⟨hknown, rfl, -⟩ | ⟨hunknown, -, rfl, -⟩
    · obtain ⟨base', hcovering⟩ := h.known hknown
      obtain rfl := hcovering.stands.base_unique hstream hstands
      exact ⟨hcovering.covered, hcovering.settled⟩
    · refine ⟨fun n hbase hn ↦ ?_, fun q hq hpayload ↦ .inl (h.unknown hunknown q hq hpayload)⟩
      rw [DirectionState.withBase, h.slices.empty hunknown, List.length_nil] at hn
      omega
  refine ⟨base, hstands.extend hbytes, ?_, ?_⟩
  · intro n hbase hn
    rw [hlength] at hn
    by_cases hold : n < base + start.contiguous.length
    · obtain ⟨q, hq, hcovers⟩ := hbefore.1 n hbase hold
      exact ⟨q, List.mem_append_left _ hq, hcovers⟩
    · exact ⟨p, hlogged, o, hsequence, hslice, by omega, by omega⟩
  · intro q hq hpayload
    rw [hlength]
    rcases List.mem_append.mp hq with hq | hq
    · rcases hbefore.2 q hq hpayload with hpending | hends
      · refine .inl ?_
        rw [DirectionState.extend, happends.pending_eq]
        exact hpending
      · exact .inr (hends.mono (by omega))
    · obtain rfl := List.mem_singleton.mp hq
      exact .inr ⟨o, hsequence, hslice, by omega⟩

end

/-! ### A segment is stored -/

section

variable {stream : List Byte} {isn : BitVec 32} {log : List PendingSegment}
  {env : ReassemblerSetup} {b b' : Nat} {d d' : DirectionState} {p : PendingSegment}
  {status : TcpReassemblyStatus}

/-- Draining keeps what is known about the received segments. -/
theorem Covering.drains (hstream : stream.length < 2 ^ 31) {limit base : Nat}
    (h : Covering stream isn base log d)
    (hpending : ∀ q ∈ d.pending, SliceAt stream isn q.sequence q.payload ∧ q ∈ log)
    (hdrains : Drains limit d status d') :
    Covering stream isn base log d' ∧ d'.pending ⊆ d.pending := by
  refine hdrains.invariant (I := fun e ↦ Covering stream isn base log e ∧ e.pending ⊆ d.pending)
    ?_ ⟨h, List.Subset.refl _⟩
  intro e q before after hsplit hq _ he
  refine ⟨he.1.round hstream (fun q' hq' ↦ hpending q' (he.2 hq')) hsplit hq, ?_⟩
  intro q' hq'
  exact he.2 ((DirectionState.mem_pending_iff hsplit).mpr (.inr hq'))

theorem Follows.also (h : Follows stream isn log d)
    (hp : p.payload ≠ [] → p ∈ d.pending ∨ (d.baseKnown = true ∧ ∀ base,
      d.StandsAt stream isn base → p.EndsBy stream isn (base + d.contiguous.length))) :
    Follows stream isn (log ++ [p]) d where
  slices := h.slices
  distinct := h.distinct
  pending q hq := ⟨List.mem_append_left _ (h.pending q hq).1, (h.pending q hq).2⟩
  known hknown := by
    obtain ⟨base, hcovering⟩ := h.known hknown
    refine ⟨base, hcovering.stands, fun n hbase hn ↦ ?_, fun q hq hpayload ↦ ?_⟩
    · obtain ⟨q, hq, hcovers⟩ := hcovering.covered n hbase hn
      exact ⟨q, List.mem_append_left _ hq, hcovers⟩
    · rcases List.mem_append.mp hq with hq | hq
      · exact hcovering.settled q hq hpayload
      · obtain rfl := List.mem_singleton.mp hq
        rcases hp hpayload with hpending | ⟨-, hends⟩
        · exact .inl hpending
        · exact .inr (hends base hcovering.stands)
  unknown hunknown q hq hpayload := by
    rcases List.mem_append.mp hq with hq | hq
    · exact h.unknown hunknown q hq hpayload
    · obtain rfl := List.mem_singleton.mp hq
      rcases hp hpayload with hpending | ⟨hknown, -⟩
      · exact hpending
      · cases hknown.symm.trans hunknown

theorem Follows.queued (h : Follows stream isn log d) (hpayload : p.payload ≠ [])
    (hslice : SliceAt stream isn p.sequence p.payload)
    (hdistinct : ({ d with pending := d.pending ++ [p] } : DirectionState).Distinct) :
    Follows stream isn (log ++ [p]) { d with pending := d.pending ++ [p] } where
  slices := by
    refine ⟨fun q hq ↦ ?_, fun hknown ↦ ?_, h.slices.empty⟩
    · rcases List.mem_append.mp hq with hq | hq
      · exact h.slices.pending q hq
      · rw [List.mem_singleton.mp hq]
        exact hslice
    · obtain ⟨base, hstands⟩ := h.slices.stands hknown
      exact ⟨base, hstands.withPending _⟩
  distinct := hdistinct
  pending q hq := by
    rcases List.mem_append.mp hq with hq | hq
    · exact ⟨List.mem_append_left _ (h.pending q hq).1, (h.pending q hq).2⟩
    · rw [List.mem_singleton.mp hq]
      exact ⟨List.mem_append_right _ List.mem_cons_self, hpayload⟩
  known hknown := by
    obtain ⟨base, hcovering⟩ := h.known hknown
    refine ⟨base, hcovering.stands.withPending _, fun n hbase hn ↦ ?_, fun q hq hne ↦ ?_⟩
    · obtain ⟨q, hq, hcovers⟩ := hcovering.covered n hbase hn
      exact ⟨q, List.mem_append_left _ hq, hcovers⟩
    · rcases List.mem_append.mp hq with hq | hq
      · rcases hcovering.settled q hq hne with hpending | hends
        · exact .inl (List.mem_append_left _ hpending)
        · exact .inr hends
      · exact .inl (List.mem_append_right _ hq)
  unknown hunknown q hq hne := by
    rcases List.mem_append.mp hq with hq | hq
    · exact List.mem_append_left _ (h.unknown hunknown q hq hne)
    · exact List.mem_append_right _ hq

end

/-! ## Draining that leaves nothing behind -/

/-- Nothing pending contains the place where the contiguous part ends. -/
def DirectionState.Drained (d : DirectionState) : Prop :=
  d.baseKnown = true → ∀ p ∈ d.pending, ¬p.Contains d.nextSequence

/-- Pending segments lead from one place to another, each from where the one before ends. -/
inductive Chain (pending : List PendingSegment) : BitVec 32 → BitVec 32 → Prop
  | refl (x : BitVec 32) : Chain pending x x
  | step {p : PendingSegment} {x y : BitVec 32} (hmem : p ∈ pending) (hp : p.sequence = x)
      (rest : Chain pending (x + BitVec.ofNat 32 p.payload.length) y) : Chain pending x y

/-- Where the pending segments lead to, another one starts or none is cut in two. -/
def EndsClean (pending : List PendingSegment) (x : BitVec 32) : Prop :=
  ∀ y, Chain pending x y → (∃ p ∈ pending, p.Contains y) → ∃ q ∈ pending, q.sequence = y

/-- If the segment is appended, the pending ones that follow it do not end inside another one. -/
def CleanSegment (env : ReassemblerSetup) (d : DirectionState) (sequence : BitVec 32)
    (payload : List Byte) : Prop :=
  ∀ start bytes, route env d sequence payload = .append start bytes →
    EndsClean d.pending (start.nextSequence + BitVec.ofNat 32 bytes.length)

theorem Chain.mono {pending pending' : List PendingSegment} (hsub : pending ⊆ pending')
    {x y : BitVec 32} (h : Chain pending x y) : Chain pending' x y := by
  induction h with
  | refl x => exact .refl x
  | step hmem hp _ ih => exact .step (hsub hmem) hp ih

/-- Where no two segments start at one place, there is one place to end at. -/
theorem Chain.unique {pending : List PendingSegment}
    (hdistinct : ∀ p ∈ pending, ∀ q ∈ pending, p.sequence = q.sequence → p = q)
    {x y z : BitVec 32} (hy : Chain pending x y) (hz : Chain pending x z)
    (hendy : ∀ q ∈ pending, q.sequence ≠ y) (hendz : ∀ q ∈ pending, q.sequence ≠ z) : y = z := by
  induction hy with
  | refl x =>
      cases hz with
      | refl => rfl
      | step hmem hp _ => exact absurd hp (hendy _ hmem)
  | step hmem hp _ ih =>
      cases hz with
      | refl => exact absurd hp (hendz _ hmem)
      | step hmem' hp' hrest =>
          rw [hdistinct _ hmem' _ hmem (hp'.trans hp.symm)] at hrest
          exact ih hrest hendy

theorem Drains.chain {limit : Nat} {d d' : DirectionState} {status : TcpReassemblyStatus}
    (h : Drains limit d status d') : Chain d.pending d.nextSequence d'.nextSequence := by
  induction h with
  | done _ => exact .refl _
  | full _ _ _ => exact .refl _
  | @take d d' status p before after hpending hp _ _ ih =>
      have hmem := fun q ↦ DirectionState.mem_pending_iff (q := q) hpending
      exact .step ((hmem p).mpr (.inl rfl)) hp (ih.mono fun q hq ↦ (hmem q).mpr (.inr hq))

section

variable {stream : List Byte} {isn : BitVec 32} {log : List PendingSegment}
  {env : ReassemblerSetup} {b b' : Nat} {d d' : DirectionState} {p : PendingSegment}
  {status : TcpReassemblyStatus}

/-- Draining leaves nothing behind exactly if it ends clean. -/
theorem Covering.drained_iff (hstream : stream.length < 2 ^ 31) {limit base : Nat}
    (h : Covering stream isn base log d) (hdistinct : d.Distinct)
    (hpending : ∀ q ∈ d.pending, SliceAt stream isn q.sequence q.payload ∧ q ∈ log)
    (hpayload : ∀ q ∈ d.pending, q.payload ≠ []) (hdrains : Drains limit d .kReady d') :
    (∀ q ∈ d'.pending, ¬q.Contains d'.nextSequence) ↔ EndsClean d.pending d.nextSequence := by
  obtain ⟨h', hsub⟩ := h.drains hstream hpending hdrains
  have hbound := h'.stands.slice.bound
  have hsettled : ∀ q ∈ d.pending, q ∈ d'.pending ∨
      q.EndsBy stream isn (base + d'.contiguous.length) :=
    fun q hq ↦ h'.settled q (hpending q hq).2 (hpayload q hq)
  have hterminal : ∀ q ∈ d.pending, q.sequence ≠ d'.nextSequence := by
    intro q hq
    rcases hsettled q hq with hq' | hends
    · exact hdrains.not_mem rfl q hq'
    · rw [h'.stands.next_eq]
      exact hends.sequence_ne hstream hbound (hpayload q hq)
  constructor
  · intro hnone y hchain hcontains
    obtain ⟨q, hq, hcontains⟩ := hcontains
    by_contra hno
    have hend : ∀ q ∈ d.pending, q.sequence ≠ y := fun q hq heq ↦ hno ⟨q, hq, heq⟩
    obtain rfl := Chain.unique (fun p hp q hq ↦ hdistinct.eq hp hq) hchain hdrains.chain hend
      hterminal
    rcases hsettled q hq with hq' | hends
    · exact hnone q hq' hcontains
    · rw [h'.stands.next_eq] at hcontains
      exact hends.not_contains hstream hbound hcontains
  · intro hclean q hq hcontains
    obtain ⟨q', hq', hstart⟩ := hclean _ hdrains.chain ⟨q, hsub hq, hcontains⟩
    exact hterminal q' hq' hstart

theorem Follows.step_append (hstream : stream.length < 2 ^ 31) (h : Follows stream isn log d)
    (hp : SliceAt stream isn p.sequence p.payload) {start : DirectionState} {bytes : List Byte}
    (hroute : route env d p.sequence p.payload = .append start bytes)
    (houtcome : Outcome env b d p.sequence p.payload status d' b')
    (hok : status.isError = false) :
    Follows stream isn (log ++ [p]) d' ∧
      (d'.Drained ↔ CleanSegment env d p.sequence p.payload) := by
  obtain ⟨base, hcovering⟩ := h.covering hstream hp hroute
  have hpending_eq : (start.extend bytes).pending = d.pending := (route_append hroute).pending_eq
  have hpending : ∀ q ∈ (start.extend bytes).pending,
      SliceAt stream isn q.sequence q.payload ∧ q ∈ log ++ [p] := by
    intro q hq
    rw [hpending_eq] at hq
    exact ⟨h.slices.pending q hq, List.mem_append_left _ (h.pending q hq).1⟩
  have hpayload : ∀ q ∈ (start.extend bytes).pending, q.payload ≠ [] := by
    intro q hq
    rw [hpending_eq] at hq
    exact (h.pending q hq).2
  have hdistinct : (start.extend bytes).Distinct := by
    rw [DirectionState.Distinct, hpending_eq]
    exact h.distinct
  rcases houtcome.of_append hroute with ⟨-, rfl, -⟩ | ⟨-, -, hdrains, -⟩
  · cases hok
  · obtain ⟨hcovering', hsub⟩ := hcovering.drains hstream hpending hdrains
    have hready : status = .kReady := by
      rcases hdrains.status_eq with hs | hs
      · exact hs
      · rw [hs] at hok
        cases hok
    constructor
    · refine ⟨houtcome.slicesOf hstream hok hp h.slices, houtcome.distinct hok h.distinct, ?_,
        fun _ ↦ ⟨base, hcovering'⟩, fun hunknown ↦ ?_⟩
      · intro q hq
        exact ⟨(hpending q (hsub hq)).2, hpayload q (hsub hq)⟩
      · cases hcovering'.stands.known.symm.trans hunknown
    · rw [hready] at hdrains
      have hiff := hcovering.drained_iff hstream hdistinct hpending hpayload hdrains
      rw [hpending_eq] at hiff
      constructor
      · intro hdrained start' bytes' hroute'
        obtain ⟨rfl, rfl⟩ := Route.append.inj (hroute.symm.trans hroute')
        exact hiff.mp (hdrained hcovering'.stands.known)
      · intro hclean _
        exact hiff.mpr (hclean start bytes hroute)

/-- What a stored segment does to the bookkeeping, and when it leaves nothing behind. -/
theorem Follows.step (hstream : stream.length < 2 ^ 31) (h : Follows stream isn log d)
    (hp : SliceAt stream isn p.sequence p.payload)
    (houtcome : Outcome env b d p.sequence p.payload status d' b')
    (hok : status.isError = false) :
    Follows stream isn (log ++ [p]) d' ∧
      (d.Drained → (d'.Drained ↔ CleanSegment env d p.sequence p.payload)) := by
  cases hroute : route env d p.sequence p.payload with
  | append start bytes =>
      obtain ⟨hfollows, hiff⟩ := h.step_append hstream hp hroute houtcome hok
      exact ⟨hfollows, fun _ ↦ hiff⟩
  | reject =>
      obtain ⟨rfl, -⟩ := houtcome.of_reject hroute
      cases hok
  | ignore =>
      have hclean : CleanSegment env d p.sequence p.payload :=
        fun start bytes hroute' ↦ by cases hroute.symm.trans hroute'
      obtain ⟨-, rfl, -⟩ := houtcome.of_ignore hroute
      refine ⟨h.also fun hpayload ↦ .inr ?_, fun hdrained ↦ iff_of_true hdrained hclean⟩
      rcases route_ignore hroute with hnil | ⟨hknown, -, hend⟩
      · exact absurd hnil hpayload
      · refine ⟨hknown, fun base hstands ↦ ?_⟩
        obtain ⟨o, hsequence, hslice⟩ := hp
        rw [hsequence, hstands.next_eq, Serial.nth_add,
          sequenceDistance_nth hstream hslice.bound hstands.slice.bound] at hend
        exact ⟨o, hsequence, hslice, by omega⟩
  | queue =>
      have hclean : CleanSegment env d p.sequence p.payload :=
        fun start bytes hroute' ↦ by cases hroute.symm.trans hroute'
      obtain ⟨hpayload, -, hearly⟩ := route_queue_iff.mp hroute
      rcases houtcome.of_queue hroute with ⟨-, rfl, -⟩ | ⟨-, -, hcases⟩
      · cases hok
      · rcases hcases with ⟨q, hq, hsequence, hsame, -, rfl, -⟩ | ⟨-, -, -, -, rfl, -⟩ |
          ⟨-, -, rfl, -⟩
        · refine ⟨h.also fun _ ↦ .inl ?_, fun hdrained ↦ iff_of_true hdrained hclean⟩
          have heq : q = p := by
            cases q
            cases p
            simp_all
          rw [← heq]
          exact hq
        · cases hok
        · refine ⟨h.queued hpayload hp (houtcome.distinct hok h.distinct),
            fun hdrained ↦ iff_of_true (fun hknown q hq ↦ ?_) hclean⟩
          rcases List.mem_append.mp hq with hq | hq
          · exact hdrained hknown q hq
          · rw [List.mem_singleton.mp hq]
            exact fun hcontains ↦ absurd hcontains.1 (not_le.mpr (hearly hknown))

end

/-! ## Runs -/

/-- No segment of the direction makes draining end inside a pending one. -/
def DrainsClean (env : ReassemblerSetup) (key : StreamKey) (i : Fin 2) (r : TcpStreamReassembler) :
    ReassemblerOp → Prop
  | .insert metadata payload now => Inspects env metadata → makeKey metadata = (key, i) →
      CleanSegment env (r.working env metadata now) (dataSequence metadata) payload
  | .purge _ => True

/-- The received segments cover the contiguous part and not the place behind it. -/
theorem Covering.longest {stream : List Byte} {isn : BitVec 32} {base : Nat}
    {log : List PendingSegment} {d : DirectionState} (hstream : stream.length < 2 ^ 31)
    (h : Covering stream isn base log d)
    (hpending : ∀ p ∈ d.pending, SliceAt stream isn p.sequence p.payload)
    (hdrained : ∀ p ∈ d.pending, ¬p.Contains d.nextSequence) :
    ¬∃ p ∈ log, p.Covers stream isn (base + d.contiguous.length) := by
  rintro ⟨p, hp, hcovers⟩
  have hbound := h.stands.slice.bound
  have hpayload : p.payload ≠ [] := by
    obtain ⟨o, -, -, hle, hlt⟩ := hcovers
    rintro hnil
    rw [hnil, List.length_nil] at hlt
    omega
  rcases h.settled p hp hpayload with hmem | hends
  · refine hdrained p hmem ?_
    rw [h.stands.next_eq]
    exact (PendingSegment.contains_iff_covers hstream (hpending p hmem) hbound).mpr hcovers
  · obtain ⟨o, hsequence, hslice, hrange⟩ := hcovers
    exact hends.not_contains hstream hbound
      ((PendingSegment.contains_iff hstream hsequence hslice hbound).mpr hrange)

/-- In a run in which the segments of a direction are slices of one stream, those of the connection
come upon its stream and draining never ends inside a pending segment, the contiguous part is always
the longest one from the base on that the received segments cover, and no pending segment contains
its end.  The next segment that is stored keeps it so exactly if draining does not end inside a
pending one then. -/
theorem maximal_progress {env : ReassemblerSetup} {stream : List Byte} {isn : BitVec 32}
    {key : StreamKey} {i : Fin 2} (hstream : stream.length < 2 ^ 31) {s : LoggedReassembler}
    (h : ((loggedReassembly env).restrict fun s op ↦
      SlicesOnly stream isn key i s.reassembler op ∧ JoinsOf env key s.reassembler op ∧
        DrainsClean env key i s.reassembler op).Reach s) :
    (∀ place state, place.key = key → s.reassembler.streams.lookup place = some state →
      (state.directions i).baseKnown = true →
      (∃ base, (state.directions i).baseSequence = Serial.nth isn base ∧
        (∀ n, base ≤ n → n < base + (state.directions i).contiguous.length →
          ∃ p ∈ s.received key i, p.Covers stream isn n) ∧
        ¬∃ p ∈ s.received key i,
          p.Covers stream isn (base + (state.directions i).contiguous.length)) ∧
      ∀ p ∈ (state.directions i).pending, ¬p.Contains (state.directions i).nextSequence) ∧
    ∀ metadata payload now state, Inspects env metadata → makeKey metadata = (key, i) →
      SliceAt stream isn (dataSequence metadata) payload →
      Joins env s.reassembler metadata now →
      (s.reassembler.insert env metadata payload now).2.streams.lookup
        (workingPlace env s.reassembler metadata now) = some state →
      ((state.directions i).Drained ↔
        CleanSegment env (s.reassembler.working env metadata now) (dataSequence metadata)
          payload) := by
  have hempty : ∀ i', i' = i → Follows stream isn [] {} ∧ ({} : DirectionState).Drained :=
    fun _ _ ↦ ⟨follows_empty stream isn, fun hknown ↦ absurd hknown Bool.false_ne_true⟩
  have hall : s.Relates key fun i' log d ↦ i' = i → Follows stream isn log d ∧ d.Drained := by
    refine relates_of_reach hempty (fun _ _ hC ↦ hC.2.1) ?_ h
    intro s metadata payload now b b' d status log hC hinspects hkey houtcome hok hbefore hi
    obtain ⟨hfollows, hdrained⟩ := hbefore hi
    have hslice := hC.1 hinspects.2 (Prod.ext hkey hi)
    obtain ⟨hfollows', hiff⟩ := hfollows.step hstream (p := ⟨dataSequence metadata, payload⟩)
      hslice houtcome hok
    exact ⟨hfollows', (hiff hdrained).mpr (hC.2.2 hinspects (Prod.ext hkey hi))⟩
  constructor
  · intro place state hplace hlookup hknown
    obtain ⟨hfollows, hdrained⟩ := hall place state hplace hlookup i rfl
    obtain ⟨base, hcovering⟩ := hfollows.known hknown
    refine ⟨⟨base, hcovering.stands.base_eq, hcovering.covered, ?_⟩, hdrained hknown⟩
    exact hcovering.longest hstream hfollows.slices.pending (hdrained hknown)
  · intro metadata payload now state hinspects hkey hslice hjoins hlookup
    obtain ⟨rfl, rfl⟩ : (makeKey metadata).1 = key ∧ (makeKey metadata).2 = i := by simp [hkey]
    rcases (insertion_insert env s.reassembler metadata payload now).lookup_cases hlookup with
      ⟨hskip, -⟩ | ⟨-, hne, -⟩ | ⟨-, -, d, b, houtcome, hok, -, rfl⟩
    · exact absurd hinspects hskip
    · exact absurd rfl hne
    · obtain ⟨hfollows, hdrained⟩ : Follows stream isn _ (s.reassembler.working env metadata now) ∧
          (s.reassembler.working env metadata now).Drained :=
        hall.workingStream hempty rfl now hjoins (makeKey metadata).2 rfl
      rw [stored_self]
      exact (hfollows.step hstream (p := ⟨dataSequence metadata, payload⟩) hslice houtcome
        hok).2 hdrained

/-- The segment at 6 comes early and is drained behind the one at 4; then one at 12 comes early. -/
def earlyOps : List ReassemblerOp :=
  [.insert (clientSegment 0) (asciiBytes "GET ") 0, .insert (clientSegment 6) (asciiBytes "cd") 1,
    .insert (clientSegment 4) (asciiBytes "ab") 2, .insert (clientSegment 12) (asciiBytes "gh") 3]

/-- The reassembler and its notes after them. -/
def earlyRun : LoggedReassembler := earlyOps.foldl (LoggedReassembler.apply defaultSetup) {}

/-- The stream of the client then. -/
def earlyState : StreamState :=
  (earlyRun.reassembler.streams.lookup clientPlace).get (by decide +kernel)

theorem cleanSegment_of_pending_eq_nil {env : ReassemblerSetup} {d : DirectionState}
    (hpending : d.pending = []) (sequence : BitVec 32) (payload : List Byte) :
    CleanSegment env d sequence payload := by
  rintro start bytes - y - ⟨p, hp, -⟩
  rw [hpending] at hp
  exact absurd hp List.not_mem_nil

/-- Bytes that come next do not end inside a single pending segment that follows them. -/
theorem cleanSegment_of_pending_eq_singleton {env : ReassemblerSetup} {d : DirectionState}
    {payload : List Byte} {p : PendingSegment} (hpayload : payload ≠ [])
    (hknown : d.baseKnown = true) (hpending : d.pending = [p])
    (hp : p.sequence = d.nextSequence + BitVec.ofNat 32 payload.length)
    (hend : ¬p.Contains (p.sequence + BitVec.ofNat 32 p.payload.length))
    (hne : p.sequence + BitVec.ofNat 32 p.payload.length ≠ p.sequence) :
    CleanSegment env d d.nextSequence payload := by
  intro start bytes hroute
  obtain ⟨rfl, rfl⟩ := Route.append.inj ((route_next hpayload hknown).symm.trans hroute)
  rw [hpending, ← hp]
  rintro y hchain ⟨q, hq, hcontains⟩
  obtain rfl := List.mem_singleton.mp hq
  cases hchain with
  | refl => exact ⟨q, hq, rfl⟩
  | step hmem _ hrest =>
      obtain rfl := List.mem_singleton.mp hmem
      cases hrest with
      | refl => exact absurd hcontains hend
      | step hmem' hp' _ =>
          obtain rfl := List.mem_singleton.mp hmem'
          exact absurd hp'.symm hne

theorem maximal_progress_early :
    ((earlyState.directions 0).contiguous.length = 8 ∧
        (earlyState.directions 0).pending.length = 1) ∧
      (∃ base, (earlyState.directions 0).baseSequence = Serial.nth 0 base ∧
        (∀ n, base ≤ n → n < base + (earlyState.directions 0).contiguous.length →
          ∃ p ∈ earlyRun.received clientStreamKey 0, p.Covers (asciiBytes "GET abcdefghgh") 0 n) ∧
        ¬∃ p ∈ earlyRun.received clientStreamKey 0, p.Covers (asciiBytes "GET abcdefghgh") 0
          (base + (earlyState.directions 0).contiguous.length)) ∧
      ∀ p ∈ (earlyState.directions 0).pending,
        ¬p.Contains (earlyState.directions 0).nextSequence := by
  refine ⟨⟨by decide +kernel, by decide +kernel⟩, ?_⟩
  have hdrains : CleanSegment defaultSetup
      (((earlyOps.take 2).foldl (LoggedReassembler.apply defaultSetup) {}).reassembler.working
        defaultSetup (clientSegment 4) 2) (dataSequence (clientSegment 4)) (asciiBytes "ab") := by
    have hnext : dataSequence (clientSegment 4) =
        (((earlyOps.take 2).foldl (LoggedReassembler.apply defaultSetup) {}).reassembler.working
          defaultSetup (clientSegment 4) 2).nextSequence := by decide +kernel
    rw [hnext]
    exact cleanSegment_of_pending_eq_singleton (p := ⟨6, asciiBytes "cd"⟩) (by decide)
      (by decide +kernel) (by decide +kernel) (by decide +kernel)
      (fun hcontains ↦ absurd hcontains.2 (by decide)) (by decide)
  have hreach : ((loggedReassembly defaultSetup).restrict fun s op ↦
      SlicesOnly (asciiBytes "GET abcdefghgh") 0 clientStreamKey 0 s.reassembler op ∧
        JoinsOf defaultSetup clientStreamKey s.reassembler op ∧
        DrainsClean defaultSetup clientStreamKey 0 s.reassembler op).Reach earlyRun :=
    System.Reach.foldl (.init rfl) earlyOps
      ⟨⟨fun _ _ ↦ ⟨0, by decide, by decide, by decide⟩, fun _ _ ↦ by decide +kernel,
          fun _ _ ↦ cleanSegment_of_pending_eq_nil (by decide +kernel) _ _⟩,
        ⟨fun _ _ ↦ ⟨6, by decide, by decide, by decide⟩, fun _ _ ↦ by decide +kernel,
          fun _ _ ↦ cleanSegment_of_pending_eq_nil (by decide +kernel) _ _⟩,
        ⟨fun _ _ ↦ ⟨4, by decide, by decide, by decide⟩, fun _ _ ↦ by decide +kernel,
          fun _ _ ↦ hdrains⟩,
        ⟨fun _ _ ↦ ⟨12, by decide, by decide, by decide⟩, fun _ _ ↦ by decide +kernel,
          fun _ _ ↦ cleanSegment_of_pending_eq_nil (by decide +kernel) _ _⟩, trivial⟩
  have hstate : earlyRun.reassembler.streams.lookup clientPlace = some earlyState :=
    (Option.some_get _).symm
  exact (maximal_progress (by decide) hreach).1 clientPlace _ key_clientPlace hstate
    (by decide +kernel)

/-- Three segments that overlap, the last one of them first. -/
def overlappingOps : List ReassemblerOp :=
  [.insert (clientSegment 0) (asciiBytes "GET ") 0,
    .insert (clientSegment 6) (asciiBytes "6789") 1,
    .insert (clientSegment 4) (asciiBytes "4567") 2]

/-- The reassembler and its notes after them. -/
def overlappingRun : LoggedReassembler :=
  overlappingOps.foldl (LoggedReassembler.apply defaultSetup) {}

/-- All ten bytes of the stream have been received, and the contiguous part ends behind the
eighth, inside a pending segment. -/
theorem progress_stops_inside_pending :
    ((loggedReassembly defaultSetup).restrict fun s op ↦
      SlicesOnly (asciiBytes "GET 456789") 0 clientStreamKey 0 s.reassembler
        op).Reach overlappingRun ∧
      ∃ state, overlappingRun.reassembler.streams.lookup clientPlace = some state ∧
        (state.directions 0).baseKnown = true ∧ (state.directions 0).baseSequence = 0 ∧
        (state.directions 0).contiguous.length = 8 ∧
        (∃ p ∈ overlappingRun.received clientStreamKey 0,
          p.Covers (asciiBytes "GET 456789") 0 8) ∧
        ∃ p ∈ (state.directions 0).pending, p.Contains (state.directions 0).nextSequence := by
  constructor
  · exact System.Reach.foldl (.init rfl) overlappingOps
      ⟨fun _ _ ↦ ⟨0, by decide, by decide, by decide⟩,
        fun _ _ ↦ ⟨6, by decide, by decide, by decide⟩,
        fun _ _ ↦ ⟨4, by decide, by decide, by decide⟩, trivial⟩
  · refine ⟨(overlappingRun.reassembler.streams.lookup clientPlace).get
      (by decide +kernel), (Option.some_get _).symm, by decide +kernel, by decide +kernel,
      by decide +kernel, ⟨⟨6, asciiBytes "6789"⟩, by decide +kernel, ?_⟩,
      ⟨⟨6, asciiBytes "6789"⟩, by decide +kernel, ?_⟩⟩
    · exact ⟨6, by decide, ⟨by decide, by decide⟩, by decide, by decide⟩
    · exact ⟨by decide +kernel, by decide +kernel⟩

end DpdkSpi
