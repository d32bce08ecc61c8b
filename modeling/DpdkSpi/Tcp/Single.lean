import DpdkSpi.Tcp.Bounds
import Mathlib.Data.List.Chain

/-!
# One direction for itself

Packets of one direction of a connection, one after the other and none so late that the
stream times out, on a reassembler that has no stream for the connection yet and may have
others.  As long as the packets reach the bucket of the stream, what `Insert` does is what
`AddSegment` does to that direction (`Tracks.insert`), and an invariant of directions under
`AddSegment` gives one of the run (`Tracks.insertAll`), or of the part of it before the first
packet that does not reach the bucket (`Tracks.insertAll_astray`).
-/

namespace DpdkSpi

open Lib TcpStreamReassembler

/-- A packet at `now` finds a stream that was seen at `last`. -/
def WithinTimeout (env : ReassemblerSetup) (last now : BitVec 64) : Prop :=
  env.timeoutCycles = 0 ∨ now - last ≤ env.timeoutCycles

theorem live_iff {env : ReassemblerSetup} {now : BitVec 64} {state : StreamState} :
    live env now state = true ↔ WithinTimeout env state.lastSeenTsc now := by
  simp [live, expired, WithinTimeout]

/-- The packet is one of a direction of a connection. -/
def Arrival.IsFor (env : ReassemblerSetup) (key : StreamKey) (i : Fin 2) (a : Arrival) : Prop :=
  Inspects env a.metadata ∧ makeKey a.metadata = (key, i)

/-! ## One stream -/

/-- The key of the `n`-th call of `Insert`, or its copy, is in the bucket of a place. -/
def KeyMemory.Reaches (memory : KeyMemory) (n : Nat) (place : StreamPlace) : Prop :=
  memory.place (memory.keyPadding n) place.key = place ∨
    memory.place (memory.nodePadding n) place.key = place

instance (memory : KeyMemory) (n : Nat) (place : StreamPlace) :
    Decidable (memory.Reaches n place) :=
  inferInstanceAs (Decidable (_ ∨ _))

/-- The next `n` packets, all of one connection, reach the place where the first one of them
creates a stream. -/
def Together (env : ReassemblerSetup) (r : TcpStreamReassembler) (key : StreamKey) (n : Nat) :
    Prop :=
  ∀ m < n, env.keyMemory.Reaches (r.calls + m) (r.emplacedPlace env key)

instance (env : ReassemblerSetup) (r : TcpStreamReassembler) (key : StreamKey) (n : Nat) :
    Decidable (Together env r key n) :=
  inferInstanceAs (Decidable (∀ m < n, _))

/-- The connection has a single stream. -/
def TcpStreamReassembler.HasOnly (r : TcpStreamReassembler) (key : StreamKey)
    (state : StreamState) : Prop :=
  ∃ home : StreamPlace, home.key = key ∧ r.streams.lookup home = some state ∧
    ∀ place, place.key = key → place ≠ home → r.streams.lookup place = none

/-- The reassembler has `d` for the direction, last seen at `last`, at a place that is `home`, or
is about to create the stream there; what it holds apart from that is at most `others` bytes. -/
structure Tracks (env : ReassemblerSetup) (home : StreamPlace) (i : Fin 2) (others : Nat)
    (r : TcpStreamReassembler) (d : DirectionState) (last : Option (BitVec 64)) : Prop where
  accounted : r.Accounted
  bytes_le : r.bufferedBytes ≤ others + d.bytes
  /-- There is room for a stream besides this one. -/
  room : r.streams.keys.length + (if last = none then 1 else 0) <
    env.config.maxConcurrentStreams.toNat
  alone : ∀ place, place.key = home.key → place ≠ home → r.streams.lookup place = none
  fresh : last = none → r.streams.lookup home = none ∧ d = {} ∧
    r.emplacedPlace env home.key = home
  stream : ∀ t, last = some t → ∃ state, r.streams.lookup home = some state ∧
    state.directions i = d ∧ state.lastSeenTsc = t

theorem tracks_fresh {env : ReassemblerSetup} {r : TcpStreamReassembler} {key : StreamKey}
    (h : (reassembly env).Reach r) (hkey : r.NoStream key)
    (hroom : r.streams.keys.length + 1 < env.config.maxConcurrentStreams.toNat) (i : Fin 2) :
    Tracks env (r.emplacedPlace env key) i r.bufferedBytes r {} none where
  accounted := (bounded_of_reach h).accounted
  bytes_le := Nat.le_add_right _ _
  room := hroom
  alone place hplace _ := hkey place hplace
  fresh _ := ⟨hkey _ rfl, rfl, rfl⟩
  stream _ h := by cases h

section

variable {env : ReassemblerSetup} {home : StreamPlace} {i : Fin 2} {others : Nat}
  {r : TcpStreamReassembler} {d : DirectionState} {last : Option (BitVec 64)}

theorem Tracks.lookup_purgeExpired_of_ne (h : Tracks env home i others r d last)
    {place : StreamPlace} (hplace : place.key = home.key) (hne : place ≠ home) (now : BitVec 64) :
    (r.purgeExpired env now).streams.lookup place = none := by
  rw [lookup_purgeExpired, h.alone place hplace hne]
  rfl

/-- There is room for the packets of the connection, wherever they go. -/
theorem Tracks.not_streamTableFull (h : Tracks env home i others r d last) (now : BitVec 64) :
    (r.purgeExpired env now).streamTableFull env home.key = false := by
  have hle := keys_length_purgeExpired_le env r now
  have hroom := h.room
  rw [streamTableFull, Bool.and_eq_false_iff]
  exact .inr (decide_eq_false (by omega))

theorem Tracks.lookup_home (h : Tracks env home i others r d last) {now : BitVec 64}
    (htime : ∀ t ∈ last, WithinTimeout env t now) :
    (r.purgeExpired env now).streams.lookup home = r.streams.lookup home := by
  cases last with
  | none =>
      rw [lookup_purgeExpired, (h.fresh rfl).1]
      rfl
  | some t =>
      obtain ⟨state, hlookup, -, rfl⟩ := h.stream t rfl
      rw [lookup_purgeExpired, hlookup, Option.filter_some, if_pos (live_iff.mpr (htime _ rfl))]

/-- A packet that reaches the place comes upon the stream there. -/
theorem Tracks.workingPlace_eq (h : Tracks env home i others r d last)
    (hreaches : env.keyMemory.Reaches r.calls home) {metadata : PacketMetadata}
    (hkey : (makeKey metadata).1 = home.key) {now : BitVec 64}
    (htime : ∀ t ∈ last, WithinTimeout env t now) :
    workingPlace env r metadata now = home := by
  have hroom := h.not_streamTableFull now
  rw [← hkey] at hroom
  rw [← workingPlace_of_room hroom, hkey, place]
  have hsought : (r.purgeExpired env now).soughtPlace env home.key =
      env.keyMemory.place (env.keyMemory.keyPadding r.calls) home.key := by
    rw [soughtPlace, calls_purgeExpired]
  have hemplaced : (r.purgeExpired env now).emplacedPlace env home.key =
      env.keyMemory.place (env.keyMemory.nodePadding r.calls) home.key := by
    rw [emplacedPlace, calls_purgeExpired]
  rw [hsought, hemplaced]
  by_cases hhome : env.keyMemory.place (env.keyMemory.keyPadding r.calls) home.key = home
  · rw [hhome]
    split_ifs with hsome
    · rfl
    · cases last with
      | none => exact (h.fresh rfl).2.2
      | some t =>
          obtain ⟨state, hlookup, -⟩ := h.stream t rfl
          rw [h.lookup_home htime, hlookup] at hsome
          exact absurd rfl hsome
  · have hkey' : (env.keyMemory.place (env.keyMemory.keyPadding r.calls) home.key).key =
        home.key := rfl
    rw [h.lookup_purgeExpired_of_ne hkey' hhome, if_neg (by simp)]
    exact hreaches.resolve_left hhome

theorem Tracks.working_eq (h : Tracks env home i others r d last)
    (hreaches : env.keyMemory.Reaches r.calls home) {metadata : PacketMetadata}
    (hkey : makeKey metadata = (home.key, i)) {now : BitVec 64}
    (htime : ∀ t ∈ last, WithinTimeout env t now) : r.working env metadata now = d := by
  have hplace := h.workingPlace_eq hreaches (by rw [hkey]) htime
  rw [working, workingStream, TcpStreamReassembler.streamAt, hplace, h.lookup_home htime, hkey]
  cases last with
  | none =>
      obtain ⟨hlookup, rfl, -⟩ := h.fresh rfl
      rw [hlookup]
      rfl
  | some t =>
      obtain ⟨state, hlookup, rfl, -⟩ := h.stream t rfl
      rw [hlookup]
      rfl

/-- The stream at the place is the only one that comes in. -/
theorem Tracks.room_insert (h : Tracks env home i others r d last) {now : BitVec 64}
    (htime : ∀ t ∈ last, WithinTimeout env t now) (state : StreamState) :
    ((r.purgeExpired env now).streams.insert home state).keys.length + 0 <
      env.config.maxConcurrentStreams.toNat := by
  have hle := keys_length_purgeExpired_le env r now
  have hroom := h.room
  cases last with
  | none =>
      have hlookup := h.lookup_home htime
      rw [(h.fresh rfl).1] at hlookup
      rw [keys_length_insert_of_not_mem hlookup]
      rw [if_pos rfl] at hroom
      omega
  | some t =>
      obtain ⟨old, hold, -⟩ := h.stream t rfl
      have hlookup := h.lookup_home htime
      rw [hold] at hlookup
      rw [keys_length_insert_of_mem hlookup]
      omega

/-- `Insert` does to the direction what `AddSegment` does. -/
theorem Tracks.insert (h : Tracks env home i others r d last)
    (hreaches : env.keyMemory.Reaches r.calls home) {a : Arrival} (ha : a.IsFor env home.key i)
    (htime : ∀ t ∈ last, WithinTimeout env t a.now) :
    ∃ b d' b', b ≤ others + d.bytes ∧
      Outcome env b d (dataSequence a.metadata) a.payload
        (r.insert env a.metadata a.payload a.now).1.status d' b' ∧
      ((r.insert env a.metadata a.payload a.now).1.status.isError = false →
        (r.insert env a.metadata a.payload a.now).1.contiguousPayload = d'.contiguous ∧
        Tracks env home i others (r.insert env a.metadata a.payload a.now).2 d' (some a.now)) := by
  obtain ⟨hinspects, hkey⟩ := ha
  have hkey₁ : (makeKey a.metadata).1 = home.key := by rw [hkey]
  have hkey₂ : (makeKey a.metadata).2 = i := by rw [hkey]
  have hplace := h.workingPlace_eq hreaches hkey₁ htime
  have hworking := h.working_eq hreaches hkey htime
  have hfull := h.not_streamTableFull a.now
  have haccounted := h.accounted.insert env a.metadata a.payload a.now
  have hb : (r.purgeExpired env a.now).bufferedBytes ≤ others + d.bytes :=
    (bufferedBytes_purgeExpired_le h.accounted env a.now).trans h.bytes_le
  obtain ⟨result, r', hinsert, hinsertion⟩ := exists_insertion env r a.metadata a.payload a.now
  simp only [hinsert] at haccounted ⊢
  cases hinsertion with
  | skipped hskip => exact absurd hinspects hskip
  | refused _ hfull' =>
      rw [hkey₁] at hfull'
      cases hfull.symm.trans hfull'
  | failed _ _ houtcome herror =>
      rw [hworking] at houtcome
      refine ⟨_, _, _, hb, houtcome, fun hok ↦ ?_⟩
      cases herror.symm.trans hok
  | @kept status d' b' _ _ houtcome _ =>
      rw [hworking] at houtcome
      rw [hplace] at haccounted ⊢
      refine ⟨_, d', b', hb, houtcome, fun _ ↦ ⟨rfl, haccounted, ?_, ?_, ?_, ?_, ?_⟩⟩
      · have hbytes := houtcome.bytes_eq
        change b' ≤ others + d'.bytes
        omega
      · exact h.room_insert htime _
      · intro place hkey' hne
        rw [AList.lookup_insert_ne hne]
        exact h.lookup_purgeExpired_of_ne hkey' hne a.now
      · intro hnone
        cases hnone
      · rintro t ht
        obtain rfl := Option.some.inj ht
        refine ⟨stored env r a.metadata a.now d', AList.lookup_insert _, ?_, rfl⟩
        rw [← hkey₂]
        exact stored_self env r a.metadata a.now d'

/-- An invariant of the direction holds at the end of the run if no segment breaks it. -/
theorem Tracks.insertAll {I : List Arrival → DirectionState → Prop} {all : List Arrival}
    (hall : ∀ a ∈ all, a.IsFor env home.key i)
    (hstep : ∀ seen a rest d b status d' b', all = seen ++ a :: rest → I seen d →
      b ≤ others + d.bytes →
      Outcome env b d (dataSequence a.metadata) a.payload status d' b' →
      status.isError = false ∧ I (seen ++ [a]) d')
    {seen rest : List Arrival} (hsplit : all = seen ++ rest)
    (h : Tracks env home i others r d last) (hI : I seen d)
    (hreaches : ∀ n < rest.length, env.keyMemory.Reaches (r.calls + n) home)
    (htime : (last.toList ++ rest.map Arrival.now).IsChain (WithinTimeout env)) :
    (∀ result ∈ (r.insertAll env rest).1, result.status.isError = false) ∧
      ∃ d' last', Tracks env home i others (r.insertAll env rest).2 d' last' ∧ I all d' ∧
        (rest = [] ∧ d' = d ∧ last' = last ∨
          (∃ t ∈ rest.map Arrival.now, last' = some t) ∧
            (r.insertAll env rest).1.getLast?.map
            TcpReassemblyResult.contiguousPayload = some d'.contiguous) := by
  induction rest generalizing seen r d last with
  | nil =>
      rw [List.append_nil] at hsplit
      refine ⟨fun result hresult ↦ absurd hresult List.not_mem_nil, d, last, h, ?_,
        .inl ⟨rfl, rfl, rfl⟩⟩
      rw [hsplit]
      exact hI
  | cons a rest ih =>
      have hnow : ∀ t ∈ last, WithinTimeout env t a.now := by
        rintro t rfl
        exact (List.isChain_cons_cons.mp htime).1
      have htail : ((some a.now).toList ++ rest.map Arrival.now).IsChain (WithinTimeout env) := by
        cases last with
        | none => exact htime
        | some t => exact (List.isChain_cons_cons.mp htime).2
      have ha : a ∈ all := by
        rw [hsplit]
        exact List.mem_append_right _ List.mem_cons_self
      have hzero : env.keyMemory.Reaches r.calls home := hreaches 0 (Nat.succ_pos _)
      have hlater : ∀ n < rest.length, env.keyMemory.Reaches
          ((r.insert env a.metadata a.payload a.now).2.calls + n) home := by
        intro n hn
        rw [calls_insert (hall a ha).1, Nat.add_assoc, Nat.add_comm 1 n]
        exact hreaches (n + 1) (Nat.succ_lt_succ hn)
      obtain ⟨b, d', b', hb, houtcome, hnext⟩ := h.insert hzero (hall a ha) hnow
      obtain ⟨hok, hI'⟩ := hstep seen a rest d b _ d' b' hsplit hI hb houtcome
      obtain ⟨hcontiguous, htracks⟩ := hnext hok
      have hsplit' : all = (seen ++ [a]) ++ rest := by
        rw [hsplit, List.append_assoc]
        rfl
      obtain ⟨hresults, d'', last', htracks', hI'', hlast⟩ := ih hsplit' htracks hI' hlater htail
      refine ⟨?_, d'', last', htracks', hI'', .inr ?_⟩
      · intro result hresult
        rcases List.mem_cons.mp hresult with rfl | hresult
        · exact hok
        · exact hresults result hresult
      · rcases hlast with ⟨rfl, rfl, rfl⟩ | ⟨⟨t, ht, hsome⟩, hlast⟩
        · exact ⟨⟨_, List.mem_cons_self, rfl⟩, congrArg some hcontiguous⟩
        · obtain ⟨result, hresult, heq⟩ := Option.map_eq_some_iff.mp hlast
          refine ⟨⟨t, List.mem_cons_of_mem _ ht, hsome⟩, ?_⟩
          rw [TcpStreamReassembler.insertAll, List.getLast?_cons, hresult]
          exact congrArg some heq

end

/-! ## Packets that go astray -/

/-- The place of a packet is one of the two that its key and the copy have. -/
theorem reaches_workingPlace (env : ReassemblerSetup) (r : TcpStreamReassembler)
    (metadata : PacketMetadata) (now : BitVec 64) :
    env.keyMemory.Reaches r.calls (workingPlace env r metadata now) := by
  unfold KeyMemory.Reaches
  rw [key_workingPlace]
  unfold workingPlace TcpStreamReassembler.place soughtPlace emplacedPlace
  simp only [calls_purgeExpired]
  split_ifs
  · exact .inl rfl
  · exact .inl rfl
  · exact .inr rfl

theorem calls_insertAll {env : ReassemblerSetup} {as : List Arrival}
    (hinspects : ∀ a ∈ as, Inspects env a.metadata) (r : TcpStreamReassembler) :
    (r.insertAll env as).2.calls = r.calls + as.length := by
  induction as generalizing r with
  | nil => rfl
  | cons a as ih =>
      have ha := calls_insert (hinspects a List.mem_cons_self) r a.payload a.now
      have hrest := ih (fun b hb ↦ hinspects b (List.mem_cons_of_mem a hb))
        (r.insert env a.metadata a.payload a.now).2
      dsimp only [TcpStreamReassembler.insertAll]
      rw [hrest, ha, List.length_cons]
      omega

section

variable {env : ReassemblerSetup} {home : StreamPlace} {i : Fin 2} {others : Nat}
  {r : TcpStreamReassembler} {d : DirectionState} {last : Option (BitVec 64)}

/-- A packet that misses the stream starts another one. -/
theorem Tracks.astray (h : Tracks env home i others r d last) {metadata : PacketMetadata}
    (hkey : (makeKey metadata).1 = home.key) (hastray : ¬env.keyMemory.Reaches r.calls home)
    (now : BitVec 64) :
    workingPlace env r metadata now ≠ home ∧
      (r.purgeExpired env now).streams.lookup (workingPlace env r metadata now) = none := by
  have hne : workingPlace env r metadata now ≠ home :=
    fun heq ↦ hastray (heq ▸ reaches_workingPlace env r metadata now)
  refine ⟨hne, h.lookup_purgeExpired_of_ne ?_ hne now⟩
  rw [key_workingPlace]
  exact hkey

/-- Packets of one direction up to the first one that does not reach the stream. -/
theorem Tracks.insertAll_astray {I : List Arrival → DirectionState → Prop} {all : List Arrival}
    (hall : ∀ a ∈ all, a.IsFor env home.key i)
    (hstep : ∀ seen a rest d b status d' b', all = seen ++ a :: rest → I seen d →
      b ≤ others + d.bytes →
      Outcome env b d (dataSequence a.metadata) a.payload status d' b' →
      status.isError = false ∧ I (seen ++ [a]) d')
    (h : Tracks env home i others r d last) (hI : I [] d)
    (htime : (last.toList ++ all.map Arrival.now).IsChain (WithinTimeout env))
    (hastray : ¬∀ n < all.length, env.keyMemory.Reaches (r.calls + n) home) :
    ∃ seen a rest d' last', all = seen ++ a :: rest ∧
      Tracks env home i others (r.insertAll env seen).2 d' last' ∧ I seen d' ∧
      (seen = [] ∧ last' = last ∨ ∃ t ∈ seen.map Arrival.now, last' = some t) ∧
      ¬env.keyMemory.Reaches (r.insertAll env seen).2.calls home := by
  push Not at hastray
  classical
  obtain ⟨hlt, hmiss⟩ := Nat.find_spec hastray
  have hbefore : ∀ n < Nat.find hastray, env.keyMemory.Reaches (r.calls + n) home := by
    intro n hn
    by_contra hnot
    exact Nat.find_min hastray hn ⟨hn.trans hlt, hnot⟩
  generalize Nat.find hastray = n at hlt hmiss hbefore
  have hsplit : all = all.take n ++ all[n] :: all.drop (n + 1) := by
    rw [List.getElem_cons_drop, List.take_append_drop]
  have hlength : (all.take n).length = n := by
    rw [List.length_take]
    omega
  have hseen : ∀ a ∈ all.take n, a.IsFor env home.key i :=
    fun a ha ↦ hall a (List.mem_of_mem_take ha)
  have htime' : (last.toList ++ (all.take n).map Arrival.now).IsChain (WithinTimeout env) := by
    rw [hsplit, List.map_append, ← List.append_assoc] at htime
    exact htime.left_of_append
  obtain ⟨-, d', last', htracks, hI', hlast⟩ := Tracks.insertAll hseen
    (fun seen a rest d b status d' b' heq ↦ hstep seen a (rest ++ all[n] :: all.drop (n + 1)) d b
      status d' b' (by rw [← List.cons_append, ← List.append_assoc, ← heq]; exact hsplit))
    (List.nil_append _).symm h hI (fun m hm ↦ hbefore m (by omega)) htime'
  refine ⟨all.take n, all[n], all.drop (n + 1), d', last', hsplit, htracks, hI', ?_, ?_⟩
  · rcases hlast with ⟨hnil, -, hlast⟩ | ⟨hlast, -⟩
    · exact .inl ⟨hnil, hlast⟩
    · exact .inr hlast
  · rw [calls_insertAll (fun a ha ↦ (hseen a ha).1), hlength]
    exact hmiss

/-- A stream that does not expire is there as long as no packet leads to an error. -/
theorem exists_lookup_insertAll {arrivals : List Arrival}
    (hok : ∀ result ∈ (r.insertAll env arrivals).1, result.status.isError = false)
    (htime : (arrivals.map Arrival.now).Pairwise (WithinTimeout env)) {place : StreamPlace}
    {state : StreamState} (hlookup : r.streams.lookup place = some state)
    (hlive : ∀ t ∈ arrivals.map Arrival.now, WithinTimeout env state.lastSeenTsc t) :
    ∃ state', (r.insertAll env arrivals).2.streams.lookup place = some state' := by
  induction arrivals generalizing r state with
  | nil => exact ⟨state, hlookup⟩
  | cons a arrivals ih =>
      obtain ⟨hnow, htime⟩ := List.pairwise_cons.mp htime
      obtain ⟨state', hlookup', hseen⟩ := lookup_insert_of_live (hok _ List.mem_cons_self) hlookup
        (live_iff.mpr (hlive a.now List.mem_cons_self))
      refine ih (fun result hresult ↦ hok result (List.mem_cons_of_mem _ hresult)) htime hlookup' ?_
      intro t ht
      rcases hseen with rfl | hseen
      · exact hlive t (List.mem_cons_of_mem _ ht)
      · rw [hseen]
        exact hnow t ht

/-- A packet that misses the stream leaves two streams of the connection, as long as neither
expires and no packet leads to an error. -/
theorem Tracks.exists_lookup_of_astray {t : BitVec 64} (h : Tracks env home i others r d (some t))
    {a : Arrival} {tail : List Arrival} (ha : a.IsFor env home.key i)
    (hastray : ¬env.keyMemory.Reaches r.calls home)
    (hok : ∀ result ∈ (r.insertAll env (a :: tail)).1, result.status.isError = false)
    (htime : (t :: (a :: tail).map Arrival.now).Pairwise (WithinTimeout env)) :
    ∃ place, place.key = home.key ∧ place ≠ home ∧
      (∃ state, (r.insertAll env (a :: tail)).2.streams.lookup home = some state) ∧
      ∃ state, (r.insertAll env (a :: tail)).2.streams.lookup place = some state := by
  obtain ⟨hinspects, hkey⟩ := ha
  have hkey₁ : (makeKey a.metadata).1 = home.key := by rw [hkey]
  obtain ⟨hafter, hlater⟩ := List.pairwise_cons.mp htime
  obtain ⟨hnow, htail⟩ := List.pairwise_cons.mp hlater
  have hok' := hok _ List.mem_cons_self
  have hrest : ∀ result ∈ ((r.insert env a.metadata a.payload a.now).2.insertAll env tail).1,
      result.status.isError = false :=
    fun result hresult ↦ hok result (List.mem_cons_of_mem _ hresult)
  obtain ⟨old, hold, -, rfl⟩ := h.stream t rfl
  obtain ⟨old', hold', hseen⟩ := lookup_insert_of_live hok' hold
    (live_iff.mpr (hafter _ List.mem_cons_self))
  obtain ⟨d', -, hnew⟩ := lookup_workingPlace_of_not_isError hinspects hok'
  refine ⟨workingPlace env r a.metadata a.now, (key_workingPlace _ _ _ _).trans hkey₁,
    (h.astray hkey₁ hastray a.now).1, exists_lookup_insertAll hrest htail hold' ?_,
    exists_lookup_insertAll hrest htail hnew hnow⟩
  intro t' ht'
  rcases hseen with rfl | hseen
  · exact hafter t' (List.mem_cons_of_mem _ ht')
  · rw [hseen]
    exact hnow t' ht'

end

/-! ## Packets for examples -/

/-- Packets of the client that carry pieces, all at once. -/
def clientPieces (isn : BitVec 32) (pieces : List (Nat × List Byte)) : List Arrival :=
  pieces.map fun a ↦ ⟨clientSegment (Serial.nth isn a.1), a.2, 0⟩

theorem isFor_clientPieces {env : ReassemblerSetup} (henabled : env.config.enabled = true)
    {isn : BitVec 32} {pieces : List (Nat × List Byte)} :
    ∀ a ∈ clientPieces isn pieces, a.IsFor env clientStreamKey 0 := by
  intro a ha
  obtain ⟨p, -, rfl⟩ := List.mem_map.mp ha
  exact ⟨⟨henabled, rfl⟩, makeKey_clientSegment _⟩

theorem timely_clientPieces (env : ReassemblerSetup) (isn : BitVec 32)
    (pieces : List (Nat × List Byte)) :
    ((clientPieces isn pieces).map Arrival.now).IsChain (WithinTimeout env) := by
  have hzero : WithinTimeout env 0 0 := .inr (Nat.zero_le env.timeoutCycles.toNat)
  rw [clientPieces, List.map_map]
  induction pieces with
  | nil => exact .nil
  | cons p pieces ih =>
      cases pieces with
      | nil => exact .singleton _
      | cons q pieces => exact .cons_cons hzero ih

end DpdkSpi
