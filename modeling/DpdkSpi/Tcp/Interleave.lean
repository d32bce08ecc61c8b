import DpdkSpi.Tcp.Single
import Mathlib.Data.Sym.Sym2

/-!
# Connections do not influence each other

Packets of many connections go through one reassembler, and each of them purges the expired
streams of all connections.  As long as the limits that connections share are not hit, and the
packets of a connection come upon the stream it has (`JoiningRun`), the connection gets the results
that a reassembler of its own would give: a stream that the packet of another connection purges
would have been purged by the next packet of its own connection.
-/

namespace DpdkSpi

open Lib TcpStreamReassembler

/-! ## Connections -/

/-- A TCP connection: two addresses of one IP version with their ports, in no order. -/
abbrev Connection := Sym2 (BitVec 32 × BitVec 16) ⊕ Sym2 (Ip6Address × BitVec 16)

/-- The connection of a packet. -/
def connectionOf (metadata : PacketMetadata) : Connection :=
  match metadata.ipVersion with
  | .kIpv4 => .inl s((metadata.sourceIpBe, metadata.sourcePortBe),
      (metadata.destinationIpBe, metadata.destinationPortBe))
  | .kIpv6 => .inr s((metadata.sourceIp6Address, metadata.sourcePortBe),
      (metadata.destinationIp6Address, metadata.destinationPortBe))

theorem connectionOf_surjective : Function.Surjective connectionOf := by
  rintro (c | c)
  · induction c using Sym2.ind with
    | h e f =>
        exact ⟨{ sourceIpBe := e.1, destinationIpBe := f.1, sourcePortBe := e.2,
                 destinationPortBe := f.2, ipVersion := .kIpv4 }, rfl⟩
  · induction c using Sym2.ind with
    | h e f =>
        exact ⟨{ sourceIp6Address := e.1, destinationIp6Address := f.1, sourcePortBe := e.2,
                 destinationPortBe := f.2, ipVersion := .kIpv6 }, rfl⟩

theorem endpointLess_asymm {e f : Endpoint} (h : endpointLess e f = true) :
    endpointLess f e = false := by
  simp only [endpointLess, decide_eq_true_eq, decide_eq_false_iff_not] at h ⊢
  rintro (hless | ⟨haddress, hport⟩)
  · rcases h with h | ⟨haddress, -⟩
    · exact List.lt_asymm h hless
    · rw [haddress] at hless
      exact List.lt_irrefl _ hless
  · rcases h with h | ⟨-, h⟩
    · rw [haddress] at h
      exact List.lt_irrefl _ h
    · exact absurd (BitVec.lt_trans h hport) (BitVec.lt_irrefl _)

/-- Endpoints of which neither is less than the other are the same. -/
theorem eq_of_not_endpointLess {e f : Endpoint} (h : endpointLess e f = false)
    (h' : endpointLess f e = false) : e = f := by
  simp only [endpointLess, decide_eq_false_iff_not, not_or, not_and] at h h'
  have haddress : e.address = f.address :=
    Vector.toList_inj.mp (List.le_antisymm h'.1 h.1)
  have hport : e.port = f.port :=
    BitVec.le_antisymm (BitVec.not_lt.mp (h'.2 haddress.symm)) (BitVec.not_lt.mp (h.2 haddress))
  cases e
  cases f
  cases haddress
  cases hport
  rfl

/-- The key of the connection between two endpoints. -/
def StreamKey.ofEnds (version : IpVersion) (source destination : Endpoint) : StreamKey :=
  if endpointLess source destination then
    { first := source, second := destination, version }
  else { first := destination, second := source, version }

theorem makeKey_fst (metadata : PacketMetadata) :
    (makeKey metadata).1 = .ofEnds metadata.ipVersion (sourceEndpoint metadata)
      (destinationEndpoint metadata) := by
  unfold makeKey StreamKey.ofEnds
  dsimp only
  split_ifs <;> rfl

/-- The key does not say which of the endpoints is the source. -/
theorem StreamKey.ofEnds_swap (version : IpVersion) (e f : Endpoint) :
    StreamKey.ofEnds version e f = .ofEnds version f e := by
  unfold StreamKey.ofEnds
  cases hef : endpointLess e f with
  | true => rw [if_pos rfl, endpointLess_asymm hef, if_neg Bool.false_ne_true]
  | false =>
      cases hfe : endpointLess f e with
      | true => rfl
      | false => rw [eq_of_not_endpointLess hef hfe]

/-- The key says everything else. -/
theorem StreamKey.ofEnds_inj {version version' : IpVersion} {e f e' f' : Endpoint} :
    StreamKey.ofEnds version e f = .ofEnds version' e' f' ↔
      version = version' ∧ s(e, f) = s(e', f') := by
  have hends : ∀ version e f, (StreamKey.ofEnds version e f).version = version ∧
      s((StreamKey.ofEnds version e f).first, (StreamKey.ofEnds version e f).second) = s(e, f) := by
    intro version e f
    unfold StreamKey.ofEnds
    split_ifs
    · exact ⟨rfl, rfl⟩
    · exact ⟨rfl, Sym2.eq_swap⟩
  constructor
  · intro h
    rw [← (hends version e f).1, ← (hends version e f).2, h]
    exact hends version' e' f'
  · rintro ⟨rfl, h⟩
    rcases Sym2.eq_iff.mp h with ⟨rfl, rfl⟩ | ⟨rfl, rfl⟩
    · rfl
    · exact StreamKey.ofEnds_swap version e f

theorem Ip6Address.ofWord_injective : Function.Injective Ip6Address.ofWord := by
  intro x y h
  have hbytes := congrArg Vector.toList h
  simp only [Ip6Address.ofWord, Vector.toList_mk, List.cons.injEq] at hbytes
  obtain ⟨h₀, h₁, h₂, h₃, -⟩ := hbytes
  exact eq_of_bytes32 h₀ h₁ h₂ h₃

/-- An endpoint has the address and the port it is made from, an IPv4 address as a word or the
bytes of an IPv6 address. -/
theorem endpoint_ofWord_injective :
    Function.Injective fun p : BitVec 32 × BitVec 16 ↦ (⟨.ofWord p.1, p.2⟩ : Endpoint) := by
  intro p q h
  obtain ⟨haddress, hport⟩ := Endpoint.mk.inj h
  exact Prod.ext (Ip6Address.ofWord_injective haddress) hport

theorem endpoint_ofBytes_injective :
    Function.Injective fun p : Ip6Address × BitVec 16 ↦ (⟨p.1, p.2⟩ : Endpoint) := by
  intro p q h
  obtain ⟨haddress, hport⟩ := Endpoint.mk.inj h
  exact Prod.ext haddress hport

/-- Packets have the same key when they are of the same connection. -/
theorem makeKey_fst_eq_iff {metadata metadata' : PacketMetadata} :
    (makeKey metadata).1 = (makeKey metadata').1 ↔
      connectionOf metadata = connectionOf metadata' := by
  rw [makeKey_fst, makeKey_fst, StreamKey.ofEnds_inj]
  unfold connectionOf sourceEndpoint destinationEndpoint
  cases metadata.ipVersion with
  | kIpv4 =>
      cases metadata'.ipVersion with
      | kIpv4 =>
          rw [Sum.inl_injective.eq_iff, ← (Sym2.map.injective endpoint_ofWord_injective).eq_iff]
          exact and_iff_right rfl
      | kIpv6 => simp
  | kIpv6 =>
      cases metadata'.ipVersion with
      | kIpv4 => simp
      | kIpv6 =>
          rw [Sum.inr_injective.eq_iff, ← (Sym2.map.injective endpoint_ofBytes_injective).eq_iff]
          exact and_iff_right rfl

/-! ## The shared limits -/

/-- Wherever `AddSegment` asks `HasCapacity`, the answer is yes. -/
def budgetSuffices (env : ReassemblerSetup) (bufferedBytes : Nat) (direction : DirectionState)
    (sequence : BitVec 32) (payload : List Byte) : Bool :=
  match route env direction sequence payload with
  | .ignore => true
  | .reject => true
  | .queue => env.config.maxOutOfOrderSegments.toNat ≤ direction.pending.length ||
      hasCapacity env bufferedBytes payload.length
  | .append _ bytes => hasCapacity env bufferedBytes bytes.length

/-- A packet that is looked at meets neither `max_concurrent_streams` nor the memory budget. -/
def Unlimited (env : ReassemblerSetup) (r : TcpStreamReassembler) (a : Arrival) : Prop :=
  Inspects env a.metadata →
    (r.purgeExpired env a.now).streamTableFull env (makeKey a.metadata).1 = false ∧
      budgetSuffices env (r.purgeExpired env a.now).bufferedBytes
        (r.working env a.metadata a.now) (dataSequence a.metadata) a.payload = true

instance (env : ReassemblerSetup) (r : TcpStreamReassembler) (a : Arrival) :
    Decidable (Unlimited env r a) :=
  inferInstanceAs (Decidable (_ → _))

theorem hasCapacity_of_bufferedBytes_le {env : ReassemblerSetup} {b b' n : Nat} (hle : b' ≤ b)
    (h : hasCapacity env b n = true) : hasCapacity env b' n = true := by
  simp only [hasCapacity, decide_eq_true_eq] at h ⊢
  omega

theorem budgetSuffices_of_le {env : ReassemblerSetup} {b b' : Nat} {d : DirectionState}
    {sequence : BitVec 32} {payload : List Byte} (hle : b' ≤ b)
    (h : budgetSuffices env b d sequence payload = true) :
    budgetSuffices env b' d sequence payload = true := by
  unfold budgetSuffices at h ⊢
  generalize route env d sequence payload = there at h ⊢
  cases there with
  | ignore => rfl
  | reject => rfl
  | queue =>
      rw [Bool.or_eq_true] at h ⊢
      exact h.imp_right (hasCapacity_of_bufferedBytes_le hle)
  | append _ bytes => exact hasCapacity_of_bufferedBytes_le hle h

/-- What `AddSegment` does depends on the bytes that are buffered through `HasCapacity` alone. -/
theorem addSegment_congr {env : ReassemblerSetup} {b b' : Nat} {d : DirectionState}
    {sequence : BitVec 32} {payload : List Byte}
    (h : budgetSuffices env b d sequence payload = true)
    (h' : budgetSuffices env b' d sequence payload = true) :
    (addSegment env b d sequence payload).1 = (addSegment env b' d sequence payload).1 ∧
      (addSegment env b d sequence payload).2.1 = (addSegment env b' d sequence payload).2.1 := by
  rw [addSegment_eq, addSegment_eq]
  unfold budgetSuffices at h h'
  cases hroute : route env d sequence payload with
  | ignore => exact ⟨rfl, rfl⟩
  | reject => exact ⟨rfl, rfl⟩
  | queue =>
      rw [hroute] at h h'
      dsimp only at h h' ⊢
      unfold queuePending
      by_cases hfull : env.config.maxOutOfOrderSegments.toNat ≤ d.pending.length
      · rw [if_pos (.inl hfull), if_pos (.inl hfull)]
        exact ⟨rfl, rfl⟩
      · have hcapacity : hasCapacity env b payload.length = true := by simpa [hfull] using h
        have hcapacity' : hasCapacity env b' payload.length = true := by simpa [hfull] using h'
        rw [if_neg (by simpa [hcapacity] using hfull), if_neg (by simpa [hcapacity'] using hfull)]
        split <;> exact ⟨rfl, rfl⟩
  | append start bytes =>
      rw [hroute] at h h'
      dsimp only at h h' ⊢
      unfold appendAndDrain
      rw [h, h']
      split_ifs <;> exact ⟨rfl, rfl⟩

/-! ## What a call leaves of a stream -/

section

variable {env : ReassemblerSetup} {r : TcpStreamReassembler} {metadata : PacketMetadata}
  {payload : List Byte} {now : BitVec 64}

/-- The result of a call and the stream behind it, where the table has room. -/
theorem insert_of_not_streamTableFull (hinspects : Inspects env metadata)
    (hfull : (r.purgeExpired env now).streamTableFull env (makeKey metadata).1 = false)
    {status : TcpReassemblyStatus} {d : DirectionState} {b : Nat}
    (hadded : addSegment env (r.purgeExpired env now).bufferedBytes (working env r metadata now)
      (dataSequence metadata) payload = (status, d, b)) :
    (r.insert env metadata payload now).1 =
        { status, contiguousPayload := if status.isError then [] else d.contiguous } ∧
      (r.insert env metadata payload now).2.streams.lookup (workingPlace env r metadata now) =
        if status.isError then none else some (stored env r metadata now d) := by
  have hskip : ¬(!env.config.enabled || metadata.protocol ≠ .kTcp) = true := by
    simpa [Inspects] using hinspects
  unfold TcpStreamReassembler.insert
  dsimp only
  rw [if_neg hskip, hfull, if_neg Bool.false_ne_true]
  unfold insertSegment
  dsimp only
  rw [workingPlace_of_room hfull, show addSegment env (r.purgeExpired env now).bufferedBytes
    (((r.purgeExpired env now).streamAt (workingPlace env r metadata now)).directions
      (makeKey metadata).2) (dataSequence metadata) payload = (status, d, b) from hadded]
  cases hstatus : status.isError with
  | true => exact ⟨rfl, AList.lookup_erase _ _⟩
  | false => exact ⟨rfl, AList.lookup_insert _⟩

/-- The other streams are purged. -/
theorem lookup_insert_of_ne (hinspects : Inspects env metadata) {place : StreamPlace}
    (hplace : place ≠ workingPlace env r metadata now) :
    (r.insert env metadata payload now).2.streams.lookup place =
      (r.streams.lookup place).filter (live env now) := by
  rw [← lookup_purgeExpired]
  obtain ⟨result, r', hinsert, hinsertion⟩ := exists_insertion env r metadata payload now
  simp only [hinsert]
  cases hinsertion with
  | skipped hskip => exact absurd hinspects hskip
  | refused _ _ => rfl
  | failed _ _ _ _ => exact AList.lookup_erase_ne hplace
  | kept _ _ _ _ => exact AList.lookup_insert_ne hplace

end

/-! ## The stream of a connection -/

/-- The connection has this stream, and it has not expired. -/
def TcpStreamReassembler.Holds (env : ReassemblerSetup) (r : TcpStreamReassembler)
    (key : StreamKey) (now : BitVec 64) (state : StreamState) : Prop :=
  ∃ place : StreamPlace, place.key = key ∧
    (r.purgeExpired env now).streams.lookup place = some state

section

variable {env : ReassemblerSetup} {r : TcpStreamReassembler} {metadata : PacketMetadata}
  {now : BitVec 64}

theorem TcpStreamReassembler.Joins.lookup_workingPlace (h : Joins env r metadata now)
    {state : StreamState}
    (hholds : r.Holds env (makeKey metadata).1 now state) :
    (r.purgeExpired env now).streams.lookup (workingPlace env r metadata now) = some state := by
  obtain ⟨place, hkey, hlookup⟩ := hholds
  rw [← h place (mem_keys_of_lookup hlookup) hkey]
  exact hlookup

theorem TcpStreamReassembler.Joins.workingStream_of_holds (h : Joins env r metadata now)
    {state : StreamState}
    (hholds : r.Holds env (makeKey metadata).1 now state) :
    workingStream env r metadata now = state := by
  rw [workingStream, TcpStreamReassembler.streamAt, h.lookup_workingPlace hholds]
  rfl

theorem workingStream_of_not_holds (h : ∀ state, ¬r.Holds env (makeKey metadata).1 now state) :
    workingStream env r metadata now = {} := by
  rw [workingStream, TcpStreamReassembler.streamAt]
  cases hlookup : (r.purgeExpired env now).streams.lookup (workingPlace env r metadata now) with
  | none => rfl
  | some state => exact absurd ⟨_, key_workingPlace env r metadata now, hlookup⟩ (h state)

/-- A packet that comes upon the stream of its connection leaves no other one. -/
theorem TcpStreamReassembler.Joins.holds_insert_iff (h : Joins env r metadata now)
    (hinspects : Inspects env metadata) (payload : List Byte) (later : BitVec 64)
    (state : StreamState) :
    (r.insert env metadata payload now).2.Holds env (makeKey metadata).1 later state ↔
      ((r.insert env metadata payload now).2.streams.lookup
        (workingPlace env r metadata now)).filter (live env later) = some state := by
  constructor
  · rintro ⟨place, hkey, hlookup⟩
    rw [lookup_purgeExpired] at hlookup
    by_cases hplace : place = workingPlace env r metadata now
    · rw [← hplace]
      exact hlookup
    · rw [lookup_insert_of_ne hinspects hplace, ← lookup_purgeExpired] at hlookup
      have hold := (Option.filter_eq_some_iff.mp hlookup).1
      exact absurd (h place (mem_keys_of_lookup hold) hkey) hplace
  · intro hlookup
    refine ⟨_, key_workingPlace env r metadata now, ?_⟩
    rw [lookup_purgeExpired]
    exact hlookup

end

/-! ## The simulation -/

/-- A stream that is still there at some time was there at every time before. -/
theorem live_of_le {env : ReassemblerSetup} {state : StreamState} {now later : BitVec 64}
    (hseen : state.lastSeenTsc ≤ now) (hle : now ≤ later) (h : live env later state = true) :
    live env now state = true := by
  rw [live_iff] at h ⊢
  refine h.imp_right fun hlater ↦ ?_
  have hnow := BitVec.toNat_sub_of_le hseen
  have hlater' := BitVec.toNat_sub_of_le (BitVec.le_trans hseen hle)
  rw [BitVec.le_def] at hle hlater ⊢
  omega

/-- The setup of a reassembler that runs with other contents of the memory. -/
def ReassemblerSetup.withMemory (env : ReassemblerSetup) (memory : KeyMemory) : ReassemblerSetup :=
  { env with keyMemory := memory }

theorem drain_withMemory (env : ReassemblerSetup) (memory : KeyMemory) (fuel : Nat)
    (d : DirectionState) : drain (env.withMemory memory) fuel d = drain env fuel d := by
  induction fuel generalizing d with
  | zero => rfl
  | succ fuel ih =>
      unfold drain
      simp only [ih]
      rfl

/-- The memory of keys is not what a direction depends on. -/
theorem addSegment_withMemory (env : ReassemblerSetup) (memory : KeyMemory) (b : Nat)
    (d : DirectionState) (sequence : BitVec 32) (payload : List Byte) :
    addSegment (env.withMemory memory) b d sequence payload =
      addSegment env b d sequence payload := by
  unfold addSegment appendAndDrain
  simp only [drain_withMemory]
  rfl

/-- A reassembler that has served all connections up to `time`, and one that has served a
single connection: from now on they have the same stream for it. -/
structure Agrees (env : ReassemblerSetup) (key : StreamKey) (time : BitVec 64)
    (r own : TcpStreamReassembler) : Prop where
  accounted : r.Accounted
  own_accounted : own.Accounted
  /-- There are no other streams. -/
  own_only : ∀ place, place.key ≠ key → own.streams.lookup place = none
  seen : ∀ place state, place.key = key → r.streams.lookup place = some state →
    state.lastSeenTsc ≤ time
  /-- One of them may have purged the stream, but then it is expired. -/
  same : ∀ now, time ≤ now → ∀ state, r.Holds env key now state ↔ own.Holds env key now state

theorem agrees_empty (env : ReassemblerSetup) (key : StreamKey) (time : BitVec 64) :
    Agrees env key time {} {} where
  accounted := rfl
  own_accounted := rfl
  own_only _ _ := rfl
  seen _ _ _ h := by cases h
  same _ _ _ := Iff.rfl

section

variable {env : ReassemblerSetup} {memory : KeyMemory} {key : StreamKey} {time : BitVec 64}
  {r own : TcpStreamReassembler} {a : Arrival}

/-- A packet that is not looked at changes nothing. -/
theorem insert_of_not_inspects (r : TcpStreamReassembler) (hskip : ¬Inspects env a.metadata) :
    r.insert env a.metadata a.payload a.now = ({}, r) := by
  unfold TcpStreamReassembler.insert
  rw [if_pos]
  by_contra h
  exact hskip (by simpa [Inspects] using h)

theorem Agrees.later (h : Agrees env key time r own) {now : BitVec 64} (hle : time ≤ now) :
    Agrees env key now r own where
  accounted := h.accounted
  own_accounted := h.own_accounted
  own_only := h.own_only
  seen place state hkey hstate := BitVec.le_trans (h.seen place state hkey hstate) hle
  same later hlater := h.same later (BitVec.le_trans hle hlater)

/-- A packet of another connection may purge the stream, when it is expired. -/
theorem Agrees.insert_other (h : Agrees env key time r own) (htime : time ≤ a.now)
    (hkey : key ≠ (makeKey a.metadata).1) :
    Agrees env key a.now (r.insert env a.metadata a.payload a.now).2 own := by
  by_cases hinspects : Inspects env a.metadata
  · have hlookup : ∀ place : StreamPlace, place.key = key →
        (r.insert env a.metadata a.payload a.now).2.streams.lookup place =
          (r.streams.lookup place).filter (live env a.now) := by
      rintro place rfl
      refine lookup_insert_of_ne hinspects fun hplace ↦ hkey ?_
      rw [hplace, key_workingPlace]
    refine ⟨h.accounted.insert env _ _ _, h.own_accounted, h.own_only, ?_, ?_⟩
    · intro place state hplace hstate
      rw [hlookup place hplace, Option.filter_eq_some_iff] at hstate
      exact BitVec.le_trans (h.seen place state hplace hstate.1) htime
    · intro now hnow state
      rw [← h.same now (BitVec.le_trans htime hnow)]
      unfold TcpStreamReassembler.Holds
      refine exists_congr fun place ↦ and_congr_right fun hplace ↦ ?_
      rw [lookup_purgeExpired, lookup_purgeExpired, hlookup place hplace]
      simp only [Option.filter_eq_some_iff, and_assoc]
      refine and_congr_right fun hstate ↦ and_iff_right_of_imp fun hlive ↦ ?_
      exact live_of_le (BitVec.le_trans (h.seen place state hplace hstate) htime) hnow hlive
  · rw [insert_of_not_inspects r hinspects]
    exact h.later htime

/-- Both come upon the same stream. -/
theorem Agrees.workingStream_eq (h : Agrees env (makeKey a.metadata).1 time r own)
    (htime : time ≤ a.now) (hjoins : Joins env r a.metadata a.now)
    (hown : Joins (env.withMemory memory) own a.metadata a.now) :
    workingStream (env.withMemory memory) own a.metadata a.now =
      workingStream env r a.metadata a.now := by
  by_cases hholds : ∃ state, r.Holds env (makeKey a.metadata).1 a.now state
  · obtain ⟨state, hstate⟩ := hholds
    rw [hjoins.workingStream_of_holds hstate]
    exact hown.workingStream_of_holds ((h.same a.now htime state).mp hstate)
  · rw [not_exists] at hholds
    rw [workingStream_of_not_holds hholds]
    exact workingStream_of_not_holds fun state hstate ↦
      hholds state ((h.same a.now htime state).mpr hstate)

/-- The reassembler for one connection has no stream but the one that the packet comes upon. -/
theorem Agrees.erase_purgeExpired (h : Agrees env (makeKey a.metadata).1 time r own)
    (hown : Joins (env.withMemory memory) own a.metadata a.now) :
    (own.purgeExpired env a.now).streams.erase
      (workingPlace (env.withMemory memory) own a.metadata a.now) = ∅ := by
  refine FinMap.eq_empty_of_lookup fun place ↦ ?_
  by_cases hplace : place = workingPlace (env.withMemory memory) own a.metadata a.now
  · rw [hplace, AList.lookup_erase]
  · rw [AList.lookup_erase_ne hplace]
    by_contra hsome
    obtain ⟨state, hstate⟩ := Option.ne_none_iff_exists'.mp hsome
    by_cases hkey : place.key = (makeKey a.metadata).1
    · exact hplace (hown place (mem_keys_of_lookup hstate) hkey)
    · cases (h.own_only place hkey).symm.trans (lookup_of_purgeExpired hstate)

/-- The bytes of one connection are some of the bytes of all connections. -/
theorem Agrees.bufferedBytes_le (h : Agrees env (makeKey a.metadata).1 time r own)
    (htime : time ≤ a.now) (hjoins : Joins env r a.metadata a.now)
    (hown : Joins (env.withMemory memory) own a.metadata a.now) :
    (own.purgeExpired env a.now).bufferedBytes ≤ (r.purgeExpired env a.now).bufferedBytes := by
  have hstream := h.workingStream_eq htime hjoins hown
  have hown' := weight_erase_streamAt (own.purgeExpired env a.now)
    (workingPlace (env.withMemory memory) own a.metadata a.now)
  have hall := weight_erase_streamAt (r.purgeExpired env a.now)
    (workingPlace env r a.metadata a.now)
  rw [h.erase_purgeExpired hown, FinMap.weight_empty] at hown'
  change _ + stateBytes (workingStream (env.withMemory memory) own a.metadata a.now) = _ at hown'
  change _ + stateBytes (workingStream env r a.metadata a.now) = _ at hall
  rw [hstream] at hown'
  rw [h.own_accounted.purgeExpired env a.now, h.accounted.purgeExpired env a.now]
  omega

/-- There is room for the stream of one connection where there is room for all. -/
theorem Agrees.not_streamTableFull (h : Agrees env (makeKey a.metadata).1 time r own)
    (htime : time ≤ a.now) (hown : Joins (env.withMemory memory) own a.metadata a.now)
    (hfull : (r.purgeExpired env a.now).streamTableFull env (makeKey a.metadata).1 = false) :
    (own.purgeExpired env a.now).streamTableFull (env.withMemory memory) (makeKey a.metadata).1 =
      false := by
  by_contra hnot
  have hfull' := Bool.eq_true_of_not_eq_false hnot
  have hnone : (own.purgeExpired env a.now).streams.lookup
      (workingPlace (env.withMemory memory) own a.metadata a.now) = none :=
    lookup_workingPlace_of_full hfull'
  have hempty : (own.purgeExpired env a.now).streams = ∅ := by
    rw [← h.erase_purgeExpired hown, FinMap.erase_of_lookup_eq_none hnone]
  have hholds : ∀ state, ¬r.Holds env (makeKey a.metadata).1 a.now state := by
    intro state hstate
    cases hnone.symm.trans
      (hown.lookup_workingPlace ((h.same a.now htime state).mp hstate))
  have hsought : (r.purgeExpired env a.now).streams.lookup
      ((r.purgeExpired env a.now).soughtPlace env (makeKey a.metadata).1) = none := by
    by_contra hsome
    obtain ⟨state, hstate⟩ := Option.ne_none_iff_exists'.mp hsome
    exact hholds state ⟨_, rfl, hstate⟩
  simp only [streamTableFull, hsought, Option.isNone_none, Bool.true_and,
    decide_eq_false_iff_not, not_le] at hfull
  rw [streamTableFull, hempty, Bool.and_eq_true, decide_eq_true_eq] at hfull'
  exact absurd hfull'.2 (not_le.mpr (Nat.zero_lt_of_lt hfull))

/-- A packet of the connection has the same result for both. -/
theorem Agrees.insert_own (h : Agrees env (makeKey a.metadata).1 time r own)
    (htime : time ≤ a.now) (hr : Unlimited env r a)
    (hjoins : Inspects env a.metadata → Joins env r a.metadata a.now)
    (hown : Inspects env a.metadata → Joins (env.withMemory memory) own a.metadata a.now) :
    (own.insert (env.withMemory memory) a.metadata a.payload a.now).1 =
        (r.insert env a.metadata a.payload a.now).1 ∧
      Agrees env (makeKey a.metadata).1 a.now (r.insert env a.metadata a.payload a.now).2
        (own.insert (env.withMemory memory) a.metadata a.payload a.now).2 := by
  by_cases hinspects : Inspects env a.metadata
  · have hinspects' : Inspects (env.withMemory memory) a.metadata := hinspects
    obtain ⟨hfull, hbudget⟩ := hr hinspects
    replace hjoins := hjoins hinspects
    replace hown := hown hinspects
    have hstream := h.workingStream_eq htime hjoins hown
    have hworking : own.working (env.withMemory memory) a.metadata a.now =
        r.working env a.metadata a.now := by
      unfold working
      rw [hstream]
    have hbudget' := budgetSuffices_of_le (h.bufferedBytes_le htime hjoins hown) hbudget
    have hcongr := addSegment_congr hbudget' hbudget
    rcases hadded : addSegment env (r.purgeExpired env a.now).bufferedBytes
      (r.working env a.metadata a.now) (dataSequence a.metadata) a.payload with ⟨status, d, b⟩
    rcases hadded' : addSegment env (own.purgeExpired env a.now).bufferedBytes
      (r.working env a.metadata a.now) (dataSequence a.metadata) a.payload with ⟨status', d', b'⟩
    rw [hadded, hadded'] at hcongr
    obtain ⟨rfl, rfl⟩ : status' = status ∧ d' = d := hcongr
    rw [← addSegment_withMemory env memory, ← hworking] at hadded'
    obtain ⟨hresult, hlookup⟩ := insert_of_not_streamTableFull hinspects hfull hadded
    obtain ⟨hresult', hlookup'⟩ := insert_of_not_streamTableFull hinspects'
      (h.not_streamTableFull htime hown hfull) hadded'
    have hstored : stored (env.withMemory memory) own a.metadata a.now d' =
        stored env r a.metadata a.now d' := by
      unfold stored
      rw [hstream]
    refine ⟨hresult'.trans hresult.symm, h.accounted.insert env _ _ _,
      h.own_accounted.insert _ _ _ _, ?_, ?_, ?_⟩
    · intro place hplace
      rw [lookup_insert_of_ne hinspects', h.own_only place hplace]
      · rfl
      · intro heq
        rw [heq, key_workingPlace] at hplace
        exact hplace rfl
    · intro place state hplace hstate
      by_cases heq : place = workingPlace env r a.metadata a.now
      · rw [heq, hlookup] at hstate
        split_ifs at hstate
        obtain rfl := Option.some.inj hstate
        exact BitVec.le_refl _
      · rw [lookup_insert_of_ne hinspects heq, Option.filter_eq_some_iff] at hstate
        exact BitVec.le_trans (h.seen place state hplace hstate.1) htime
    · intro now _ state
      have hiff := hown.holds_insert_iff hinspects' a.payload now state
      rw [hlookup', hstored] at hiff
      rw [hjoins.holds_insert_iff hinspects a.payload now state, hlookup]
      exact hiff.symm
  · have hskip : ¬Inspects (env.withMemory memory) a.metadata := hinspects
    rw [insert_of_not_inspects r hinspects, insert_of_not_inspects own hskip]
    exact ⟨rfl, h.later htime⟩

end

/-! ## Runs -/

/-- The results of the packets of a connection, in a run with others. -/
def resultsOf (c : Connection) (arrivals : List Arrival) (results : List TcpReassemblyResult) :
    List TcpReassemblyResult :=
  ((arrivals.zip results).filter fun p ↦ connectionOf p.1.metadata = c).map Prod.snd

/-- The packets of a connection. -/
def arrivalsOf (c : Connection) (arrivals : List Arrival) : List Arrival :=
  arrivals.filter fun a ↦ connectionOf a.metadata = c

/-- No packet of a run meets one of the shared limits. -/
def UnlimitedRun (env : ReassemblerSetup) (r : TcpStreamReassembler) (arrivals : List Arrival) :
    Prop :=
  System.Meets (Unlimited env) (fun r a ↦ (r.insert env a.metadata a.payload a.now).2) r arrivals

/-- A packet of a connection comes upon the stream that the connection has. -/
def JoinsIn (env : ReassemblerSetup) (c : Connection) (r : TcpStreamReassembler) (a : Arrival) :
    Prop :=
  connectionOf a.metadata = c → Inspects env a.metadata → Joins env r a.metadata a.now

instance (env : ReassemblerSetup) (c : Connection) (r : TcpStreamReassembler) (a : Arrival) :
    Decidable (JoinsIn env c r a) :=
  inferInstanceAs (Decidable (_ → _))

/-- All packets of a connection do. -/
def JoiningRun (env : ReassemblerSetup) (c : Connection) (r : TcpStreamReassembler)
    (arrivals : List Arrival) : Prop :=
  System.Meets (JoinsIn env c) (fun r a ↦ (r.insert env a.metadata a.payload a.now).2) r arrivals

/-- It is enough that the padding of the keys of the connection is always the same. -/
theorem joiningRun_of_paddedAs {env : ReassemblerSetup} {key : StreamKey} {c : Connection}
    (hc : ∀ metadata, connectionOf metadata = c ↔ (makeKey metadata).1 = key) {padding : Byte}
    {r : TcpStreamReassembler} (hr : ((reassembly env).restrict (PaddedAs env key padding)).Reach r)
    {arrivals : List Arrival}
    (hpadding : System.Meets (PaddedAs env key padding) (TcpStreamReassembler.apply env) r
      (arrivals.map fun a ↦ .insert a.metadata a.payload a.now)) :
    JoiningRun env c r arrivals := by
  induction arrivals generalizing r with
  | nil => trivial
  | cons a arrivals ih =>
      refine ⟨fun ha _ ↦ ?_, ih (.step hr ⟨hpadding.1, rfl⟩) hpadding.2⟩
      exact joins_of_paddedAs hr ((hc _).mp ha) hpadding.1

theorem Agrees.insertAll {env : ReassemblerSetup} {memory : KeyMemory} {key : StreamKey}
    {c : Connection} (hc : ∀ metadata, connectionOf metadata = c ↔ (makeKey metadata).1 = key)
    {time : BitVec 64} {r own : TcpStreamReassembler} (h : Agrees env key time r own)
    {arrivals : List Arrival} (htimes : (time :: arrivals.map Arrival.now).IsChain (· ≤ ·))
    (hlimits : UnlimitedRun env r arrivals) (hjoins : JoiningRun env c r arrivals)
    (hown : JoiningRun (env.withMemory memory) c own (arrivalsOf c arrivals)) :
    resultsOf c arrivals (r.insertAll env arrivals).1 =
      (own.insertAll (env.withMemory memory) (arrivalsOf c arrivals)).1 := by
  induction arrivals generalizing time r own with
  | nil => rfl
  | cons a arrivals ih =>
      obtain ⟨htime, htimes⟩ := List.isChain_cons_cons.mp htimes
      obtain ⟨hlimit, hlimits⟩ := hlimits
      obtain ⟨hjoin, hjoins⟩ := hjoins
      by_cases ha : connectionOf a.metadata = c
      · have hcons : arrivalsOf c (a :: arrivals) = a :: arrivalsOf c arrivals := by
          rw [arrivalsOf, List.filter_cons_of_pos (by simpa using ha)]
          rfl
        rw [hcons] at hown ⊢
        obtain rfl := (hc _).mp ha
        obtain ⟨hresult, hagrees⟩ := h.insert_own htime hlimit (hjoin ha) (hown.1 ha)
        have hrest := ih hagrees htimes hlimits hjoins hown.2
        simp only [resultsOf, TcpStreamReassembler.insertAll, List.zip_cons_cons,
          List.filter_cons, ha, decide_true, ↓reduceIte, List.map_cons] at hrest ⊢
        rw [hresult, hrest]
      · have hcons : arrivalsOf c (a :: arrivals) = arrivalsOf c arrivals := by
          rw [arrivalsOf, List.filter_cons_of_neg (by simpa using ha)]
          rfl
        rw [hcons] at hown ⊢
        have hagrees := h.insert_other htime fun hkey ↦ ha ((hc _).mpr hkey.symm)
        have hrest := ih hagrees htimes hlimits hjoins hown
        simp only [resultsOf, TcpStreamReassembler.insertAll, List.zip_cons_cons,
          List.filter_cons, ha, decide_false, Bool.false_eq_true, ↓reduceIte] at hrest ⊢
        exact hrest

/-- In a run with non-decreasing timestamps in which no packet meets `max_concurrent_streams` or
the memory budget, a connection has the results that it has for itself, if its packets come upon
its stream in both runs. -/
theorem resultsOf_insertAll (env : ReassemblerSetup) (memory : KeyMemory) (arrivals : List Arrival)
    (htimes : (arrivals.map Arrival.now).IsChain (· ≤ ·))
    (hlimits : UnlimitedRun env {} arrivals) (c : Connection)
    (hjoins : JoiningRun env c {} arrivals)
    (hown : JoiningRun (env.withMemory memory) c {} (arrivalsOf c arrivals)) :
    resultsOf c arrivals (({} : TcpStreamReassembler).insertAll env arrivals).1 =
      (({} : TcpStreamReassembler).insertAll (env.withMemory memory)
        (arrivalsOf c arrivals)).1 := by
  have hstart : ((0 : BitVec 64) :: arrivals.map Arrival.now).IsChain (· ≤ ·) := by
    cases arrivals with
    | nil => exact .singleton _
    | cons a arrivals => exact .cons_cons (Nat.zero_le a.now.toNat) htimes
  obtain ⟨metadata, rfl⟩ := connectionOf_surjective c
  exact (agrees_empty env (makeKey metadata).1 0).insertAll (fun _ ↦ makeKey_fst_eq_iff.symm)
    hstart hlimits hjoins hown

/-- Segments of two clients by turns; the last packet of the second one finds the stream of the
first one expired. -/
def twoClients : List Arrival :=
  [⟨clientSegment 100, asciiBytes "GET ", 0⟩, ⟨otherClientSegment 7, asciiBytes "PUT ", 1⟩,
    ⟨clientSegment 104, asciiBytes "/", 2⟩, ⟨otherClientSegment 11, asciiBytes "/x", 100⟩,
    ⟨clientSegment 105, asciiBytes " HTTP", 101⟩]

/-- The keys of the client always have the same padding, those of the other one have not. -/
theorem resultsOf_insertAll_twoClients :
    (∃ a ∈ twoClients, ∃ b ∈ twoClients, connectionOf a.metadata ≠ connectionOf b.metadata) ∧
      resultsOf (connectionOf (clientSegment 0)) twoClients
          (({} : TcpStreamReassembler).insertAll (paddedSetup 1) twoClients).1 =
        (({} : TcpStreamReassembler).insertAll ((paddedSetup 1).withMemory {})
          (arrivalsOf (connectionOf (clientSegment 0)) twoClients)).1 := by
  have hclient : JoiningRun (paddedSetup 1) (connectionOf (clientSegment 0)) {} twoClients :=
    joiningRun_of_paddedAs (fun _ ↦ makeKey_fst_eq_iff.symm) (.init rfl)
      ⟨fun _ ↦ ⟨rfl, rfl⟩, fun h ↦ absurd h (by decide +kernel),
        fun _ ↦ ⟨by decide +kernel, by decide +kernel⟩, fun h ↦ absurd h (by decide +kernel),
        fun _ ↦ ⟨by decide +kernel, by decide +kernel⟩, trivial⟩
  have hown : JoiningRun ((paddedSetup 1).withMemory {}) (connectionOf (clientSegment 0)) {}
      (arrivalsOf (connectionOf (clientSegment 0)) twoClients) :=
    ⟨by decide +kernel, by decide +kernel, by decide +kernel, trivial⟩
  exact ⟨by decide +kernel, resultsOf_insertAll (paddedSetup 1) {} twoClients (by decide +kernel)
    ⟨by decide +kernel, by decide +kernel, by decide +kernel, by decide +kernel,
      by decide +kernel, trivial⟩ _ hclient hown⟩

/-- The key of the client's second segment, behind one of the other client, has other padding: it
opens a second stream, and the bytes of the first one are not returned. -/
theorem padding_separates_segments :
    (twoClients.map Arrival.now).IsChain (· ≤ ·) ∧ UnlimitedRun (paddedSetup 2) {} twoClients ∧
      resultsOf (connectionOf (clientSegment 0)) twoClients
          (({} : TcpStreamReassembler).insertAll (paddedSetup 2) twoClients).1 ≠
        (({} : TcpStreamReassembler).insertAll (paddedSetup 2)
          (arrivalsOf (connectionOf (clientSegment 0)) twoClients)).1 := by
  refine ⟨by decide +kernel, ⟨by decide +kernel, by decide +kernel, by decide +kernel,
    by decide +kernel, by decide +kernel, trivial⟩, by decide +kernel⟩

end DpdkSpi
