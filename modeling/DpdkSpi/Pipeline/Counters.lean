import Mathlib.Algebra.BigOperators.Group.Finset.Basic
import DpdkSpi.Lib.System
import DpdkSpi.Pipeline.Drop
import DpdkSpi.Pipeline.Effects
import DpdkSpi.Pipeline.Worker

/-!
# The counters balance

Every packet a worker takes is counted once: as malformed, or as parsed and then as a cache hit,
as matched or as unknown, unless the fragment table keeps it or another worker gets it.  What
the bursts count reaches the shared counters, whatever the workers and the dispatcher do in
between.
-/

namespace DpdkSpi

open Lib

variable {cap : Nat} {μ σ : Type}

/-! ## Tallies -/

/-- Between two states so many packets are counted as parsed, as malformed and as decided, and
no more packets are dropped by a rule than are known to one. -/
structure Tallies (st st' : BurstState cap μ σ) (parsed malformed decided : Nat) : Prop where
  received : st'.counters.received = st.counters.received
  transmitted : st'.counters.transmitted = st.counters.transmitted
  parsed : st'.counters.parsed = st.counters.parsed + parsed
  malformed : st'.counters.malformed = st.counters.malformed + malformed
  decided : st'.counters.matched + st'.counters.flowCacheHits + st'.counters.unknown =
    st.counters.matched + st.counters.flowCacheHits + st.counters.unknown + decided
  byRule : st'.counters.droppedByRule + (st.counters.matched + st.counters.flowCacheHits) ≤
    st.counters.droppedByRule + (st'.counters.matched + st'.counters.flowCacheHits)

namespace Tallies

theorem refl (st : BurstState cap μ σ) : Tallies st st 0 0 0 := by
  constructor <;> rfl

theorem trans {st st' st'' : BurstState cap μ σ} {p m d q n e : Nat} (h : Tallies st st' p m d)
    (h' : Tallies st' st'' q n e) : Tallies st st'' (p + q) (m + n) (d + e) where
  received := h'.received.trans h.received
  transmitted := h'.transmitted.trans h.transmitted
  parsed := by rw [h'.parsed, h.parsed, Nat.add_assoc]
  malformed := by rw [h'.malformed, h.malformed, Nat.add_assoc]
  decided := by rw [h'.decided, h.decided, Nat.add_assoc]
  byRule := by
    have h₁ := h.byRule
    have h₂ := h'.byRule
    omega

end Tallies

/-- A packet that is decided and disposed of. -/
theorem Disposes.tallies {ctx : WorkerContext} {svc : Services μ σ} {packet : μ}
    {port : BitVec 16} {classification : PacketClassification} {st mid st' : BurstState cap μ σ}
    (hdecides : Decides st mid classification.matched)
    (h : Disposes ctx svc packet port classification mid st') : Tallies st st' 0 0 1 := by
  obtain ⟨byRule, dropped, hle, hcounters⟩ := h.counters_eq
  have hone : classification.matched.toNat + (!classification.matched).toNat = 1 := by
    cases classification.matched <;> rfl
  have hknown := hdecides.known
  refine ⟨?_, ?_, ?_, ?_, ?_, ?_⟩ <;> rw [hcounters] <;> dsimp only
  · exact hdecides.received
  · exact hdecides.transmitted
  · exact hdecides.parsed
  · exact hdecides.malformed
  · rw [hknown, hdecides.unknown]
    omega
  · rw [hknown, hdecides.droppedByRule]
    omega

/-! ## A burst in queue mode -/

namespace PacketSlot

/-- The fragment table keeps the packet. -/
def isWaiting : PacketSlot μ → Bool
  | .waiting => true
  | _ => false

/-- The packet did not parse. -/
def isUnmapped : PacketSlot μ → Bool
  | .unmapped _ => true
  | _ => false

/-- The packet parsed. -/
def isMapped : PacketSlot μ → Bool
  | .mapped _ _ => true
  | _ => false

/-- A packet is in one of the three states. -/
theorem length_eq_countP (slots : List (PacketSlot μ)) :
    slots.length = slots.countP isMapped + slots.countP isUnmapped + slots.countP isWaiting := by
  induction slots with
  | nil => rfl
  | cons slot slots ih =>
      cases slot <;> simp only [List.length_cons, List.countP_cons, isMapped, isUnmapped, isWaiting,
        if_true, Bool.false_eq_true, if_false] <;> omega

end PacketSlot

/-- Parsing counts every packet that parses and every packet that does not. -/
theorem parseReceivedPackets_counters (ctx : WorkerContext) (svc : Services μ σ) (packets : List μ)
    (nParsed : Nat) (st : BurstState cap μ σ) :
    (parseReceivedPackets ctx svc packets nParsed st).1.1.length = packets.length ∧
      (parseReceivedPackets ctx svc packets nParsed st).2.counters = { st.counters with
        parsed := st.counters.parsed +
          (parseReceivedPackets ctx svc packets nParsed st).1.1.countP PacketSlot.isMapped
        malformed := st.counters.malformed +
          (parseReceivedPackets ctx svc packets nParsed st).1.1.countP PacketSlot.isUnmapped } := by
  induction packets generalizing nParsed st with
  | nil => exact ⟨rfl, rfl⟩
  | cons packet rest ih =>
      unfold parseReceivedPackets
      rcases svc.parsePacketOwned packet ctx.currentBurstTsc st.world with
        ⟨⟨metadata, packet', wasReassembled⟩ | _ | packet', world⟩
      · obtain ⟨hlength, hcounters⟩ := ih (nParsed + 1)
          ({ st with world }.count fun c ↦ { c with parsed := c.parsed + 1 })
        refine ⟨congrArg (· + 1) hlength, hcounters.trans ?_⟩
        simp only [BurstState.count, List.countP_cons, PacketSlot.isMapped, PacketSlot.isUnmapped,
          if_true, Bool.false_eq_true, if_false, Nat.add_zero]
        congr 1
        omega
      · obtain ⟨hlength, hcounters⟩ := ih nParsed { st with world }
        refine ⟨congrArg (· + 1) hlength, hcounters.trans ?_⟩
        simp only [List.countP_cons, PacketSlot.isMapped, PacketSlot.isUnmapped,
          Bool.false_eq_true, if_false, Nat.add_zero]
      · obtain ⟨hlength, hcounters⟩ := ih nParsed
          ({ st with world }.count fun c ↦ { c with malformed := c.malformed + 1 })
        refine ⟨congrArg (· + 1) hlength, hcounters.trans ?_⟩
        simp only [BurstState.count, List.countP_cons, PacketSlot.isMapped, PacketSlot.isUnmapped,
          if_true, Bool.false_eq_true, if_false, Nat.add_zero]
        congr 1
        omega

theorem Finalizes.tallies {ctx : WorkerContext} {svc : Services μ σ} {portId : BitVec 16}
    {st st' : BurstState cap μ σ} {slot : PacketSlot μ}
    (h : Finalizes ctx svc portId st st' slot) : Tallies st st' 0 0 slot.isMapped.toNat := by
  cases h with
  | waiting hst =>
      subst hst
      exact .refl st'
  | unmapped hst =>
      subst hst
      constructor <;> rfl
  | mapped mid classification hdecides hdisposes => exact hdisposes.tallies hdecides

/-- Phase 3 decides every packet that parsed. -/
theorem foldl_finalizePacket_tallies (ctx : WorkerContext) (svc : Services μ σ) (portId : BitVec 16)
    (b : ParsedBurst) (spiMatches : List ClassificationResult) (slots : List (PacketSlot μ))
    (st : BurstState cap μ σ) :
    Tallies st (slots.foldl (finalizePacket ctx svc portId b spiMatches) st) 0 0
      (slots.countP PacketSlot.isMapped) := by
  induction slots generalizing st with
  | nil => exact .refl st
  | cons slot slots ih =>
      have hcons := (finalizePacket_finalizes ctx svc portId b spiMatches st slot).tallies.trans
        (ih (finalizePacket ctx svc portId b spiMatches st slot))
      have hcount : (slot :: slots).countP PacketSlot.isMapped =
          slot.isMapped.toNat + slots.countP PacketSlot.isMapped := by
        rw [List.countP_cons, Nat.add_comm]
        cases slot <;> rfl
      rw [hcount]
      exact hcons

/-! ## Balance -/

/-- The counters account for the packets taken: so many, of which so many are left with the
fragment table and so many belong to other workers. -/
structure Balanced (c : BurstCounters) (taken waiting redispatched : Nat) : Prop where
  parsed_eq : c.parsed = c.flowCacheHits + c.matched + c.unknown
  byRule_le : c.droppedByRule ≤ c.matched + c.flowCacheHits
  taken_eq : taken = c.parsed + c.malformed + waiting + redispatched
  received_eq : c.received = taken

namespace Balanced

theorem zero : Balanced {} 0 0 0 := by
  constructor <;> decide

theorem add {c c' : BurstCounters} {t w r t' w' r' : Nat} (h : Balanced c t w r)
    (h' : Balanced c' t' w' r') :
    Balanced (addBurstCounters c c') (t + t') (w + w') (r + r') := by
  obtain ⟨hparsed, hrule, htaken, hreceived⟩ := h
  obtain ⟨hparsed', hrule', htaken', hreceived'⟩ := h'
  constructor <;> simp only [addBurstCounters] <;> omega

end Balanced

/-- How many packets of a burst the fragment table keeps. -/
def waitingInBurst (ctx : WorkerContext) (svc : Services μ σ) (received : List μ)
    (st : BurstState cap μ σ) : Nat :=
  (parseReceivedPackets ctx svc received 0
    (st.count fun c ↦ { c with received := c.received + received.length })).1.1.countP
      PacketSlot.isWaiting

/-- A burst accounts for the packets it receives. -/
theorem processPortBurst_balanced (ctx : WorkerContext) (svc : Services μ σ) (portId : BitVec 16)
    (received : List μ) {st : BurstState cap μ σ} {t w r : Nat} (h : Balanced st.counters t w r) :
    Balanced (processPortBurst ctx svc portId received st).counters (t + received.length)
      (w + waitingInBurst ctx svc received st) r := by
  unfold processPortBurst waitingInBurst
  dsimp only
  let st₁ := st.count fun c ↦ { c with received := c.received + received.length }
  obtain ⟨hlength, hcounters⟩ := parseReceivedPackets_counters ctx svc received 0 st₁
  have hslots := PacketSlot.length_eq_countP (parseReceivedPackets ctx svc received 0 st₁).1.1
  split
  · rename_i hempty
    obtain rfl := List.isEmpty_iff.mp hempty
    exact h
  · rcases hparse : parseReceivedPackets ctx svc received 0 st₁ with ⟨⟨slots, metadata⟩, st₂⟩
    rw [hparse] at hlength hcounters hslots
    dsimp only
    unfold finalizePackets
    generalize bulkFlowLookup ctx.currentBurstTsc _ _ _ _ = looked
    have hfold := foldl_finalizePacket_tallies ctx svc portId
      ⟨metadata, metadata.map makeCanonicalFromMetadata, looked.1⟩
      (spiResults svc ctx.rules ⟨metadata, metadata.map makeCanonicalFromMetadata, looked.1⟩ slots)
      slots { st₂ with flowTable := looked.2 }
    generalize slots.foldl _ _ = st₃ at hfold ⊢
    obtain ⟨h₁, -, h₃, h₄, h₅, h₆⟩ := hfold
    dsimp only at h₁ h₃ h₄ h₅ h₆ hlength hcounters hslots
    rw [hcounters] at h₁ h₃ h₄ h₅ h₆
    obtain ⟨hparsed, hrule, htaken, hreceived⟩ := h
    simp only [st₁, BurstState.count] at h₁ h₃ h₄ h₅ h₆
    constructor <;> omega

/-- How many packets of an iteration the fragment table keeps. -/
def waitingInPorts (ctx : WorkerContext) (svc : Services μ σ) (polls : BitVec 16 → Poll μ) :
    List (BitVec 16) → BurstState cap μ σ → Nat
  | [], _ => 0
  | portId :: ports, st =>
      let ctx' := { ctx with currentBurstTsc := (polls portId).tsc }
      waitingInBurst ctx' svc (polls portId).received st +
        waitingInPorts ctx svc polls ports
          (processPortBurst ctx' svc portId (polls portId).received st)

theorem processPorts_balanced (ctx : WorkerContext) (svc : Services μ σ)
    (polls : BitVec 16 → Poll μ) (ports : List (BitVec 16)) {st : BurstState cap μ σ}
    {t w r : Nat} (h : Balanced st.counters t w r) :
    Balanced (processPorts ctx svc polls ports st).counters
      (t + (ports.map fun portId ↦ (polls portId).received.length).sum)
      (w + waitingInPorts ctx svc polls ports st) r := by
  induction ports generalizing st t w with
  | nil => exact h
  | cons portId ports ih =>
      have hburst := processPortBurst_balanced { ctx with currentBurstTsc := (polls portId).tsc }
        svc portId (polls portId).received h
      have hrest := ih hburst
      rw [List.map_cons, List.sum_cons, waitingInPorts, ← Nat.add_assoc, ← Nat.add_assoc]
      exact hrest

/-- Transmission is counted apart. -/
theorem Balanced.flush {ctx : WorkerContext} {accepted : BitVec 16 → Nat}
    {st : BurstState cap μ σ} {t w r : Nat} (h : Balanced st.counters t w r) :
    Balanced (flushTransmitBuffers ctx accepted st).2.counters t w r := by
  have hport : ∀ (s : List μ × BurstState cap μ σ) portId, Balanced s.2.counters t w r →
      Balanced (flushPort accepted s portId).2.counters t w r := by
    intro s portId hs
    unfold flushPort
    dsimp only
    split
    · exact hs
    · exact ⟨hs.parsed_eq, hs.byRule_le, hs.taken_eq, hs.received_eq⟩
  unfold flushTransmitBuffers
  generalize hs : (([], st) : List μ × BurstState cap μ σ) = s
  replace h : Balanced s.2.counters t w r := by
    rw [← hs]
    exact h
  clear hs
  induction ctx.activePorts generalizing s with
  | nil => exact h
  | cons portId ports ih => exact ih _ (hport s portId h)

namespace QueueIteration

/-- The number of packets taken from the ports. -/
def taken (i : QueueIteration cap μ σ) : Nat :=
  (i.ctx.activePorts.map fun portId ↦ (i.polls portId).received.length).sum

/-- How many of them the fragment table keeps. -/
def waiting (i : QueueIteration cap μ σ) : Nat :=
  waitingInPorts i.ctx i.svc i.polls i.ctx.activePorts i.start

/-- An iteration in queue mode accounts for its packets. -/
theorem balanced (i : QueueIteration cap μ σ) : Balanced i.counters i.taken i.waiting 0 := by
  have hports := processPorts_balanced i.ctx i.svc i.polls i.ctx.activePorts
    (show Balanced i.start.counters 0 0 0 from Balanced.zero)
  rw [Nat.zero_add, Nat.zero_add] at hports
  have hstaged : Balanced i.staged.counters i.taken i.waiting 0 := hports
  exact hstaged.flush

end QueueIteration

/-! ## A burst in flow-hash mode -/

/-- How many packets from a ring the fragment table keeps, and how many belong to other
workers. -/
def leftInRing (ctx : WorkerContext) (svc : Services μ σ) :
    List (BitVec 16 × μ) → BurstState cap μ σ → Nat × Nat
  | [], _ => (0, 0)
  | p :: rest, st =>
      let left := leftInRing ctx svc rest (forwardPacket ctx svc p.2 p.1 st)
      match (svc.parsePacketOwned p.2 ctx.currentBurstTsc st.world).1 with
      | .waitingForFragments => (left.1 + 1, left.2)
      | .parsed _ packet wasReassembled =>
          if Redispatched ctx svc packet p.1 wasReassembled then (left.1, left.2 + 1) else left
      | .malformed _ => left

/-- The world behind the pipeline is not counted. -/
theorem Tallies.of_world {st st' : BurstState cap μ σ} {world : σ} {p m d : Nat}
    (h : Tallies { st with world } st' p m d) : Tallies st st' p m d :=
  ⟨h.received, h.transmitted, h.parsed, h.malformed, h.decided, h.byRule⟩

/-- A packet from a ring is counted as parsed and decided, as malformed, or not at all. -/
theorem Forwards.tallies {ctx : WorkerContext} {svc : Services μ σ} {port : BitVec 16}
    {st st' : BurstState cap μ σ} {packet : μ} (h : Forwards ctx svc port st st' packet) :
    match (svc.parsePacketOwned packet ctx.currentBurstTsc st.world).1 with
    | .waitingForFragments => Tallies st st' 0 0 0
    | .parsed _ packet' wasReassembled =>
        if Redispatched ctx svc packet' port wasReassembled then Tallies st st' 0 0 0
        else Tallies st st' 1 0 1
    | .malformed _ => Tallies st st' 0 1 0 := by
  cases h with
  | waiting world hparse hst =>
      rw [hparse, hst]
      constructor <;> rfl
  | malformed packet' world hparse hdisposes =>
      rw [hparse]
      obtain ⟨byRule, dropped, hle, hcounters⟩ := hdisposes.counters_eq
      obtain rfl : byRule = 0 := Nat.le_zero.mp hle
      constructor <;> rw [hcounters] <;> rfl
  | redispatched metadata packet' wasReassembled world world' hparse hthere hst =>
      rw [hparse]
      dsimp only
      rw [if_pos hthere]
      rcases hst with hst | hst <;> rw [hst] <;> constructor <;> rfl
  | decided metadata packet' wasReassembled world mid classification hparse hhere hdecides
      hdisposes =>
      rw [hparse]
      dsimp only
      rw [if_neg hhere]
      have hcount : Tallies { st with world }
          ({ st with world }.count fun c ↦ { c with parsed := c.parsed + 1 }) 1 0 0 := by
        constructor <;> rfl
      exact (hcount.trans (hdisposes.tallies hdecides)).of_world

/-- The packets of a ring are accounted for when they have all been forwarded; before that, only
those that have been, although all of them are counted as received. -/
theorem foldl_forwardPacket_balanced (ctx : WorkerContext) (svc : Services μ σ)
    (packets : List (BitVec 16 × μ)) {st : BurstState cap μ σ} {t w r : Nat}
    (h : Balanced { st.counters with received := t } t w r)
    (hreceived : st.counters.received = t + packets.length) :
    Balanced (packets.foldl (fun st p ↦ forwardPacket ctx svc p.2 p.1 st) st).counters
      (t + packets.length) (w + (leftInRing ctx svc packets st).1)
      (r + (leftInRing ctx svc packets st).2) := by
  induction packets generalizing st t w r with
  | nil =>
      obtain ⟨hparsed, hrule, htaken, -⟩ := h
      exact ⟨hparsed, hrule, htaken, hreceived⟩
  | cons p rest ih =>
      have hforward := (forwardPacket_forwards ctx svc p.2 p.1 st).tallies
      unfold leftInRing
      rw [List.foldl_cons]
      generalize forwardPacket ctx svc p.2 p.1 st = st₁ at hforward ⊢
      -- the packet is one of the three kinds of `Balanced`, and the rest follows by induction
      have hstep : ∀ (w' r' : Nat) {a m d : Nat}, Tallies st st₁ a m d → a = d →
          a + m + w' + r' = 1 →
          Balanced (rest.foldl (fun st p ↦ forwardPacket ctx svc p.2 p.1 st) st₁).counters
            (t + (p :: rest).length) (w + w' + (leftInRing ctx svc rest st₁).1)
            (r + r' + (leftInRing ctx svc rest st₁).2) := by
        intro w' r' a m d ht had hone
        have hbalanced : Balanced { st₁.counters with received := t + 1 } (t + 1) (w + w')
            (r + r') := by
          obtain ⟨hparsed, hrule, htaken, -⟩ := h
          obtain ⟨-, -, h₃, h₄, h₅, h₆⟩ := ht
          dsimp only at hparsed hrule htaken
          constructor <;> dsimp only <;> omega
        have hrest := ih hbalanced (by
          rw [ht.received, hreceived, List.length_cons]
          omega)
        rw [List.length_cons, Nat.add_comm rest.length, ← Nat.add_assoc]
        exact hrest
      rcases hparse : (svc.parsePacketOwned p.2 ctx.currentBurstTsc st.world).1 with
        ⟨metadata, packet', wasReassembled⟩ | _ | packet'
      · rw [hparse] at hforward
        dsimp only at hforward ⊢
        split at hforward
        · rename_i hthere
          rw [if_pos hthere, ← Nat.add_assoc, Nat.add_right_comm]
          exact hstep 0 1 hforward rfl rfl
        · rename_i hhere
          rw [if_neg hhere]
          exact hstep 0 0 hforward rfl rfl
      · rw [hparse] at hforward
        dsimp only at hforward ⊢
        rw [← Nat.add_assoc, Nat.add_right_comm]
        exact hstep 1 0 hforward rfl rfl
      · rw [hparse] at hforward
        exact hstep 0 0 hforward rfl rfl

namespace DispatchedIteration

/-- The number of packets taken from the ring. -/
def taken (i : DispatchedIteration cap μ σ) : Nat := i.dequeued.length

/-- How many of them the fragment table keeps. -/
def waiting (i : DispatchedIteration cap μ σ) : Nat :=
  (leftInRing i.ctx i.svc i.dequeued i.start).1

/-- How many of them are given to the rings of other workers. -/
def redispatched (i : DispatchedIteration cap μ σ) : Nat :=
  (leftInRing i.ctx i.svc i.dequeued i.start).2

/-- An iteration in flow-hash mode accounts for its packets. -/
theorem balanced (i : DispatchedIteration cap μ σ) :
    Balanced i.counters i.taken i.waiting i.redispatched := by
  have hring := foldl_forwardPacket_balanced i.ctx i.svc i.dequeued
    (show Balanced { i.start.counters with received := 0 } 0 0 0 from Balanced.zero)
    (Nat.zero_add _).symm
  rw [Nat.zero_add, Nat.zero_add, Nat.zero_add] at hring
  have hstaged : Balanced i.staged.counters i.taken i.waiting i.redispatched := hring
  exact hstaged.flush

end DispatchedIteration

/-! ## Shared counters -/

/-- The counters by name. -/
inductive Counter where
  | received | transmitted | parsed | matched | unknown | malformed | dropped | droppedByRule
  | flowCacheHits | dpiCacheHits | dpiCacheMisses | dpiSkippedBySpi | dpiSkippedByLink
  | flowTableFull | pressureEvictions | flowTableResizes
deriving DecidableEq, Repr

/-- The value of a counter. -/
def Counter.get (c : BurstCounters) : Counter → Nat
  | .received => c.received
  | .transmitted => c.transmitted
  | .parsed => c.parsed
  | .matched => c.matched
  | .unknown => c.unknown
  | .malformed => c.malformed
  | .dropped => c.dropped
  | .droppedByRule => c.droppedByRule
  | .flowCacheHits => c.flowCacheHits
  | .dpiCacheHits => c.dpiCacheHits
  | .dpiCacheMisses => c.dpiCacheMisses
  | .dpiSkippedBySpi => c.dpiSkippedBySpi
  | .dpiSkippedByLink => c.dpiSkippedByLink
  | .flowTableFull => c.flowTableFull
  | .pressureEvictions => c.pressureEvictions
  | .flowTableResizes => c.flowTableResizes

theorem Counter.get_addBurstCounters (k : Counter) (c c' : BurstCounters) :
    k.get (addBurstCounters c c') = k.get c + k.get c' := by
  cases k <;> rfl

/-- `PacketDistribution`. -/
inductive PacketDistribution where
  | kQueue
  | kFlowHash
deriving DecidableEq, Repr

namespace PacketDistribution

/-- How the loops of a mode drain the accumulator of a worker. -/
def flush : PacketDistribution → BurstCounters → BurstCounters → BurstCounters
  | .kQueue => flushAtomicCounters
  | .kFlowHash => addDispatchedWorkerCounters

/-- Whether the workers' own values of a counter are part of the shared one: with a dispatcher
in front of them, they do not count again what it has received. -/
def counts (mode : PacketDistribution) (k : Counter) : Bool :=
  !(mode = .kFlowHash && k = .received)

theorem get_flush (mode : PacketDistribution) (k : Counter) (c c' : BurstCounters) :
    k.get (mode.flush c c') = k.get c + (mode.counts k).toNat * k.get c' := by
  cases mode with
  | kQueue =>
      have hcounts : (counts .kQueue k).toNat = 1 := rfl
      rw [hcounts, Nat.one_mul]
      exact k.get_addBurstCounters c c'
  | kFlowHash => cases k <;> simp [flush, addDispatchedWorkerCounters, Counter.get, counts]

end PacketDistribution

/-- The counters of a running pipeline, with a record of what happened: the counters of every
burst, and how many packets each worker has taken, has left with its fragment table and has given
to other workers. -/
structure PipelineCounters (W : Type) where
  shared : BurstCounters := {}
  workers : W → WorkerCounters := fun _ ↦ {}
  exited : W → Bool := fun _ ↦ false
  workerBursts : W → List BurstCounters := fun _ ↦ []
  dispatcherBursts : List BurstCounters := []
  taken : W → Nat := fun _ ↦ 0
  waiting : W → Nat := fun _ ↦ 0
  redispatched : W → Nat := fun _ ↦ 0

/-- A worker runs an iteration or leaves its loop, the dispatcher runs an iteration, or the main
lcore counts an eviction or a resize. -/
inductive PipelineAction (W : Type) (cap : Nat) (μ σ : Type) where
  | queue (w : W) (i : QueueIteration cap μ σ)
  | dispatched (w : W) (i : DispatchedIteration cap μ σ)
  | dispatcher (enqueues : μ → Bool) (bursts : List (List μ))
  | exit (w : W)
  | pressureEviction
  | flowTableResize

variable {W : Type} [DecidableEq W]

namespace PipelineCounters

/-- A worker's iteration, with the packets it has taken, left waiting and redispatched. -/
def endBurst (mode : PacketDistribution) (s : PipelineCounters W) (w : W) (burst : BurstCounters)
    (taken waiting redispatched : Nat) : PipelineCounters W :=
  let r := endIteration mode.flush burst (s.workers w) s.shared
  { s with
    shared := r.2
    workers := Function.update s.workers w r.1
    workerBursts := Function.update s.workerBursts w (burst :: s.workerBursts w)
    taken := Function.update s.taken w (s.taken w + taken)
    waiting := Function.update s.waiting w (s.waiting w + waiting)
    redispatched := Function.update s.redispatched w (s.redispatched w + redispatched) }

/-- One step of a pipeline in a mode. -/
def step (mode : PacketDistribution) (s : PipelineCounters W) :
    PipelineAction W cap μ σ → Option (PipelineCounters W)
  | .queue w i =>
      if mode = .kQueue ∧ s.exited w = false then
        some (s.endBurst mode w i.counters i.taken i.waiting 0)
      else none
  | .dispatched w i =>
      if mode = .kFlowHash ∧ s.exited w = false then
        some (s.endBurst mode w i.counters i.taken i.waiting i.redispatched)
      else none
  | .dispatcher enqueues bursts =>
      if mode = .kFlowHash then
        let burst := dispatchIterationCounters enqueues bursts
        some { s with
          shared := addBurstCounters s.shared burst
          dispatcherBursts := burst :: s.dispatcherBursts }
      else none
  | .exit w =>
      if s.exited w = false then
        let r := exitLoop mode.flush (s.workers w) s.shared
        some { s with
          shared := r.2
          workers := Function.update s.workers w r.1
          exited := Function.update s.exited w true }
      else none
  | .pressureEviction => some { s with shared :=
      { s.shared with pressureEvictions := s.shared.pressureEvictions + 1 } }
  | .flowTableResize => some { s with shared :=
      { s.shared with flowTableResizes := s.shared.flowTableResizes + 1 } }

/-- The runs of a pipeline: all counters are zero when its workers start. -/
def runs (W : Type) [DecidableEq W] (cap : Nat) (μ σ : Type) (mode : PacketDistribution) :
    System (PipelineCounters W) (PipelineAction W cap μ σ) :=
  .ofPartial {} (step mode)

/-! ## Conservation -/

/-- What the end of an iteration adds, in the accumulator or behind it. -/
theorem get_endIteration (mode : PacketDistribution) (k : Counter) (burst : BurstCounters)
    (w : WorkerCounters) (shared : BurstCounters) :
    k.get (endIteration mode.flush burst w shared).2 + (mode.counts k).toNat *
        k.get (endIteration mode.flush burst w shared).1.pendingBurst =
      k.get shared + (mode.counts k).toNat * k.get w.pendingBurst +
        (mode.counts k).toNat * k.get burst := by
  have hzero : k.get ({} : BurstCounters) = 0 := by cases k <;> rfl
  unfold endIteration
  dsimp only
  split
  · rw [mode.get_flush, k.get_addBurstCounters, Nat.mul_add, hzero, Nat.mul_zero, Nat.add_zero,
      Nat.add_assoc]
  · rw [k.get_addBurstCounters, Nat.mul_add, Nat.add_assoc]

theorem stats_endIteration (mode : PacketDistribution) (burst : BurstCounters)
    (w : WorkerCounters) (shared : BurstCounters) :
    (endIteration mode.flush burst w shared).1.stats = addBurstCounters w.stats burst := by
  unfold endIteration
  dsimp only
  split <;> rfl

/-- Replacing one summand. -/
theorem sum_update_add [Fintype W] {α : Type} (f : α → Nat) (g : W → α) (w : W) (a : α) :
    (∑ v, f (Function.update g w a v)) + f (g w) = (∑ v, f (g v)) + f a := by
  rw [← Finset.add_sum_erase _ _ (Finset.mem_univ w), ← Finset.add_sum_erase _ (fun v ↦ f (g v))
    (Finset.mem_univ w), Function.update_self]
  have hrest : ∑ v ∈ Finset.univ.erase w, f (Function.update g w a v) =
      ∑ v ∈ Finset.univ.erase w, f (g v) := by
    refine Finset.sum_congr rfl fun v hv ↦ ?_
    rw [Function.update_of_ne (Finset.ne_of_mem_erase hv)]
  rw [hrest]
  omega

/-- The workers' balances, empty accumulators behind the loops, and the way of every counter from
the bursts through the accumulators to the shared counters. -/
structure Inv [Fintype W] (mode : PacketDistribution) (s : PipelineCounters W) : Prop where
  balanced : ∀ w, Balanced (s.workers w).stats (s.taken w) (s.waiting w) (s.redispatched w)
  drained : ∀ w, s.exited w = true → (s.workers w).pendingBurst = {}
  shared : ∀ k, k ≠ .pressureEvictions → k ≠ .flowTableResizes →
    k.get s.shared + ∑ w, (mode.counts k).toNat * k.get (s.workers w).pendingBurst =
      ∑ w, (mode.counts k).toNat * ((s.workerBursts w).map k.get).sum +
        (s.dispatcherBursts.map k.get).sum

theorem Inv.endBurst [Fintype W] {mode : PacketDistribution} {s : PipelineCounters W}
    (h : s.Inv mode) {w : W} (hrunning : s.exited w = false) {burst : BurstCounters}
    {taken waiting redispatched : Nat} (hburst : Balanced burst taken waiting redispatched) :
    (s.endBurst mode w burst taken waiting redispatched).Inv mode := by
  refine ⟨fun v ↦ ?_, fun v hv ↦ ?_, fun k hk hk' ↦ ?_⟩
  · by_cases hvw : v = w
    · subst hvw
      simp only [PipelineCounters.endBurst, Function.update_self, stats_endIteration]
      exact (h.balanced v).add hburst
    · simp only [PipelineCounters.endBurst, Function.update_of_ne hvw]
      exact h.balanced v
  · have hvw : v ≠ w := by
      rintro rfl
      exact Bool.false_ne_true (hrunning.symm.trans hv)
    simp only [PipelineCounters.endBurst, Function.update_of_ne hvw]
    exact h.drained v hv
  · have hshared := h.shared k hk hk'
    have hend := get_endIteration mode k burst (s.workers w) s.shared
    have hpending := sum_update_add
      (fun c : WorkerCounters ↦ (mode.counts k).toNat * k.get c.pendingBurst) s.workers w
      (endIteration mode.flush burst (s.workers w) s.shared).1
    have hbursts := sum_update_add
      (fun l : List BurstCounters ↦ (mode.counts k).toNat * (l.map k.get).sum) s.workerBursts w
      (burst :: s.workerBursts w)
    rw [List.map_cons, List.sum_cons, Nat.mul_add] at hbursts
    simp only [PipelineCounters.endBurst]
    omega

theorem Inv.step [Fintype W] {mode : PacketDistribution} {s s' : PipelineCounters W}
    (h : s.Inv mode) {a : PipelineAction W cap μ σ} (hstep : s.step mode a = some s') :
    s'.Inv mode := by
  cases a with
  | queue w i =>
      simp only [PipelineCounters.step] at hstep
      split at hstep
      · rename_i hmode
        cases hstep
        exact h.endBurst hmode.2 i.balanced
      · cases hstep
  | dispatched w i =>
      simp only [PipelineCounters.step] at hstep
      split at hstep
      · rename_i hmode
        cases hstep
        exact h.endBurst hmode.2 i.balanced
      · cases hstep
  | dispatcher enqueues bursts =>
      simp only [PipelineCounters.step] at hstep
      split at hstep
      · cases hstep
        refine ⟨h.balanced, h.drained, fun k hk hk' ↦ ?_⟩
        have hshared := h.shared k hk hk'
        simp only [k.get_addBurstCounters, List.map_cons, List.sum_cons]
        omega
      · cases hstep
  | exit w =>
      simp only [PipelineCounters.step] at hstep
      split at hstep
      · cases hstep
        refine ⟨fun v ↦ ?_, fun v hv ↦ ?_, fun k hk hk' ↦ ?_⟩
        · by_cases hvw : v = w
          · subst hvw
            simp only [exitLoop, Function.update_self]
            exact h.balanced v
          · simp only [Function.update_of_ne hvw]
            exact h.balanced v
        · by_cases hvw : v = w
          · subst hvw
            simp only [exitLoop, Function.update_self]
          · simp only [Function.update_of_ne hvw] at hv ⊢
            exact h.drained v hv
        · have hzero : k.get ({} : BurstCounters) = 0 := by cases k <;> rfl
          have hshared := h.shared k hk hk'
          have hpending := sum_update_add
            (fun c : WorkerCounters ↦ (mode.counts k).toNat * k.get c.pendingBurst) s.workers w
            (exitLoop mode.flush (s.workers w) s.shared).1
          simp only [exitLoop, hzero, Nat.mul_zero, mode.get_flush] at hpending ⊢
          omega
      · cases hstep
  | pressureEviction =>
      cases hstep
      refine ⟨h.balanced, h.drained, fun k hk hk' ↦ ?_⟩
      have hget : k.get { s.shared with pressureEvictions := s.shared.pressureEvictions + 1 } =
          k.get s.shared := by
        cases k <;> first | rfl | exact absurd rfl hk
      show k.get { s.shared with pressureEvictions := _ } + _ = _
      rw [hget]
      exact h.shared k hk hk'
  | flowTableResize =>
      cases hstep
      refine ⟨h.balanced, h.drained, fun k hk hk' ↦ ?_⟩
      have hget : k.get { s.shared with flowTableResizes := s.shared.flowTableResizes + 1 } =
          k.get s.shared := by
        cases k <;> first | rfl | exact absurd rfl hk'
      show k.get { s.shared with flowTableResizes := _ } + _ = _
      rw [hget]
      exact h.shared k hk hk'

end PipelineCounters

end DpdkSpi
