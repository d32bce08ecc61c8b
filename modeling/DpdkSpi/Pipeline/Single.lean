import DpdkSpi.Pipeline.Coupling
import DpdkSpi.Pipeline.Lookup
import DpdkSpi.Pipeline.Spi

/-!
# A burst of one packet

What the stages of a burst come to when it has a single packet: one parse, one lookup, one result
of the rules, one decision.
-/

namespace DpdkSpi

variable {cap : Nat} {μ σ : Type}

section One

variable {ctx : WorkerContext} {svc : Services μ σ} {packet : μ} {port : BitVec 16}
  {st : BurstState cap μ σ} {world : σ}

theorem openBurst_waiting (hparse : svc.parsePacketOwned packet ctx.currentBurstTsc st.world =
    (.waitingForFragments, world)) :
    (openBurst ctx svc [packet] st).1 = ([.waiting], ⟨[], [], []⟩) ∧
      Coupled Eq Eq { st with world } (openBurst ctx svc [packet] st).2 := by
  have hparse' : svc.parsePacketOwned packet ctx.currentBurstTsc
      (st.count fun c ↦ { c with received := c.received + [packet].length }).world =
        (.waitingForFragments, world) := hparse
  simp only [openBurst, parseReceivedPackets, hparse']
  exact ⟨rfl, rfl, rfl, rfl, rfl⟩

theorem openBurst_malformed {packet' : μ}
    (hparse : svc.parsePacketOwned packet ctx.currentBurstTsc st.world =
      (.malformed packet', world)) :
    (openBurst ctx svc [packet] st).1 = ([.unmapped packet], ⟨[], [], []⟩) ∧
      Coupled Eq Eq { st with world } (openBurst ctx svc [packet] st).2 := by
  have hparse' : svc.parsePacketOwned packet ctx.currentBurstTsc
      (st.count fun c ↦ { c with received := c.received + [packet].length }).world =
        (.malformed packet', world) := hparse
  simp only [openBurst, parseReceivedPackets, hparse']
  exact ⟨rfl, rfl, rfl, rfl, rfl⟩

theorem openBurst_parsed {packet' : μ} {metadata : PacketMetadata} {wasReassembled : Bool}
    (hparse : svc.parsePacketOwned packet ctx.currentBurstTsc st.world =
      (.parsed metadata packet' wasReassembled, world)) :
    (openBurst ctx svc [packet] st).1 = ([.mapped packet' 0],
        ⟨[metadata], [makeCanonicalFromMetadata metadata],
          [BulkResult.ofAnswer (st.flowTable.answer (makeCanonicalFromMetadata metadata))]⟩) ∧
      Coupled Eq Eq { st with
        world
        flowTable := (st.flowTable.lookup (makeCanonicalFromMetadata metadata)
          ctx.currentBurstTsc).2 } (openBurst ctx svc [packet] st).2 := by
  have hparse' : svc.parsePacketOwned packet ctx.currentBurstTsc
      (st.count fun c ↦ { c with received := c.received + [packet].length }).world =
        (.parsed metadata packet' wasReassembled, world) := hparse
  obtain ⟨hkeys, hbulk, htable⟩ := openBurst_lookup ctx svc [packet] st
  have hfst : (parseReceivedPackets ctx svc [packet] 0
      (st.count fun c ↦ { c with received := c.received + [packet].length })).1 =
        ([.mapped packet' 0], [metadata]) := by
    simp only [parseReceivedPackets, hparse']
  have hsnd : (parseReceivedPackets ctx svc [packet] 0
      (st.count fun c ↦ { c with received := c.received + [packet].length })).2.world = world := by
    simp only [parseReceivedPackets, hparse']
    rfl
  have hslots : (openBurst ctx svc [packet] st).1.1 = [.mapped packet' 0] := congrArg Prod.fst hfst
  have hmetadata : (openBurst ctx svc [packet] st).1.2.metadata = [metadata] :=
    congrArg Prod.snd hfst
  obtain ⟨-, hbuffers, hfreed⟩ := openBurst_frame ctx svc [packet] st
  rw [hmetadata] at hkeys
  rw [hkeys] at hbulk htable
  refine ⟨Prod.ext hslots ?_, htable.symm, hbuffers.symm, hfreed.symm, hsnd.symm⟩
  generalize (openBurst ctx svc [packet] st).1.2 = b at *
  obtain ⟨bm, bk, bb⟩ := b
  exact congr (congr (congrArg ParsedBurst.mk hmetadata) hkeys) hbulk

theorem processPortBurst_one {slot : PacketSlot μ} {b : ParsedBurst}
    (h : (openBurst ctx svc [packet] st).1 = ([slot], b)) :
    processPortBurst ctx svc port [packet] st =
      finalizePacket ctx svc port b (spiResults svc ctx.rules b [slot])
        (openBurst ctx svc [packet] st).2 slot := by
  rw [processPortBurst_eq, h]
  rfl

end One

/-- It is small enough for the bulk stages. -/
theorem spiResults_one (svc : Services μ σ) (rules : RuleTable) (packet : μ)
    (metadata : PacketMetadata) (key : FlowKey) :
    (spiResults svc rules ⟨[metadata], [key], [{}]⟩ [.mapped packet 0]).getD 0 {} =
      burstSpi svc rules metadata key := by
  have hfits : FitsBulk svc rules ⟨[metadata], [key], [{}]⟩ [PacketSlot.mapped packet 0] := by
    intro i hi
    have hlength : (aclMisses svc rules ⟨[metadata], [key], [{}]⟩
        [PacketSlot.mapped packet 0]).length ≤ 1 := List.length_filter_le _ _
    have hwidth : 1 ≤ RuleTable.kBulkWidth := by decide
    rw [List.drop_eq_nil_of_le (hlength.trans hwidth)] at hi
    exact absurd hi List.not_mem_nil
  exact getD_spiResults hfits List.mem_cons_self Nat.zero_lt_one rfl

end DpdkSpi
