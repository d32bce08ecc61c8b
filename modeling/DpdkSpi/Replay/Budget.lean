import DpdkSpi.Replay.Loop

/-!
# The packet budget of a replay

`RunReplayLoop` compares `packets_injected` with `max_packets` before a burst, and a burst has 64
packets or what is left of the file.  So a replay stops at the end of a burst, and it injects as
many packets as it may when one ends at the limit.
-/

namespace DpdkSpi

open Lib

/-! ## The ends of bursts -/

/-- Behind so many packets of a file of `n` packets, which is read again and again, a burst ends. -/
def IsBurstEnd (n count : Nat) : Prop := kReplayBurstSize ∣ count % n

theorem isBurstEnd_add {n position : Nat} (loops : Nat) (hle : position ≤ n)
    (hend : kReplayBurstSize ∣ position ∨ position = n) : IsBurstEnd n (loops * n + position) := by
  rw [IsBurstEnd, Nat.mul_comm, Nat.mul_add_mod]
  rcases Nat.lt_or_eq_of_le hle with hlt | rfl
  · rw [Nat.mod_eq_of_lt hlt]
    exact hend.resolve_right hlt.ne
  · rw [Nat.mod_self]
    exact Nat.dvd_zero _

/-- Between the ends of a burst there is none. -/
theorem not_isBurstEnd_between {n position : Nat} (loops : Nat)
    (hend : kReplayBurstSize ∣ position) {count : Nat} (hlt : loops * n + position < count)
    (hburst : count < loops * n + position + kReplayBurstSize) (hfile : count < loops * n + n) :
    ¬ IsBurstEnd n count := by
  obtain ⟨k, rfl⟩ := Nat.exists_eq_add_of_le (Nat.le_of_lt hlt)
  rw [IsBurstEnd, Nat.add_assoc, Nat.mul_comm, Nat.mul_add_mod, Nat.mod_eq_of_lt (by omega),
    Nat.dvd_add_right hend]
  intro hdvd
  have hk := Nat.le_of_dvd (by omega) hdvd
  omega

/-- After at most a burst size there is an end again. -/
theorem exists_isBurstEnd {n : Nat} (hn : 0 < n) (count : Nat) :
    ∃ count', count ≤ count' ∧ count' < count + kReplayBurstSize ∧ IsBurstEnd n count' := by
  have hcount : count / n * n + count % n = count := by
    rw [Nat.mul_comm]
    exact Nat.div_add_mod count n
  have hlt := Nat.mod_lt count hn
  by_cases hend : kReplayBurstSize ∣ count % n
  · exact ⟨count, le_rfl, Nat.lt_add_of_pos_right (by decide), hend⟩
  · let next := (count % n / kReplayBurstSize + 1) * kReplayBurstSize
    have hnext : count % n < next ∧ next < count % n + kReplayBurstSize := by
      have hrest : count % n % kReplayBurstSize ≠ 0 := fun h ↦ hend (Nat.dvd_of_mod_eq_zero h)
      simp only [next, kReplayBurstSize] at *
      omega
    refine ⟨count / n * n + min next n, by omega, by omega,
      isBurstEnd_add _ (Nat.min_le_right _ _) ?_⟩
    rcases Nat.le_total next n with hle | hle
    · rw [Nat.min_eq_left hle]
      exact .inl (Nat.dvd_mul_left _ _)
    · exact .inr (Nat.min_eq_right hle)

/-- The limit is met: the counter of the injected packets, which has 64 bits, is at the limit when a
burst ends, and it was below at the end of every burst before. -/
def LimitMet (n total maxPackets : Nat) : Prop :=
  ∃ count ≤ total, IsBurstEnd n count ∧ count % 2 ^ 64 = maxPackets ∧
    ∀ count' < count, IsBurstEnd n count' → count' % 2 ^ 64 < maxPackets

/-- Unless the counter can wrap within a burst, a burst has to end at the limit. -/
theorem limitMet_iff {n total maxPackets : Nat} (hn : 0 < n)
    (hwrap : maxPackets + kReplayBurstSize ≤ 2 ^ 64) (hle : maxPackets ≤ total) :
    LimitMet n total maxPackets ↔ IsBurstEnd n maxPackets := by
  have hsize : 0 < kReplayBurstSize := by decide
  constructor
  · rintro ⟨count, -, hend, hcount, hbelow⟩
    obtain ⟨count', hge, hlt, hend'⟩ := exists_isBurstEnd hn maxPackets
    have hmod : count' % 2 ^ 64 = count' := Nat.mod_eq_of_lt (by omega)
    have hcount' : count ≤ count' := by
      by_contra hgt
      have := hbelow count' (Nat.lt_of_not_le hgt) hend'
      omega
    have hsame : count = maxPackets := by
      rw [← hcount, Nat.mod_eq_of_lt (by omega)]
    exact hsame ▸ hend
  · intro hend
    refine ⟨maxPackets, hle, hend, Nat.mod_eq_of_lt (by omega), fun count' hlt _ ↦ ?_⟩
    rw [Nat.mod_eq_of_lt (by omega)]
    exact hlt

/-! ## The loop -/

/-- Between two iterations the loop is at a position of the file in one of its loops, a burst has
ended there, and the limit was not reached at the end of any burst before. -/
structure ReplayInv (env : ReplayEnv) (loopCount : BitVec 32) (maxPackets : BitVec 64)
    (w : ReplayWorld) : Prop where
  at_end : ∃ position, w.reader.At env.toPcapEnv position ∧
    (kReplayBurstSize ∣ position ∨ position = env.packets.length) ∧
    w.state.packetsInjected.toNat =
      (w.state.loopsCompleted.toNat * env.packets.length + position) % 2 ^ 64 ∧
    ∀ count < w.state.loopsCompleted.toNat * env.packets.length + position,
      IsBurstEnd env.packets.length count → count % 2 ^ 64 < maxPackets.toNat
  loops : w.state.loopsCompleted < loopCount

/-- Behind the loop a burst has ended, the limit was not reached before, and it is reached unless
all packets were injected. -/
def ReplayEnd (n total maxPackets packetsInjected : Nat) : Prop :=
  ∃ count ≤ total, IsBurstEnd n count ∧ packetsInjected = count % 2 ^ 64 ∧
    (∀ count' < count, IsBurstEnd n count' → count' % 2 ^ 64 < maxPackets) ∧
    (maxPackets ≤ count % 2 ^ 64 ∨ count = total)

/-- The loop ends with the smaller of both numbers when all packets are within the limit, or the
limit is met. -/
theorem ReplayEnd.eq_min_iff {n total maxPackets packetsInjected : Nat}
    (h : ReplayEnd n total maxPackets packetsInjected) (hmax : maxPackets < 2 ^ 64) :
    packetsInjected = min total maxPackets ↔
      total ≤ maxPackets ∨ LimitMet n total maxPackets := by
  obtain ⟨count, hle, hend, rfl, hbelow, hstop⟩ := h
  constructor
  · intro heq
    rcases Nat.le_total total maxPackets with htotal | htotal
    · exact .inl htotal
    · rw [Nat.min_eq_right htotal] at heq
      exact .inr ⟨count, hle, hend, heq, hbelow⟩
  · rintro (htotal | ⟨count', hle', hend', hcount', hbelow'⟩)
    · rw [Nat.min_eq_left htotal]
      have hmod : count % 2 ^ 64 = count := Nat.mod_eq_of_lt (by omega)
      rcases hstop with hstop | rfl <;> omega
    · have hsame : count = count' := by
        rcases Nat.lt_trichotomy count count' with hlt | heq | hgt
        · have := hbelow' count hlt hend
          rcases hstop with hstop | rfl <;> omega
        · exact heq
        · have := hbelow count' hgt hend'
          omega
      subst hsame
      have htotal : maxPackets ≤ total := by
        rw [← hcount']
        exact (Nat.mod_le _ _).trans hle
      rw [hcount', Nat.min_eq_right htotal]

section Loop

variable {env : ReplayEnv} {config : PcapReplayConfig}

/-- What is left of the replay in a loop at a position: more loops, and the rest of the file. -/
def loopVariant (maxLoops n loops position : Nat) : Nat := (maxLoops - loops) * (n + 1) - position

theorem loopVariant_burst {maxLoops n loops position position' : Nat} (hloops : loops < maxLoops)
    (hlt : position < position') (hle : position' ≤ n) :
    loopVariant maxLoops n loops position' < loopVariant maxLoops n loops position := by
  have hleft : n + 1 ≤ (maxLoops - loops) * (n + 1) :=
    Nat.le_mul_of_pos_left _ (Nat.sub_pos_of_lt hloops)
  unfold loopVariant
  omega

theorem loopVariant_again {maxLoops n loops : Nat} (hloops : loops < maxLoops) :
    loopVariant maxLoops n (loops + 1) 0 < loopVariant maxLoops n loops n := by
  have hleft : maxLoops - loops = maxLoops - (loops + 1) + 1 := by omega
  unfold loopVariant
  rw [hleft, Nat.succ_mul]
  omega

/-- What is left of the replay. -/
def replayVariant (env : ReplayEnv) (config : PcapReplayConfig) (w : ReplayWorld) : Nat :=
  loopVariant config.maxLoops.toNat env.packets.length w.state.loopsCompleted.toNat
    (w.reader.pcapHandle.getD 0)

/-- The loop counter does not wrap. -/
theorem toNat_succ_of_lt {loops maxLoops : BitVec 32} (h : loops < maxLoops) :
    (loops + 1).toNat = loops.toNat + 1 := by
  have hlt : loops.toNat < maxLoops.toNat := h
  have hmax := maxLoops.isLt
  rw [BitVec.toNat_add]
  exact Nat.mod_eq_of_lt (by simp only [BitVec.ofNat_eq_ofNat, BitVec.toNat_ofNat]; omega)

/-- What was true of the ends before a burst and of the one in front of it is true of all ends
before the next one. -/
theorem forall_isBurstEnd_lt {n loops position : Nat} {P : Nat → Prop}
    (hend : kReplayBurstSize ∣ position)
    (hbelow : ∀ count < loops * n + position, IsBurstEnd n count → P count)
    (hnow : P (loops * n + position)) :
    ∀ count < loops * n + min (position + kReplayBurstSize) n, IsBurstEnd n count → P count := by
  intro count hlt hcount
  rcases Nat.lt_trichotomy count (loops * n + position) with hbefore | rfl | hafter
  · exact hbelow count hbefore hcount
  · exact hnow
  · exact absurd hcount (not_isBurstEnd_between loops hend hafter (by omega) (by omega))

/-- The limit is reached, or there is a next turn, which keeps the invariant. -/
theorem replayTurn_inv (hworks : env.Works) (hquit : ∀ k, env.forceQuit k = false)
    {w : ReplayWorld} (h : ReplayInv env config.maxLoops config.maxPacketsOrAll w) :
    (∃ w', replayTurn env config w = .stop (.ok ()) w' ∧
      ReplayEnd env.packets.length (config.maxLoops.toNat * env.packets.length)
        config.maxPacketsOrAll.toNat w'.state.packetsInjected.toNat) ∨
    ∃ w', (replayTurn env config w = .again w' ∨ replayTurn env config w = .burst w') ∧
      ReplayInv env config.maxLoops config.maxPacketsOrAll w' ∧
      replayVariant env config w' < replayVariant env config w := by
  obtain ⟨⟨position, hreader, hend, hinjected, hbelow⟩, hloops⟩ := h
  have hlt : w.state.loopsCompleted.toNat < config.maxLoops.toNat := hloops
  have htotal : w.state.loopsCompleted.toNat * env.packets.length + position ≤
      config.maxLoops.toNat * env.packets.length :=
    calc w.state.loopsCompleted.toNat * env.packets.length + position
        ≤ w.state.loopsCompleted.toNat * env.packets.length + env.packets.length :=
          Nat.add_le_add_left hreader.le _
      _ = (w.state.loopsCompleted.toNat + 1) * env.packets.length := (Nat.succ_mul _ _).symm
      _ ≤ config.maxLoops.toNat * env.packets.length := Nat.mul_le_mul_right _ hlt
  have hburst := isBurstEnd_add w.state.loopsCompleted.toNat hreader.le hend
  by_cases hpackets : w.state.packetsInjected < config.maxPacketsOrAll
  · have hnow : (w.state.loopsCompleted.toNat * env.packets.length + position) % 2 ^ 64 <
        config.maxPacketsOrAll.toNat := hinjected ▸ hpackets
    rcases Nat.lt_or_eq_of_le hreader.le with hbefore | rfl
    · -- a burst of the file, which ends at a multiple of the burst size or at the end of the file
      obtain ⟨w', hturn, hreader', hinjected', hloops'⟩ :=
        replayTurn_burst hworks hquit hloops hpackets hreader hbefore
      have hdvd := hend.resolve_right hbefore.ne
      have hsize : 0 < kReplayBurstSize := by decide
      refine .inr ⟨w', .inr hturn, ⟨⟨_, hreader', ?_, ?_, ?_⟩, ?_⟩, ?_⟩
      · rcases Nat.le_total (position + kReplayBurstSize) env.packets.length with hle | hle
        · rw [Nat.min_eq_left hle]
          exact .inl (Nat.dvd_add_self_right.mpr hdvd)
        · exact .inr (Nat.min_eq_right hle)
      · have hmore : min (position + kReplayBurstSize) env.packets.length =
            position + min kReplayBurstSize (env.packets.length - position) := by omega
        rw [hinjected', hloops', BitVec.toNat_add, BitVec.toNat_ofNat, hinjected, ← Nat.add_mod,
          hmore, Nat.add_assoc]
      · rw [hloops']
        exact forall_isBurstEnd_lt hdvd hbelow hnow
      · rw [hloops']
        exact hloops
      · rw [replayVariant, replayVariant, hloops', hreader.handle, hreader'.handle]
        exact loopVariant_burst hlt (by rw [Option.getD_some, Option.getD_some]; omega)
          (Nat.min_le_right _ _)
    · -- the end of the file
      rcases replayTurn_end hworks hquit hloops hpackets hreader with
        ⟨hlast, w', hturn, hinjected'⟩ | ⟨hmore, w', hturn, hreader', hinjected', hloops'⟩
      · have hone : w.state.loopsCompleted.toNat + 1 = config.maxLoops.toNat := by
          have hle : config.maxLoops.toNat ≤ (w.state.loopsCompleted + 1).toNat := hlast
          rw [toNat_succ_of_lt hloops] at hle
          omega
        refine .inl ⟨w', hturn, _, htotal, hburst, ?_, hbelow, .inr ?_⟩
        · rw [hinjected', hinjected]
        · rw [← hone, Nat.succ_mul]
      · have hcount : (w.state.loopsCompleted.toNat + 1) * env.packets.length + 0 =
            w.state.loopsCompleted.toNat * env.packets.length + env.packets.length :=
          Nat.succ_mul _ _
        refine .inr ⟨w', .inl hturn, ⟨⟨0, hreader', .inl (Nat.dvd_zero _), ?_, ?_⟩, ?_⟩, ?_⟩
        · rw [hinjected', hloops', toNat_succ_of_lt hloops, hcount, hinjected]
        · rw [hloops', toNat_succ_of_lt hloops, hcount]
          exact hbelow
        · rw [hloops']
          exact hmore
        · rw [replayVariant, replayVariant, hloops', toNat_succ_of_lt hloops, hreader.handle,
            hreader'.handle]
          exact loopVariant_again hlt
  · -- the limit
    obtain ⟨w', hturn, hstate⟩ : ∃ w', replayTurn env config w = .stop (.ok ()) w' ∧
        w'.state = w.state := replayTurn_limit fun hgo ↦ hpackets hgo.2
    refine .inl ⟨w', hturn, _, htotal, hburst, ?_, hbelow, .inl ?_⟩
    · rw [hstate, hinjected]
    · rw [← hinjected]
      exact Nat.le_of_not_lt hpackets

/-- An iteration ends the loop as it should, or goes on and keeps the invariant. -/
theorem replayIteration_inv (hworks : env.Works) (hquit : ∀ k, env.forceQuit k = false)
    (hclock : config.packetsPerSecond = 0 ∨ env.ClockReaches config.packetsPerSecond)
    (tscStart : BitVec 64) (w : ReplayWorld)
    (h : ReplayInv env config.maxLoops config.maxPacketsOrAll w) :
    (∃ r, (replayIteration env config tscStart w).Returns (.inl r) ∧ r.1 = .ok () ∧
      ReplayEnd env.packets.length (config.maxLoops.toNat * env.packets.length)
        config.maxPacketsOrAll.toNat r.2.state.packetsInjected.toNat) ∨
    ∃ w', (replayIteration env config tscStart w).Returns (.inr w') ∧
      ReplayInv env config.maxLoops config.maxPacketsOrAll w' ∧
      replayVariant env config w' < replayVariant env config w := by
  unfold replayIteration
  rcases replayTurn_inv hworks hquit h with ⟨w', hturn, hend⟩ | ⟨w', hturn, hinv, hlt⟩
  · rw [hturn]
    exact .inl ⟨_, Fuelled.returns_const _, rfl, hend⟩
  · refine .inr ?_
    rcases hturn with hturn | hturn
    · rw [hturn]
      exact ⟨w', Fuelled.returns_const _, hinv, hlt⟩
    · rw [hturn]
      by_cases hrate : 0 < config.packetsPerSecond
      · have hreaches := hclock.resolve_left fun hzero ↦ by simp [hzero] at hrate
        obtain ⟨readings, fuel, hreadings⟩ := applyRateLimit_returns hreaches
          w'.state.packetsInjected tscStart w'.readings
        refine ⟨{ w' with readings }, ⟨fuel, ?_⟩, ⟨hinv.at_end, hinv.loops⟩, hlt⟩
        dsimp only
        rw [if_pos hrate, hreadings]
        rfl
      · refine ⟨w', ⟨0, ?_⟩, hinv, hlt⟩
        dsimp only
        rw [if_neg hrate]

/-- **A replay ends**, at the end of a burst. -/
theorem runReplayLoop_returns (hworks : env.Works) (hquit : ∀ k, env.forceQuit k = false)
    (hclock : config.packetsPerSecond = 0 ∨ env.ClockReaches config.packetsPerSecond)
    {reader : PcapReader} (hreader : reader.At env.toPcapEnv 0) (readings : Readings) :
    ∃ w, (runReplayLoop env config ⟨reader, {}, readings⟩).Returns (.ok (), w) ∧
      ReplayEnd env.packets.length (config.maxLoops.toNat * env.packets.length)
        config.maxPacketsOrAll.toNat w.state.packetsInjected.toNat := by
  have hloops : (0 : BitVec 32) < config.maxLoops := by
    unfold PcapReplayConfig.maxLoops
    split
    · decide
    · rename_i hne
      exact (BitVec.pos_iff_ne_zero _).mpr hne
  have hstart : ReplayInv env config.maxLoops config.maxPacketsOrAll
      ⟨reader, {}, { readings with tsc := readings.tsc + 1 }⟩ := by
    refine ⟨⟨0, hreader, .inl (Nat.dvd_zero _), ?_, ?_⟩, hloops⟩
    · simp
    · intro count hlt
      simp at hlt
  obtain ⟨⟨result, w⟩, hreturns, rfl, hend⟩ := iterate_returns (replayVariant env config)
    (replayIteration_monotone env config (env.rdtsc readings.tsc))
    (replayIteration_inv hworks hquit hclock (env.rdtsc readings.tsc)) hstart
  exact ⟨w, hreturns, hend⟩

end Loop

/-- **When a replay respects its budget.**  It injects the packets of all loops, up to the limit,
exactly when these are no more than the limit or the limit is met; and unless the counter can wrap
at the limit, it is met when a burst ends there. -/
theorem replay_budget_iff (env : ReplayEnv) (hworks : env.Works)
    (hquit : ∀ k, env.forceQuit k = false) (hne : env.packets ≠ []) (config : PcapReplayConfig)
    (hloops : config.loopCount ≠ 0) (hmax : config.maxPackets ≠ 0)
    (hclock : config.packetsPerSecond = 0 ∨ env.ClockReaches config.packetsPerSecond)
    (reader : PcapReader) (hreader : reader.At env.toPcapEnv 0) (readings : Readings) :
    let n := env.packets.length
    let total := config.loopCount.toNat * n
    let maxPackets := config.maxPackets.toNat
    ((∃ w, (runReplayLoop env config ⟨reader, {}, readings⟩).Returns (.ok (), w) ∧
        w.state.packetsInjected.toNat = min total maxPackets) ↔
      total ≤ maxPackets ∨ LimitMet n total maxPackets) ∧
    (maxPackets + kReplayBurstSize ≤ 2 ^ 64 → maxPackets ≤ total →
      (LimitMet n total maxPackets ↔ kReplayBurstSize ∣ maxPackets % n)) := by
  obtain ⟨w, hreturns, hend⟩ := runReplayLoop_returns hworks hquit hclock hreader readings
  rw [PcapReplayConfig.maxLoops, if_neg hloops, PcapReplayConfig.maxPacketsOrAll, if_neg hmax]
    at hend
  have hiff := hend.eq_min_iff config.maxPackets.isLt
  refine ⟨⟨?_, fun h ↦ ⟨w, hreturns, hiff.mpr h⟩⟩,
    fun hwrap hle ↦ limitMet_iff (List.length_pos_iff.mpr hne) hwrap hle⟩
  rintro ⟨w', hreturns', heq⟩
  obtain ⟨-, rfl⟩ := Prod.mk.inj
    ((runReplayLoop_monotone env config _).unique hreturns hreturns')
  exact hiff.mp heq

/-! ## Bursts and limits -/

/-- A second loop of a file of 100 packets has a burst of 64 packets, which ends at the limit. -/
theorem replay_budget_second_loop :
    ∃ w, (runReplayLoop (steadyReplay 100 0)
        { loopCount := 2, packetsPerSecond := 500, maxPackets := 164 }
        ⟨steadyReader, {}, {}⟩).Returns (.ok (), w) ∧ w.state.packetsInjected.toNat = 164 := by
  obtain ⟨hiff, hlimit⟩ := replay_budget_iff (steadyReplay 100 0) (steadyReplay_works 100 0)
    (fun _ ↦ rfl) (by decide) { loopCount := 2, packetsPerSecond := 500, maxPackets := 164 }
    (by decide) (by decide) (.inr (steadyReplay_clockReaches 100 0 500)) steadyReader
    (steadyReader_at 100 0) {}
  exact hiff.mpr (.inr ((hlimit (by decide) (by decide)).mpr (by decide)))

/-- The first burst has 64 packets, also when the limit is a single packet. -/
theorem one_packet_overshot :
    (∃ w, (runReplayLoop (steadyReplay 64 0) { maxPackets := 1 } ⟨steadyReader, {}, {}⟩).Returns
        (.ok (), w) ∧ w.state.packetsInjected.toNat = 64) ∧
      ¬ ∃ w, (runReplayLoop (steadyReplay 64 0) { maxPackets := 1 } ⟨steadyReader, {}, {}⟩).Returns
        (.ok (), w) ∧ w.state.packetsInjected.toNat = min (1 * 64) 1 := by
  have hinjected : ∃ w, (runReplayLoop (steadyReplay 64 0) { maxPackets := 1 }
      ⟨steadyReader, {}, {}⟩).Returns (.ok (), w) ∧ w.state.packetsInjected.toNat = 64 := by
    have hrun : (runReplayLoop (steadyReplay 64 0) { maxPackets := 1 } ⟨steadyReader, {}, {}⟩ 2).map
        (fun r ↦ (r.1.isOk, r.2.state.packetsInjected.toNat)) = some (true, 64) := by
      decide +kernel
    obtain ⟨⟨result, w⟩, hrun, hvalues⟩ := Option.map_eq_some_iff.mp hrun
    obtain ⟨hok, hinjected⟩ := Prod.mk.inj hvalues
    cases result with
    | error message => cases hok
    | ok => exact ⟨w, ⟨2, hrun⟩, hinjected⟩
  refine ⟨hinjected, ?_⟩
  rintro ⟨w', hreturns', hone⟩
  obtain ⟨w, hreturns, hall⟩ := hinjected
  obtain ⟨-, rfl⟩ := Prod.mk.inj
    ((runReplayLoop_monotone (steadyReplay 64 0) _ _).unique hreturns hreturns')
  rw [hall] at hone
  exact absurd hone (by decide)

end DpdkSpi
