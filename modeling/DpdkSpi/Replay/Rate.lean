import DpdkSpi.Replay.Loop

/-!
# The rate of a replay

`ApplyRateLimit` compares the cycles since the start with those that the injected packets should
take, and then waits until the counter itself, and not its distance from the start, is that large.
So a call keeps the rate for any clock exactly when the counter was zero at the start, or there is
nothing to wait for.  A replay keeps it as long as its calls do.
-/

namespace DpdkSpi

open Lib

/-! ## Rates and clocks -/

/-- The cycles that so many packets take at a rate. -/
def ReplayEnv.cyclesOf (env : ReplayEnv) (ratePps : BitVec 64) (packets : Nat) : Nat :=
  packets * env.tscHz.toNat / ratePps.toNat

/-- The cycles from the start to the last reading. -/
def ReplayEnv.elapsed (env : ReplayEnv) (tscStart : BitVec 64) (r : Readings) : Nat :=
  (env.rdtsc (r.tsc - 1)).toNat - tscStart.toNat

/-- The clock does not go back. -/
def ReplayEnv.ClockMonotone (env : ReplayEnv) : Prop :=
  ∀ i j, i ≤ j → (env.rdtsc i).toNat ≤ (env.rdtsc j).toNat

section Rates

variable {env : ReplayEnv} {ratePps : BitVec 64}

theorem ReplayEnv.cyclesOf_mono {packets packets' : Nat} (h : packets ≤ packets') :
    env.cyclesOf ratePps packets ≤ env.cyclesOf ratePps packets' :=
  Nat.div_le_div_right (Nat.mul_le_mul_right _ h)

/-- `expected_tsc`, unless the product overflows. -/
theorem toNat_expectedTsc {packetsInjected : BitVec 64}
    (hfits : packetsInjected.toNat * env.tscHz.toNat < 2 ^ 64) :
    (packetsInjected * env.tscHz / ratePps).toNat =
      env.cyclesOf ratePps packetsInjected.toNat := by
  rw [BitVec.toNat_udiv, BitVec.toNat_mul, Nat.mod_eq_of_lt hfits, ReplayEnv.cyclesOf]

theorem ReplayEnv.elapsed_mono (hclock : env.ClockMonotone) (tscStart : BitVec 64)
    {r r' : Readings} (h : r.tsc ≤ r'.tsc) : env.elapsed tscStart r ≤ env.elapsed tscStart r' :=
  Nat.sub_le_sub_right (hclock _ _ (Nat.sub_le_sub_right h 1)) _

end Rates

/-! ## One call -/

section Call

variable {env : ReplayEnv} {packetsInjected tscStart ratePps : BitVec 64} {r r' : Readings}

/-- The wait ends at a reading that is large enough. -/
theorem spin_spec (hquit : ∀ k, env.forceQuit k = false) {expectedTsc : BitVec 64}
    (h : (iterate (fun r _ ↦ some (spinOnce env expectedTsc r)) r).Returns r') :
    r.tsc < r'.tsc ∧ expectedTsc ≤ env.rdtsc (r'.tsc - 1) := by
  refine iterate_invariant (I := fun s ↦ r.tsc ≤ s.tsc)
    (Q := fun s ↦ r.tsc < s.tsc ∧ expectedTsc ≤ env.rdtsc (s.tsc - 1)) ?_ ?_ le_rfl h
  · rintro s s' hs ⟨fuel, hnext⟩
    have hnext := Option.some.inj hnext
    unfold spinOnce at hnext
    rw [hquit] at hnext
    split at hnext
    · obtain rfl := Sum.inr.inj hnext
      exact Nat.le_succ_of_le hs
    · cases hnext
  · rintro s s' hs ⟨fuel, hend⟩
    have hend := Option.some.inj hend
    unfold spinOnce at hend
    rw [hquit] at hend
    split at hend
    · cases hend
    · rename_i hlate
      obtain rfl := Sum.inl.inj hend
      exact ⟨Nat.lt_succ_of_le hs, BitVec.not_lt.mp hlate⟩

/-- A call of `ApplyRateLimit` ends with a reading that is far enough from the start, or with one
that is large enough by itself. -/
theorem applyRateLimit_spec (hquit : ∀ k, env.forceQuit k = false)
    (h : (applyRateLimit env packetsInjected tscStart ratePps r).Returns r') :
    r.tsc < r'.tsc ∧
      (packetsInjected * env.tscHz / ratePps ≤ env.rdtsc (r'.tsc - 1) - tscStart ∨
        packetsInjected * env.tscHz / ratePps ≤ env.rdtsc (r'.tsc - 1)) := by
  unfold applyRateLimit at h
  dsimp only at h
  split at h
  · obtain ⟨hlt, hle⟩ := spin_spec hquit h
    exact ⟨Nat.lt_of_succ_lt hlt, .inr hle⟩
  · rename_i hlate
    obtain ⟨fuel, h⟩ := h
    obtain rfl := Option.some.inj h
    exact ⟨Nat.lt_succ_self _, .inl (BitVec.not_lt.mp hlate)⟩

/-- A call keeps the rate: from the start to its last reading, the cycles have passed that the
injected packets take. -/
def RateKept (env : ReplayEnv) (packetsInjected tscStart ratePps : BitVec 64) (r' : Readings) :
    Prop :=
  env.cyclesOf ratePps packetsInjected.toNat ≤ env.elapsed tscStart r'

theorem rateKept_of_returns (hquit : ∀ k, env.forceQuit k = false)
    (hfits : packetsInjected.toNat * env.tscHz.toNat < 2 ^ 64)
    (hstart : ∀ i, r.tsc ≤ i → tscStart.toNat ≤ (env.rdtsc i).toNat)
    (hcond : tscStart = 0 ∨ env.cyclesOf ratePps packetsInjected.toNat = 0)
    (h : (applyRateLimit env packetsInjected tscStart ratePps r).Returns r') :
    RateKept env packetsInjected tscStart ratePps r' := by
  obtain ⟨hlt, hlast⟩ := applyRateLimit_spec hquit h
  rw [BitVec.le_def, BitVec.le_def, toNat_expectedTsc hfits] at hlast
  unfold RateKept ReplayEnv.elapsed
  rcases hlast with helapsed | hreading
  · have hle := hstart (r'.tsc - 1) (Nat.le_sub_one_of_lt hlt)
    rw [BitVec.toNat_sub_of_le (BitVec.le_def.mpr hle)] at helapsed
    exact helapsed
  · rcases hcond with rfl | hzero
    · exact hreading
    · rw [hzero]
      exact Nat.zero_le _

end Call

/-- A clock that stands still. -/
def stalledClock (tscHz reading : BitVec 64) : ReplayEnv where
  packets := []
  nextEx _ := .next
  openError _ := none
  allocFails _ := false
  tailroom := 2048
  tscHz := tscHz
  rdtsc _ := reading
  forceQuit _ := false

/-- A call at a counter that is large enough returns. -/
theorem applyRateLimit_stalled {tscHz reading packetsInjected ratePps : BitVec 64}
    (hlarge : packetsInjected * tscHz / ratePps ≤ reading) (tscStart : BitVec 64) (r : Readings) :
    ∃ r', (applyRateLimit (stalledClock tscHz reading) packetsInjected tscStart ratePps r).Returns
      r' := by
  unfold applyRateLimit
  dsimp only
  split
  · exact spin_returns (fun i ↦ ⟨i, le_rfl, hlarge⟩) _
  · exact ⟨_, Fuelled.returns_const _⟩

/-- **When a call keeps the rate**, for every clock that does not go back. -/
theorem applyRateLimit_keeps_iff {tscHz packetsInjected tscStart ratePps : BitVec 64}
    (hfits : packetsInjected.toNat * tscHz.toNat < 2 ^ 64) :
    (∀ env : ReplayEnv, env.tscHz = tscHz → env.ClockMonotone →
        (∀ i, tscStart.toNat ≤ (env.rdtsc i).toNat) → (∀ k, env.forceQuit k = false) →
        ∀ r r', (applyRateLimit env packetsInjected tscStart ratePps r).Returns r' →
          RateKept env packetsInjected tscStart ratePps r') ↔
      tscStart = 0 ∨ packetsInjected.toNat * tscHz.toNat / ratePps.toNat = 0 := by
  constructor
  · intro hall
    by_contra hcond
    obtain ⟨hstart, hexpected⟩ := not_or.mp hcond
    -- a clock that stands at the start, or at the cycles of the packets if these are more
    let expectedTsc := packetsInjected * tscHz / ratePps
    let reading := if tscStart < expectedTsc then expectedTsc else tscStart
    have hvalue : expectedTsc.toNat = packetsInjected.toNat * tscHz.toNat / ratePps.toNat := by
      rw [BitVec.toNat_udiv, BitVec.toNat_mul, Nat.mod_eq_of_lt hfits]
    have hreading : expectedTsc.toNat ≤ reading.toNat ∧ tscStart.toNat ≤ reading.toNat ∧
        reading.toNat - tscStart.toNat < expectedTsc.toNat := by
      have hpos : 0 < tscStart.toNat := BitVec.toNat_pos_of_ne_zero hstart
      simp only [reading]
      split
      · rename_i hlt
        rw [BitVec.lt_def] at hlt
        omega
      · rename_i hle
        rw [BitVec.lt_def] at hle
        omega
    obtain ⟨r', hreturns⟩ := applyRateLimit_stalled hreading.1 tscStart {}
    have hkept := hall (stalledClock tscHz reading) rfl (fun _ _ _ ↦ le_rfl) (fun _ ↦ hreading.2.1)
      (fun _ ↦ rfl) {} r' hreturns
    refine absurd hkept (Nat.not_le.mpr ?_)
    show reading.toNat - tscStart.toNat < packetsInjected.toNat * tscHz.toNat / ratePps.toNat
    rw [← hvalue]
    exact hreading.2.2
  · rintro hcond env rfl hclock hstart hquit r r' h
    exact rateKept_of_returns hquit hfits (fun i _ ↦ hstart i) hcond h

/-! ## A whole replay -/

section Run

variable {env : ReplayEnv} {config : PcapReplayConfig}

/-- The calls of `ApplyRateLimit` of a run that keep the rate: the product does not overflow, and
the counter was zero at the start or there is nothing to wait for. -/
def KeepsRate (env : ReplayEnv) (config : PcapReplayConfig) (tscStart : BitVec 64)
    (p : ReplayPoint) : Prop :=
  ∀ w, p = .limit w →
    w.state.packetsInjected.toNat * env.tscHz.toNat < 2 ^ 64 ∧
      (tscStart = 0 ∨ env.cyclesOf config.packetsPerSecond w.state.packetsInjected.toNat = 0)

/-- The rate is kept by all packets in front of an iteration, and by those before the last burst in
front of the rate limit. -/
structure RateInv (env : ReplayEnv) (config : PcapReplayConfig) (start : Readings)
    (p : ReplayPoint) : Prop where
  started : start.tsc < p.world.readings.tsc
  rest : env.cyclesOf config.packetsPerSecond
      (p.world.state.packetsInjected.toNat - kReplayBurstSize) ≤
    env.elapsed (env.rdtsc start.tsc) p.world.readings
  all : ∀ w, p = .head w → env.cyclesOf config.packetsPerSecond w.state.packetsInjected.toNat ≤
    env.elapsed (env.rdtsc start.tsc) w.readings

/-- In front of an iteration it is enough that all packets keep the rate. -/
theorem RateInv.head {start : Readings} {w : ReplayWorld} (hstarted : start.tsc < w.readings.tsc)
    (hall : env.cyclesOf config.packetsPerSecond w.state.packetsInjected.toNat ≤
      env.elapsed (env.rdtsc start.tsc) w.readings) : RateInv env config start (.head w) where
  started := hstarted
  rest := (ReplayEnv.cyclesOf_mono (Nat.sub_le _ _)).trans hall
  all := by
    rintro w' ⟨⟩
    exact hall

theorem ReplayStep.rateInv (hclock : env.ClockMonotone) (hquit : ∀ k, env.forceQuit k = false)
    (hrate : 0 < config.packetsPerSecond) {start : Readings} {p p' : ReplayPoint}
    (h : ReplayStep env config (env.rdtsc start.tsc) p p')
    (hkeeps : KeepsRate env config (env.rdtsc start.tsc) p) (hinv : RateInv env config start p) :
    RateInv env config start p' := by
  cases h with
  | @again w w' hturn =>
      obtain ⟨hinjected, htsc⟩ := replayTurn_again_frame hturn
      refine .head (hinv.started.trans_eq htsc.symm) ?_
      rw [hinjected]
      exact (hinv.all w rfl).trans (ReplayEnv.elapsed_mono hclock _ htsc.ge)
  | @burst w w' hturn =>
      obtain ⟨k, hk, hinjected, htsc⟩ := replayTurn_burst_frame hturn
      refine ⟨hinv.started.trans htsc, ?_, nofun⟩
      have hbefore : w'.state.packetsInjected.toNat - kReplayBurstSize ≤
          w.state.packetsInjected.toNat := by
        rw [hinjected, BitVec.toNat_add, BitVec.toNat_ofNat]
        have hsum := Nat.mod_le (w.state.packetsInjected.toNat + k % 2 ^ 64) (2 ^ 64)
        have hmod := Nat.mod_le k (2 ^ 64)
        omega
      exact ((ReplayEnv.cyclesOf_mono hbefore).trans (hinv.all w rfl)).trans
        (ReplayEnv.elapsed_mono hclock _ (Nat.le_of_lt htsc))
  | @limited w readings _ hreturns =>
      obtain ⟨hfits, hcond⟩ := hkeeps w rfl
      have hstarted : start.tsc < w.readings.tsc := hinv.started
      refine .head (hstarted.trans (applyRateLimit_spec hquit hreturns).1) ?_
      exact rateKept_of_returns hquit hfits
        (fun i hi ↦ hclock _ _ ((Nat.le_of_lt hstarted).trans hi)) hcond hreturns
  | unlimited hnone => exact absurd hrate hnone

/-- In every state that a replay reaches while its calls keep the rate, all packets but a burst
have taken their time. -/
theorem rateInv_of_reach (hclock : env.ClockMonotone) (hquit : ∀ k, env.forceQuit k = false)
    (hrate : 0 < config.packetsPerSecond) {reader : PcapReader} {start : Readings}
    {p : ReplayPoint} (h : ((replaySystem env config ⟨reader, {}, start⟩).restrict
      fun p _ ↦ KeepsRate env config (env.rdtsc start.tsc) p).Reach p) :
    RateInv env config start p := by
  refine h.invariant ?_ ?_
  · rintro p rfl
    refine .head (Nat.lt_succ_self _) ?_
    show 0 * env.tscHz.toNat / config.packetsPerSecond.toNat ≤ _
    rw [Nat.zero_mul, Nat.zero_div]
    exact Nat.zero_le _
  · rintro p a p' hinv ⟨hkeeps, hstep⟩
    exact hstep.rateInv hclock hquit hrate hkeeps hinv

end Run

/-- **Which replays keep their rate.**  A call of `ApplyRateLimit` does so for every clock that does
not go back exactly when the counter was zero at the start or there is nothing to wait for; and in
every state of a replay whose calls are such, all injected packets but one burst have taken their
time, and all of them in front of every iteration. -/
theorem replay_rate (reader : PcapReader) (config : PcapReplayConfig)
    (hrate : 0 < config.packetsPerSecond) :
    (∀ tscHz packetsInjected tscStart : BitVec 64,
      packetsInjected.toNat * tscHz.toNat < 2 ^ 64 →
        ((∀ env : ReplayEnv, env.tscHz = tscHz → env.ClockMonotone →
          (∀ i, tscStart.toNat ≤ (env.rdtsc i).toNat) → (∀ k, env.forceQuit k = false) →
          ∀ r r', (applyRateLimit env packetsInjected tscStart config.packetsPerSecond r).Returns
              r' → RateKept env packetsInjected tscStart config.packetsPerSecond r') ↔
        tscStart = 0 ∨
          packetsInjected.toNat * tscHz.toNat / config.packetsPerSecond.toNat = 0)) ∧
    ∀ (env : ReplayEnv) (start : Readings), env.ClockMonotone →
      (∀ k, env.forceQuit k = false) → ∀ p,
        ((replaySystem env config ⟨reader, {}, start⟩).restrict fun p _ ↦
          KeepsRate env config (env.rdtsc start.tsc) p).Reach p →
        RateInv env config start p := by
  constructor
  · intro tscHz packetsInjected tscStart hfits
    exact applyRateLimit_keeps_iff hfits
  · intro env start hclock hquit p hreach
    exact rateInv_of_reach hclock hquit hrate hreach

/-! ## Clocks that start early and late -/

theorem steadyReplay_clockMonotone (n start : Nat) : (steadyReplay n start).ClockMonotone := by
  intro i j hij
  rw [toNat_steadyReplay_rdtsc, toNat_steadyReplay_rdtsc]
  exact min_le_min (Nat.add_le_add_left hij start) le_rfl

/-- Replays of such a file at 500 packets a second, while their calls keep the rate. -/
def steadySystem (n start : Nat) : System ReplayPoint Unit :=
  (replaySystem (steadyReplay n start) { packetsPerSecond := 500 }
    ⟨steadyReader, {}, {}⟩).restrict fun p _ ↦ KeepsRate (steadyReplay n start)
      { packetsPerSecond := 500 } ((steadyReplay n start).rdtsc 0) p

/-- With a clock that starts at zero, three packets wait for their six cycles. -/
theorem replay_rate_from_zero :
    (∃ r', (applyRateLimit (steadyReplay 3 0) 3 0 500 { tsc := 5 }).Returns r' ∧
      RateKept (steadyReplay 3 0) 3 0 500 r') ∧
    ∃ p, (steadySystem 3 0).Reach p ∧ p.world.state.packetsInjected = 3 ∧
      RateInv (steadyReplay 3 0) { packetsPerSecond := 500 } {} p := by
  obtain ⟨hcall, hrun⟩ := replay_rate steadyReader { packetsPerSecond := 500 } (by decide)
  constructor
  · have hreturns : (applyRateLimit (steadyReplay 3 0) 3 0 500 { tsc := 5 }).Returns ⟨7, 0⟩ :=
      ⟨2, rfl⟩
    exact ⟨_, hreturns, (hcall 1000 3 0 (by decide)).mpr (.inl rfl) (steadyReplay 3 0) rfl
      (steadyReplay_clockMonotone 3 0) (fun _ ↦ Nat.zero_le _) (fun _ ↦ rfl) _ _ hreturns⟩
  · have hburst : (steadySystem 3 0).Reach _ := .step (a := ()) (.init rfl) ⟨nofun, .burst rfl⟩
    have hhead : (steadySystem 3 0).Reach _ := .step (a := ()) hburst
      ⟨fun w hw ↦ by cases hw; exact ⟨by decide, .inl rfl⟩, .limited (by decide) ⟨2, rfl⟩⟩
    exact ⟨_, hhead, rfl, hrun (steadyReplay 3 0) {} (steadyReplay_clockMonotone 3 0)
      (fun _ ↦ rfl) _ hhead⟩

/-- With a clock that starts late, a call returns a cycle after the start instead of 64000, and a
replay at a packet a second has injected 128 packets when 134 of the 64000 cycles have passed that
64 of them should take. -/
theorem late_clock_ignored :
    (steadyReplay 128 1000000).ClockMonotone ∧
    (∃ r', (applyRateLimit (steadyReplay 128 1000000) 64 1000000 1 {}).Returns r' ∧
      ¬ RateKept (steadyReplay 128 1000000) 64 1000000 1 r') ∧
    ∃ w, (runReplayLoop (steadyReplay 128 1000000) { packetsPerSecond := 1 }
        ⟨steadyReader, {}, {}⟩).Returns (.ok (), w) ∧ w.state.packetsInjected.toNat = 128 ∧
      (steadyReplay 128 1000000).elapsed 1000000 w.readings <
        (steadyReplay 128 1000000).cyclesOf 1 (128 - kReplayBurstSize) := by
  refine ⟨steadyReplay_clockMonotone 128 1000000, ?_, ?_⟩
  · exact ⟨⟨2, 0⟩, ⟨1, rfl⟩, by unfold RateKept; decide +kernel⟩
  · have hrun : (runReplayLoop (steadyReplay 128 1000000) { packetsPerSecond := 1 }
        ⟨steadyReader, {}, {}⟩ 4).map (fun r ↦ (r.1.isOk, r.2.state.packetsInjected.toNat,
          (steadyReplay 128 1000000).elapsed 1000000 r.2.readings)) = some (true, 128, 134) := by
      decide +kernel
    obtain ⟨⟨result, w⟩, hrun, hvalues⟩ := Option.map_eq_some_iff.mp hrun
    obtain ⟨hok, hinjected, helapsed⟩ := Prod.mk.inj hvalues |>.imp_right Prod.mk.inj
    cases result with
    | error message => cases hok
    | ok =>
        refine ⟨w, ⟨4, hrun⟩, hinjected, ?_⟩
        rw [helapsed]
        decide

end DpdkSpi
