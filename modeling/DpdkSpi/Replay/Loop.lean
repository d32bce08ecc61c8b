import DpdkSpi.Lib.Iterate
import DpdkSpi.Lib.System
import DpdkSpi.Replay.Reader

/-!
# The replay loop

`ProcessBurst`, `ApplyRateLimit` and `RunReplayLoop`, after `pcap_replay.cpp`.  The readings of the
time stamp counter and of `force_quit` are parameters, numbered in the order in which the loop takes
them.  Two loops of the source may not end, the replay itself and the wait of the rate limit.
-/

namespace DpdkSpi

open Lib

/-! ## Configuration and state -/

/-- The fields of `PcapReplayConfig` that the loop reads. -/
structure PcapReplayConfig where
  loopCount : BitVec 32 := 1
  packetsPerSecond : BitVec 64 := 0
  maxPackets : BitVec 64 := 0
deriving DecidableEq, Repr

/-- `PcapReplayState`. -/
structure PcapReplayState where
  packetsRead : BitVec 64 := 0
  packetsInjected : BitVec 64 := 0
  bytesRead : BitVec 64 := 0
  totalLatency : BitVec 64 := 0
  latencyCount : BitVec 64 := 0
  minLatency : BitVec 64 := .allOnes 64
  maxLatency : BitVec 64 := 0
  loopsCompleted : BitVec 32 := 0
deriving DecidableEq, Repr

/-- What the loop reads from outside: the file, the clock and `force_quit`. -/
structure ReplayEnv extends PcapEnv where
  /-- `rte_get_tsc_hz`. -/
  tscHz : BitVec 64
  /-- `rte_rdtsc`. -/
  rdtsc : Nat → BitVec 64
  /-- `force_quit` is set. -/
  forceQuit : Nat → Bool

/-- How often the clock and `force_quit` have been read. -/
structure Readings where
  tsc : Nat := 0
  quit : Nat := 0
deriving DecidableEq, Repr

/-- What the loop changes. -/
structure ReplayWorld where
  reader : PcapReader
  state : PcapReplayState := {}
  readings : Readings := {}
deriving DecidableEq, Repr

/-- `kBurstSize` of `RunReplayLoop`. -/
def kReplayBurstSize : Nat := 64

/-! ## The parts of an iteration -/

/-- One packet of `ProcessBurst`, with the readings of the clock so far. -/
def processPacket (env : ReplayEnv) (rxTsc : BitVec 64) (processed : PcapReplayState × Nat)
    (mbuf : PcapMbuf) : PcapReplayState × Nat :=
  let state := processed.1
  let latency := env.rdtsc processed.2 - rxTsc
  ({ state with
      bytesRead := state.bytesRead + mbuf.pktLen.setWidth 64
      packetsInjected := state.packetsInjected + 1
      totalLatency := state.totalLatency + latency
      latencyCount := state.latencyCount + 1
      minLatency := if state.minLatency < latency then state.minLatency else latency
      maxLatency := if state.maxLatency < latency then latency else state.maxLatency },
    processed.2 + 1)

/-- `ProcessBurst`.  `ReadBurst` returns no null pointers. -/
def processBurst (env : ReplayEnv) (rxTsc : BitVec 64) (burst : List PcapMbuf)
    (processed : PcapReplayState × Nat) : PcapReplayState × Nat :=
  burst.foldl (processPacket env rxTsc) processed

/-- The wait of `ApplyRateLimit`, one reading of the clock. -/
def spinOnce (env : ReplayEnv) (expectedTsc : BitVec 64) (r : Readings) : Readings ⊕ Readings :=
  if env.rdtsc r.tsc < expectedTsc then
    if env.forceQuit r.quit then .inl ⟨r.tsc + 1, r.quit + 1⟩
    else .inr ⟨r.tsc + 1, r.quit + 1⟩
  else .inl ⟨r.tsc + 1, r.quit⟩

/-- `ApplyRateLimit`. -/
def applyRateLimit (env : ReplayEnv) (packetsInjected tscStart ratePps : BitVec 64)
    (r : Readings) : Fuelled Readings :=
  let now := env.rdtsc r.tsc
  let elapsed := now - tscStart
  let expectedTsc := packetsInjected * env.tscHz / ratePps
  if elapsed < expectedTsc then
    iterate (fun r _ ↦ some (spinOnce env expectedTsc r)) { r with tsc := r.tsc + 1 }
  else fun _ ↦ some { r with tsc := r.tsc + 1 }

/-- `max_loops`. -/
def PcapReplayConfig.maxLoops (config : PcapReplayConfig) : BitVec 32 :=
  if config.loopCount = 0 then .allOnes 32 else config.loopCount

/-- `max_packets`. -/
def PcapReplayConfig.maxPacketsOrAll (config : PcapReplayConfig) : BitVec 64 :=
  if config.maxPackets = 0 then .allOnes 64 else config.maxPackets

/-- How an iteration goes up to the rate limit. -/
inductive ReplayTurn where
  /-- The loop ends with a result. -/
  | stop (result : Except String Unit) (w : ReplayWorld)
  /-- The file starts again. -/
  | again (w : ReplayWorld)
  /-- A burst was processed. -/
  | burst (w : ReplayWorld)

/-- An iteration of `RunReplayLoop` up to the rate limit. -/
def replayTurn (env : ReplayEnv) (config : PcapReplayConfig) (w : ReplayWorld) : ReplayTurn :=
  let quitting := env.forceQuit w.readings.quit
  let w := { w with readings := { w.readings with quit := w.readings.quit + 1 } }
  if quitting = false ∧ w.state.loopsCompleted < config.maxLoops ∧
      w.state.packetsInjected < config.maxPacketsOrAll then
    match readBurst env.toPcapEnv kReplayBurstSize w.reader with
    | (.error message, reader) => .stop (.error message) { w with reader }
    | (.ok [], reader) =>
        let state := { w.state with loopsCompleted := w.state.loopsCompleted + 1 }
        if config.maxLoops ≤ state.loopsCompleted then .stop (.ok ()) { w with reader, state }
        else
          match reader.reset env.toPcapEnv with
          | (.error _, reader) => .stop (.ok ()) { w with reader, state }
          | (.ok (), reader) => .again { w with reader, state }
    | (.ok (mbuf :: burst), reader) =>
        let state := { w.state with
          packetsRead := w.state.packetsRead + BitVec.ofNat 64 (mbuf :: burst).length }
        let rxTsc := env.rdtsc w.readings.tsc
        let processed := processBurst env rxTsc (mbuf :: burst) (state, w.readings.tsc + 1)
        .burst ⟨reader, processed.1, { w.readings with tsc := processed.2 }⟩
  else .stop (.ok ()) w

/-- An iteration of `RunReplayLoop`. -/
def replayIteration (env : ReplayEnv) (config : PcapReplayConfig) (tscStart : BitVec 64)
    (w : ReplayWorld) : Fuelled ((Except String Unit × ReplayWorld) ⊕ ReplayWorld) := fun fuel ↦
  match replayTurn env config w with
  | .stop result w => some (.inl (result, w))
  | .again w => some (.inr w)
  | .burst w =>
      if 0 < config.packetsPerSecond then
        (applyRateLimit env w.state.packetsInjected tscStart config.packetsPerSecond w.readings
          fuel).map fun readings ↦ .inr { w with readings }
      else some (.inr w)

/-- `RunReplayLoop`. -/
def runReplayLoop (env : ReplayEnv) (config : PcapReplayConfig) (w : ReplayWorld) :
    Fuelled (Except String Unit × ReplayWorld) :=
  let tscStart := env.rdtsc w.readings.tsc
  iterate (replayIteration env config tscStart)
    { w with readings := { w.readings with tsc := w.readings.tsc + 1 } }

/-! ## Results are final -/

section Monotone

variable (env : ReplayEnv) (config : PcapReplayConfig)

theorem applyRateLimit_monotone (packetsInjected tscStart ratePps : BitVec 64) (r : Readings) :
    (applyRateLimit env packetsInjected tscStart ratePps r).Monotone := by
  unfold applyRateLimit
  dsimp only
  split
  · exact iterate_monotone (fun r ↦ Fuelled.monotone_const _) _
  · exact Fuelled.monotone_const _

theorem replayIteration_monotone (tscStart : BitVec 64) (w : ReplayWorld) :
    (replayIteration env config tscStart w).Monotone := by
  intro fuel next h
  unfold replayIteration at h ⊢
  cases hturn : replayTurn env config w with
  | stop result w =>
      rw [hturn] at h
      exact h
  | again w =>
      rw [hturn] at h
      exact h
  | burst w =>
      rw [hturn] at h
      dsimp only at h ⊢
      split at h
      · rename_i hrate
        obtain ⟨readings, hreadings, rfl⟩ := Option.map_eq_some_iff.mp h
        rw [if_pos hrate, applyRateLimit_monotone env _ _ _ _ fuel readings hreadings]
        rfl
      · rename_i hrate
        rw [if_neg hrate]
        exact h

theorem runReplayLoop_monotone (w : ReplayWorld) : (runReplayLoop env config w).Monotone :=
  iterate_monotone (replayIteration_monotone env config _) _

end Monotone

/-! ## The wait ends -/

/-- The clock reaches every value that the rate limit waits for. -/
def ReplayEnv.ClockReaches (env : ReplayEnv) (ratePps : BitVec 64) : Prop :=
  ∀ (packetsInjected : BitVec 64) (i : Nat),
    ∃ j, i ≤ j ∧ packetsInjected * env.tscHz / ratePps ≤ env.rdtsc j

theorem spin_returns {env : ReplayEnv} {expectedTsc : BitVec 64}
    (hreaches : ∀ i, ∃ j, i ≤ j ∧ expectedTsc ≤ env.rdtsc j) (r : Readings) :
    ∃ r', (iterate (fun r _ ↦ some (spinOnce env expectedTsc r)) r).Returns r' := by
  obtain ⟨last, hle, hlast⟩ := hreaches r.tsc
  -- no reading behind `last` is needed
  have hstep (r : Readings) (hr : r.tsc ≤ last) :
      (∃ r', Fuelled.Returns (fun _ ↦ some (spinOnce env expectedTsc r)) (.inl r') ∧ True) ∨
      ∃ r', Fuelled.Returns (fun _ ↦ some (spinOnce env expectedTsc r)) (.inr r') ∧
        r'.tsc ≤ last ∧ last - r'.tsc < last - r.tsc := by
    unfold spinOnce
    by_cases hearly : env.rdtsc r.tsc < expectedTsc
    · have hne : r.tsc ≠ last := by
        rintro rfl
        exact BitVec.not_le.mpr hearly hlast
      rw [if_pos hearly]
      cases env.forceQuit r.quit with
      | true => exact .inl ⟨_, Fuelled.returns_const _, trivial⟩
      | false =>
          refine .inr ⟨_, Fuelled.returns_const _, Nat.lt_of_le_of_ne hr hne, ?_⟩
          show last - (r.tsc + 1) < last - r.tsc
          omega
    · rw [if_neg hearly]
      exact .inl ⟨_, Fuelled.returns_const _, trivial⟩
  obtain ⟨r', hreturns, -⟩ := iterate_returns (fun r ↦ last - r.tsc)
    (fun r ↦ Fuelled.monotone_const (some (spinOnce env expectedTsc r))) hstep hle
  exact ⟨r', hreturns⟩

theorem applyRateLimit_returns {env : ReplayEnv} {ratePps : BitVec 64}
    (hreaches : env.ClockReaches ratePps) (packetsInjected tscStart : BitVec 64) (r : Readings) :
    ∃ r', (applyRateLimit env packetsInjected tscStart ratePps r).Returns r' := by
  unfold applyRateLimit
  dsimp only
  split
  · exact spin_returns (hreaches packetsInjected) _
  · exact ⟨_, Fuelled.returns_const _⟩

/-! ## What a burst adds -/

theorem processBurst_spec (env : ReplayEnv) (rxTsc : BitVec 64) (burst : List PcapMbuf)
    (state : PcapReplayState) (tsc : Nat) :
    let processed := processBurst env rxTsc burst (state, tsc)
    processed.1.packetsInjected = state.packetsInjected + BitVec.ofNat 64 burst.length ∧
      processed.1.loopsCompleted = state.loopsCompleted ∧ processed.2 = tsc + burst.length := by
  induction burst generalizing state tsc with
  | nil => exact ⟨(BitVec.add_zero _).symm, rfl, rfl⟩
  | cons mbuf burst ih =>
      obtain ⟨hinjected, hloops, htsc⟩ :=
        ih (processPacket env rxTsc (state, tsc) mbuf).1 (tsc + 1)
      refine ⟨hinjected.trans ?_, hloops, htsc.trans ?_⟩
      · show state.packetsInjected + 1 + _ = _
        rw [List.length_cons, BitVec.add_assoc, BitVec.ofNat_add, BitVec.add_comm 1]
        rfl
      · rw [List.length_cons, Nat.add_assoc, Nat.add_comm 1]

/-! ## One turn -/

section Turn

variable {env : ReplayEnv} {config : PcapReplayConfig} {w : ReplayWorld}

/-- At a limit the loop ends. -/
theorem replayTurn_limit (h : ¬ (w.state.loopsCompleted < config.maxLoops ∧
    w.state.packetsInjected < config.maxPacketsOrAll)) :
    ∃ w', replayTurn env config w = .stop (.ok ()) w' ∧ w'.state = w.state := by
  unfold replayTurn
  dsimp only
  rw [if_neg fun hgo ↦ h hgo.2]
  exact ⟨_, rfl, rfl⟩

variable (hworks : env.Works) (hquit : ∀ k, env.forceQuit k = false)
  (hloops : w.state.loopsCompleted < config.maxLoops)
  (hpackets : w.state.packetsInjected < config.maxPacketsOrAll)

include hworks hquit hloops hpackets

/-- Before the end of the file a burst is processed. -/
theorem replayTurn_burst {position : Nat} (hreader : w.reader.At env.toPcapEnv position)
    (hlt : position < env.packets.length) :
    ∃ w', replayTurn env config w = .burst w' ∧
      w'.reader.At env.toPcapEnv (min (position + kReplayBurstSize) env.packets.length) ∧
      w'.state.packetsInjected = w.state.packetsInjected +
        BitVec.ofNat 64 (min kReplayBurstSize (env.packets.length - position)) ∧
      w'.state.loopsCompleted = w.state.loopsCompleted := by
  obtain ⟨reader, hread, hnext⟩ := readBurst_spec hworks kReplayBurstSize hreader
  have hlength : (((env.packets.drop position).take kReplayBurstSize).map
      PcapPktHdr.toMbuf).length = min kReplayBurstSize (env.packets.length - position) := by
    rw [List.length_map, List.length_take, List.length_drop]
  have hsize : 0 < kReplayBurstSize := by decide
  unfold replayTurn
  dsimp only
  rw [if_pos ⟨hquit _, hloops, hpackets⟩, hread]
  rw [← hlength]
  cases hburst : ((env.packets.drop position).take kReplayBurstSize).map PcapPktHdr.toMbuf with
  | nil =>
      rw [hburst, List.length_nil] at hlength
      omega
  | cons mbuf burst =>
      obtain ⟨hinjected, hcompleted, -⟩ := processBurst_spec env (env.rdtsc w.readings.tsc)
        (mbuf :: burst) { w.state with
          packetsRead := w.state.packetsRead + BitVec.ofNat 64 (mbuf :: burst).length }
        (w.readings.tsc + 1)
      exact ⟨_, rfl, hnext, hinjected, hcompleted⟩

/-- At its end the loop ends or the file starts again. -/
theorem replayTurn_end (hreader : w.reader.At env.toPcapEnv env.packets.length) :
    (config.maxLoops ≤ w.state.loopsCompleted + 1 ∧
      ∃ w', replayTurn env config w = .stop (.ok ()) w' ∧
        w'.state.packetsInjected = w.state.packetsInjected) ∨
    (w.state.loopsCompleted + 1 < config.maxLoops ∧
      ∃ w', replayTurn env config w = .again w' ∧ w'.reader.At env.toPcapEnv 0 ∧
        w'.state.packetsInjected = w.state.packetsInjected ∧
        w'.state.loopsCompleted = w.state.loopsCompleted + 1) := by
  obtain ⟨reader, hread, hend⟩ := readBurst_spec hworks kReplayBurstSize hreader
  rw [List.drop_length, List.take_nil, List.map_nil, Nat.min_eq_right (Nat.le_add_right _ _)]
    at *
  obtain ⟨reader', hreset, hstart⟩ := reset_spec hworks hend
  unfold replayTurn
  dsimp only
  rw [if_pos ⟨hquit _, hloops, hpackets⟩, hread]
  dsimp only
  by_cases hlast : config.maxLoops ≤ w.state.loopsCompleted + 1
  · rw [if_pos hlast]
    exact .inl ⟨hlast, _, rfl, rfl⟩
  · rw [if_neg hlast, hreset]
    exact .inr ⟨BitVec.not_le.mp hlast, _, rfl, hstart, rfl, rfl⟩

end Turn

/-! ## What a turn changes -/

theorem length_le_of_readBurst {env : PcapEnv} {burstSize : Nat} {reader reader' : PcapReader}
    {burst : List PcapMbuf} (h : readBurst env burstSize reader = (.ok burst, reader')) :
    burst.length ≤ burstSize := by
  induction burstSize generalizing reader reader' burst with
  | zero =>
      obtain ⟨hburst, -⟩ := Prod.mk.inj h
      obtain rfl := Except.ok.inj hburst
      exact le_rfl
  | succ burstSize ih =>
      unfold readBurst at h
      split at h
      · cases h
      · obtain ⟨hburst, -⟩ := Prod.mk.inj h
        obtain rfl := Except.ok.inj hburst
        exact Nat.zero_le _
      · split at h
        · cases h
        · rename_i rest _ hrest
          obtain ⟨hburst, -⟩ := Prod.mk.inj h
          obtain rfl := Except.ok.inj hburst
          exact Nat.succ_le_succ (ih hrest)

section Frame

variable {env : ReplayEnv} {config : PcapReplayConfig} {w w' : ReplayWorld}

/-- Starting the file again injects nothing and reads no clock. -/
theorem replayTurn_again_frame (h : replayTurn env config w = .again w') :
    w'.state.packetsInjected = w.state.packetsInjected ∧ w'.readings.tsc = w.readings.tsc := by
  unfold replayTurn at h
  dsimp only at h
  split at h
  · split at h
    · cases h
    · split at h
      · cases h
      · split at h
        · cases h
        · obtain rfl := ReplayTurn.again.inj h
          exact ⟨rfl, rfl⟩
    · cases h
  · cases h

/-- A burst injects as many packets as it has. -/
theorem replayTurn_burst_frame (h : replayTurn env config w = .burst w') :
    ∃ k ≤ kReplayBurstSize,
      w'.state.packetsInjected = w.state.packetsInjected + BitVec.ofNat 64 k ∧
        w.readings.tsc < w'.readings.tsc := by
  unfold replayTurn at h
  dsimp only at h
  split at h
  · split at h
    · cases h
    · split at h
      · cases h
      · split at h
        · cases h
        · cases h
    · rename_i mbuf burst reader hread
      obtain rfl := ReplayTurn.burst.inj h
      obtain ⟨hinjected, -, htsc⟩ := processBurst_spec env (env.rdtsc w.readings.tsc)
        (mbuf :: burst) { w.state with
          packetsRead := w.state.packetsRead + BitVec.ofNat 64 (mbuf :: burst).length }
        (w.readings.tsc + 1)
      refine ⟨(mbuf :: burst).length, length_le_of_readBurst hread, hinjected, ?_⟩
      rw [htsc]
      exact Nat.lt_of_succ_le (Nat.le_add_right _ _)
  · cases h

end Frame

/-! ## Runs -/

/-- Where the loop is between its parts: in front of an iteration, or in front of the rate limit
behind a burst. -/
inductive ReplayPoint where
  | head (w : ReplayWorld)
  | limit (w : ReplayWorld)

/-- What the loop has changed so far. -/
def ReplayPoint.world : ReplayPoint → ReplayWorld
  | head w | limit w => w

/-- The steps of the loop. -/
inductive ReplayStep (env : ReplayEnv) (config : PcapReplayConfig) (tscStart : BitVec 64) :
    ReplayPoint → ReplayPoint → Prop
  | again {w w' : ReplayWorld} (turn : replayTurn env config w = .again w') :
      ReplayStep env config tscStart (.head w) (.head w')
  | burst {w w' : ReplayWorld} (turn : replayTurn env config w = .burst w') :
      ReplayStep env config tscStart (.head w) (.limit w')
  | limited {w : ReplayWorld} {readings : Readings} (rate : 0 < config.packetsPerSecond)
      (returns : (applyRateLimit env w.state.packetsInjected tscStart config.packetsPerSecond
        w.readings).Returns readings) :
      ReplayStep env config tscStart (.limit w) (.head { w with readings })
  | unlimited {w : ReplayWorld} (rate : ¬ 0 < config.packetsPerSecond) :
      ReplayStep env config tscStart (.limit w) (.head w)

/-- `RunReplayLoop`, as a system. -/
def replaySystem (env : ReplayEnv) (config : PcapReplayConfig) (w : ReplayWorld) :
    System ReplayPoint Unit where
  init p := p = .head { w with readings := { w.readings with tsc := w.readings.tsc + 1 } }
  step p _ p' := ReplayStep env config (env.rdtsc w.readings.tsc) p p'

/-- The result of `RunReplayLoop` is that of a turn in a state that is reached. -/
theorem reach_of_runReplayLoop {env : ReplayEnv} {config : PcapReplayConfig} {w : ReplayWorld}
    {r : Except String Unit × ReplayWorld} (h : (runReplayLoop env config w).Returns r) :
    ∃ w', (replaySystem env config w).Reach (.head w') ∧
      replayTurn env config w' = .stop r.1 r.2 := by
  refine iterate_invariant (I := fun w' ↦ (replaySystem env config w).Reach (.head w'))
    (Q := fun r ↦ ∃ w', (replaySystem env config w).Reach (.head w') ∧
      replayTurn env config w' = .stop r.1 r.2) ?_ ?_ (.init rfl) h
  · rintro w₁ w₂ hreach ⟨fuel, hnext⟩
    unfold replayIteration at hnext
    cases hturn : replayTurn env config w₁ with
    | stop result w' =>
        rw [hturn] at hnext
        cases hnext
    | again w' =>
        rw [hturn] at hnext
        obtain rfl := Sum.inr.inj (Option.some.inj hnext)
        exact hreach.step (a := ()) (.again hturn)
    | burst w' =>
        rw [hturn] at hnext
        have hlimit := hreach.step (a := ()) (.burst hturn)
        dsimp only at hnext
        split at hnext
        · rename_i hrate
          obtain ⟨readings, hreadings, hnext⟩ := Option.map_eq_some_iff.mp hnext
          obtain rfl := Sum.inr.inj hnext
          exact hlimit.step (a := ()) (.limited hrate ⟨fuel, hreadings⟩)
        · rename_i hrate
          obtain rfl := Sum.inr.inj (Option.some.inj hnext)
          exact hlimit.step (a := ()) (.unlimited hrate)
  · rintro w₁ result hreach ⟨fuel, hend⟩
    refine ⟨w₁, hreach, ?_⟩
    unfold replayIteration at hend
    cases hturn : replayTurn env config w₁ with
    | stop result w' =>
        rw [hturn] at hend
        obtain rfl := Sum.inl.inj (Option.some.inj hend)
        rfl
    | again w' =>
        rw [hturn] at hend
        cases hend
    | burst w' =>
        rw [hturn] at hend
        dsimp only at hend
        split at hend
        · obtain ⟨readings, -, hend⟩ := Option.map_eq_some_iff.mp hend
          cases hend
        · cases hend

/-! ## A steady replay -/

/-- A file of packets of 60 bytes, with a clock that ticks at every reading and stays at its largest
value. -/
def steadyReplay (n start : Nat) : ReplayEnv where
  packets := List.replicate n ⟨60, 60⟩
  nextEx _ := .next
  openError _ := none
  allocFails _ := false
  tailroom := 2048
  tscHz := 1000
  rdtsc i := BitVec.ofNat 64 (min (start + i) (2 ^ 64 - 1))
  forceQuit _ := false

/-- The reader of such a file, as it is opened. -/
def steadyReader : PcapReader := { pcapHandle := some 0, filename := "steady.pcap" }

section Steady

variable (n start : Nat)

theorem steadyReader_at : steadyReader.At (steadyReplay n start).toPcapEnv 0 :=
  ⟨rfl, Nat.zero_le _, nofun, by decide⟩

theorem steadyReplay_works : (steadyReplay n start).Works where
  next _ := rfl
  opens _ := rfl
  alloc _ := rfl
  fits hdr hhdr := by
    obtain rfl := List.eq_of_mem_replicate hhdr
    exact show (60 : BitVec 32).toNat ≤ 2048 by decide

theorem toNat_steadyReplay_rdtsc (i : Nat) :
    ((steadyReplay n start).rdtsc i).toNat = min (start + i) (2 ^ 64 - 1) := by
  show (BitVec.ofNat 64 _).toNat = _
  rw [BitVec.toNat_ofNat]
  exact Nat.mod_eq_of_lt ((Nat.min_le_right _ _).trans_lt (by decide))

theorem steadyReplay_clockReaches (ratePps : BitVec 64) :
    (steadyReplay n start).ClockReaches ratePps := by
  intro packetsInjected i
  refine ⟨i + (2 ^ 64 - 1), Nat.le_add_right _ _, ?_⟩
  rw [BitVec.le_def, toNat_steadyReplay_rdtsc, Nat.min_eq_right (by omega)]
  exact Nat.le_sub_one_of_lt (BitVec.isLt _)

end Steady

end DpdkSpi
