import Mathlib.Algebra.BigOperators.Fin
import Mathlib.Algebra.Order.BigOperators.Group.Finset
import Mathlib.Algebra.Order.Group.Nat
import DpdkSpi.Config
import DpdkSpi.Lib.System

/-!
# The reload barrier

The hand-off between the main lcore in `MaybeReload` and the workers in `WorkerLoop` and
`DispatchWorkerLoop`, after `spi_pipeline.cpp`.  Every access to a shared atomic is a
step of its own, and every interleaving of the steps is a run.

The main lcore sets `reload_barrier_`, waits until `workers_paused_` has reached the
number of workers, swaps the tables and clears the barrier.  A worker that finds the
barrier set at the end of an iteration adds itself to the counter, spins until the
barrier is clear, and takes itself off again.

The counter does not tell an acknowledgement of this barrier from one of the last: a
worker that has left its spin loop counts as paused until it comes to its `fetch_sub`.
When no worker is at that point at the moment the barrier is set, everything goes well
(`barrier_quiesces`).  With a single worker the main lcore does not wait at all
(`swapsQuiesced_iff`).
-/

namespace DpdkSpi

open Lib

/-! ## Program counters -/

/-- Where a worker is: the atomic access it makes next, or the body of an iteration. -/
inductive WorkerPc where
  /-- The loop condition, a load of `force_quit`. -/
  | loopHead
  /-- `ProcessWorkerIteration` or `ProcessDispatchedWorkerIteration`. -/
  | body
  /-- The load of the barrier behind the iteration. -/
  | readBarrier
  /-- The load of `force_quit` behind that. -/
  | readQuit
  /-- The `fetch_add` on `workers_paused`. -/
  | ack
  /-- The load of the barrier in the spin loop. -/
  | spinBarrier
  /-- The load of `force_quit` in the spin loop. -/
  | spinQuit
  /-- The `fetch_sub` on `workers_paused`. -/
  | release
  /-- The worker has returned. -/
  | exited
deriving DecidableEq, Repr

/-- How the wait loop of the main lcore ended. -/
inductive WaitEnd where
  | passed
  | forceQuit
  | timedOut
deriving DecidableEq, Repr

/-- Where the main lcore is. -/
inductive MainPc where
  /-- Outside of a reload that will set the barrier. -/
  | idle
  /-- The store that sets the barrier. -/
  | arm
  /-- The load of `workers_paused_` in the wait loop. -/
  | wait
  /-- The load of `force_quit` in the wait loop. -/
  | waitQuit
  /-- The look at the clock in the wait loop. -/
  | waitTsc
  /-- The test of `force_quit` and `wait_timed_out` behind the loop. -/
  | check (how : WaitEnd)
  /-- The test whether there is an active table. -/
  | load
  /-- `rule_manager_.Swap`. -/
  | swapRules
  /-- `dpi_rule_manager_.Swap`. -/
  | swapDpi
  /-- `MaybeReloadFlowTable`. -/
  | swapFlow
  /-- The store that clears the barrier at the end of the reload. -/
  | clear
  /-- The store that clears the barrier when the reload is cancelled. -/
  | cancel (how : WaitEnd)
  /-- The loop of the main lcore has ended and the workers are told to quit. -/
  | stopped
deriving DecidableEq, Repr

/-- The worker is in its spin loop. -/
def WorkerPc.spinning : WorkerPc → Bool
  | .spinBarrier | .spinQuit => true
  | _ => false

/-- How much of `workers_paused_` is due to a worker. -/
def WorkerPc.weight : WorkerPc → Nat
  | .spinBarrier | .spinQuit | .release => 1
  | _ => 0

/-- The main lcore has passed the wait loop, neither by timeout nor by `force_quit`, and
has not cleared the barrier yet. -/
def MainPc.passed : MainPc → Bool
  | .check .passed | .load | .swapRules | .swapDpi | .swapFlow | .clear | .cancel .passed => true
  | _ => false

/-- The main lcore is about to replace a table. -/
def MainPc.swapping : MainPc → Bool
  | .swapRules | .swapDpi | .swapFlow => true
  | _ => false

/-- The main lcore has set the barrier and not cleared it. -/
def MainPc.holdsBarrier : MainPc → Bool
  | .idle | .arm | .stopped => false
  | _ => true

/-! ## Steps -/

/-- The shared atomics and the program counters, with `n` workers.  `armed` counts how
often the barrier was set; nothing reads it. -/
structure BarrierState (n : Nat) where
  main : MainPc := .idle
  workers : Fin n → WorkerPc := fun _ ↦ .loopHead
  barrier : Bool := false
  paused : Nat := 0
  forceQuit : Bool := false
  workerForceQuit : Bool := false
  armed : Nat := 0

/-- What can happen next. -/
inductive BarrierAction (n : Nat) where
  /-- The next step of a worker. -/
  | worker (i : Fin n)
  /-- A reload has compiled its tables and has seen no `force_quit`. -/
  | begin
  /-- The next step of the main lcore in a reload.  The choice is whether time is up, in
  `waitTsc`, and whether there is no active table, in `load`. -/
  | main (choice : Bool)
  /-- The signal handler sets `force_quit`. -/
  | signal
  /-- The loop of the main lcore ends; `StopWorkers`. -/
  | stop
deriving DecidableEq, Repr

/-- Where a worker goes, given the barrier and the `force_quit` of the workers. -/
def WorkerPc.next (barrier quit : Bool) : WorkerPc → WorkerPc
  | .loopHead => if quit then .exited else .body
  | .body => .readBarrier
  | .readBarrier => if barrier then .readQuit else .loopHead
  | .readQuit => if quit then .loopHead else .ack
  | .ack => .spinBarrier
  | .spinBarrier => if barrier then .spinQuit else .release
  | .spinQuit => if quit then .release else .spinBarrier
  | .release => .loopHead
  | .exited => .exited

/-- What the step of a worker does to `workers_paused_`. -/
def WorkerPc.count (paused : Nat) : WorkerPc → Nat
  | .ack => paused + 1
  | .release => paused - 1
  | _ => paused

/-- Where the main lcore goes from a point inside a reload. -/
def MainPc.next (workerCount paused : Nat) (forceQuit choice : Bool) : MainPc → Option MainPc
  | .idle | .stopped => none
  -- `if (worker_contexts_.size() > 1)` guards the wait loop
  | .arm => some (if 1 < workerCount then .wait else .check .passed)
  | .wait => some (if paused < workerCount then .waitQuit else .check .passed)
  | .waitQuit => some (if forceQuit then .check .forceQuit else .waitTsc)
  | .waitTsc => some (if choice then .check .timedOut else .wait)
  | .check how => some (if forceQuit ∨ how = .timedOut then .cancel how else .load)
  | .load => some (if choice then .clear else .swapRules)
  | .swapRules => some .swapDpi
  | .swapDpi => some .swapFlow
  | .swapFlow => some .clear
  | .clear | .cancel _ => some .idle

/-- What the step of the main lcore does to `reload_barrier_`. -/
def MainPc.store (barrier : Bool) : MainPc → Bool
  | .arm => true
  | .clear | .cancel _ => false
  | _ => barrier

/-- One step; `none` when it is not enabled. -/
def barrierStep {n : Nat} (s : BarrierState n) : BarrierAction n → Option (BarrierState n)
  | .worker i =>
      if s.workers i = .exited then none
      else some
        { s with
          workers := Function.update s.workers i
            ((s.workers i).next s.barrier s.workerForceQuit)
          paused := (s.workers i).count s.paused }
  | .begin => if s.main = .idle ∧ s.forceQuit = false then some { s with main := .arm } else none
  | .main choice =>
      (s.main.next n s.paused s.forceQuit choice).map fun main ↦
        { s with
          main
          barrier := s.main.store s.barrier
          armed := if s.main = .arm then s.armed + 1 else s.armed }
  | .signal => some { s with forceQuit := true }
  | .stop =>
      if s.main = .idle ∧ s.forceQuit = true then
        some { s with main := .stopped, workerForceQuit := true }
      else none

/-- The runs with `n` workers, all of them launched. -/
def barrierRuns (n : Nat) : System (BarrierState n) (BarrierAction n) :=
  System.ofPartial {} barrierStep

/-! ## Counting -/

section

variable {n : Nat}

/-- How many workers count as paused. -/
def acked (workers : Fin n → WorkerPc) : Nat := ∑ i, (workers i).weight

theorem WorkerPc.weight_le_one (pc : WorkerPc) : pc.weight ≤ 1 := by
  cases pc <;> decide

theorem acked_le (workers : Fin n → WorkerPc) : acked workers ≤ n := by
  have h := Finset.sum_le_card_nsmul Finset.univ (fun i ↦ (workers i).weight) 1
    fun i _ ↦ (workers i).weight_le_one
  simpa [acked] using h

/-- Moving one worker changes the count by the difference of its weights. -/
theorem acked_update (workers : Fin n → WorkerPc) (i : Fin n) (pc : WorkerPc) :
    acked (Function.update workers i pc) + (workers i).weight = acked workers + pc.weight := by
  have hrest : ∑ j ∈ Finset.univ.erase i, (Function.update workers i pc j).weight =
      ∑ j ∈ Finset.univ.erase i, (workers j).weight := by
    refine Finset.sum_congr rfl fun j hj ↦ ?_
    rw [Function.update_of_ne (Finset.ne_of_mem_erase hj)]
  rw [acked, acked, ← Finset.add_sum_erase _ _ (Finset.mem_univ i),
    ← Finset.add_sum_erase _ (fun j ↦ (workers j).weight) (Finset.mem_univ i), hrest,
    Function.update_self]
  omega

theorem weight_le_acked (workers : Fin n → WorkerPc) (i : Fin n) :
    (workers i).weight ≤ acked workers :=
  Finset.single_le_sum (f := fun i ↦ (workers i).weight) (fun _ _ ↦ Nat.zero_le _)
    (Finset.mem_univ i)

/-- When as many count as there are, everyone counts. -/
theorem weight_of_acked_ge {workers : Fin n → WorkerPc} (h : n ≤ acked workers) (i : Fin n) :
    (workers i).weight = 1 := by
  by_contra hne
  have hzero : (workers i).weight = 0 := by
    have := (workers i).weight_le_one
    omega
  have hupdate := acked_update workers i .spinBarrier
  have hle := acked_le (Function.update workers i .spinBarrier)
  have hone : WorkerPc.spinBarrier.weight = 1 := rfl
  omega

/-! ## What a step does -/

variable {s s' : BarrierState n} {a : BarrierAction n}

/-- **What a step can do.** -/
theorem barrierStep_cases (h : barrierStep s a = some s') :
    (∃ i, a = .worker i ∧ s.workers i ≠ .exited ∧ s' =
      { s with
        workers := Function.update s.workers i ((s.workers i).next s.barrier s.workerForceQuit)
        paused := (s.workers i).count s.paused }) ∨
    (a = .begin ∧ s.main = .idle ∧ s' = { s with main := .arm }) ∨
    (∃ choice main, a = .main choice ∧
      s.main.next n s.paused s.forceQuit choice = some main ∧ s' =
        { s with
          main
          barrier := s.main.store s.barrier
          armed := if s.main = .arm then s.armed + 1 else s.armed }) ∨
    (a = .signal ∧ s' = { s with forceQuit := true }) ∨
    (a = .stop ∧ s.main = .idle ∧ s' = { s with main := .stopped, workerForceQuit := true }) := by
  cases a with
  | worker i =>
      rw [barrierStep] at h
      split at h
      · cases h
      · rename_i hne
        exact .inl ⟨i, rfl, hne, (Option.some.inj h).symm⟩
  | begin =>
      rw [barrierStep] at h
      split at h
      · rename_i hidle
        exact .inr (.inl ⟨rfl, hidle.1, (Option.some.inj h).symm⟩)
      · cases h
  | main choice =>
      rw [barrierStep, Option.map_eq_some_iff] at h
      obtain ⟨main, hmain, rfl⟩ := h
      exact .inr (.inr (.inl ⟨choice, main, rfl, hmain, rfl⟩))
  | signal => exact .inr (.inr (.inr (.inl ⟨rfl, (Option.some.inj h).symm⟩)))
  | stop =>
      rw [barrierStep] at h
      split at h
      · rename_i hidle
        exact .inr (.inr (.inr (.inr ⟨rfl, hidle.1, (Option.some.inj h).symm⟩)))
      · cases h

/-! ## The invariant -/

/-- No worker is about to take itself off the counter when the barrier is set. -/
def NoStale (s : BarrierState n) : BarrierAction n → Prop
  | .main _ => s.main = .arm → ∀ i, s.workers i ≠ .release
  | _ => True

instance (s : BarrierState n) (a : BarrierAction n) : Decidable (NoStale s a) :=
  match a with
  | .main _ => inferInstanceAs (Decidable (s.main = .arm → ∀ i, s.workers i ≠ .release))
  | .worker _ | .begin | .signal | .stop => inferInstanceAs (Decidable True)

/-- What holds in every state of a run in which no acknowledgement is stale. -/
structure BarrierState.Inv (s : BarrierState n) : Prop where
  /-- The counter counts. -/
  paused : s.paused = acked s.workers
  /-- The workers are told to quit when the main lcore does no more reloads. -/
  quit : s.workerForceQuit = true → s.main = .stopped
  /-- The barrier is set between the two stores of a reload. -/
  barrier : s.barrier = s.main.holdsBarrier
  /-- A wait that ended because of `force_quit` leads to a cancelled reload. -/
  forceQuit : s.main = .check .forceQuit → s.forceQuit = true
  /-- Under the barrier nobody leaves the spin loop. -/
  released : s.barrier = true → ∀ i, s.workers i ≠ .release
  /-- Once the wait has been passed, everybody spins. -/
  quiesced : s.main.passed = true → ∀ i, (s.workers i).spinning = true

theorem MainPc.holdsBarrier_of_passed {pc : MainPc} (h : pc.passed = true) :
    pc.holdsBarrier = true := by
  cases pc with
  | check how => rfl
  | cancel how => rfl
  | load | swapRules | swapDpi | swapFlow | clear => rfl
  | _ => cases h

/-- The weight of a worker tells where its counter operations left it. -/
theorem WorkerPc.count_add_weight (pc : WorkerPc) (barrier quit : Bool) {paused : Nat}
    (h : pc.weight ≤ paused) :
    pc.count paused + pc.weight = paused + (pc.next barrier quit).weight := by
  cases pc with
  | release =>
      have hone : 1 ≤ paused := h
      simp only [WorkerPc.count, WorkerPc.weight, WorkerPc.next]
      omega
  | _ => cases barrier <;> cases quit <;> simp [WorkerPc.count, WorkerPc.weight, WorkerPc.next]

/-- A spinning worker keeps spinning under the barrier. -/
theorem WorkerPc.spinning_next {pc : WorkerPc} (h : pc.spinning = true) :
    (pc.next true false).spinning = true := by
  cases pc with
  | spinBarrier => rfl
  | spinQuit => rfl
  | _ => cases h

/-- Under the barrier no worker goes to its `fetch_sub`. -/
theorem WorkerPc.next_ne_release (pc : WorkerPc) : pc.next true false ≠ .release := by
  cases pc <;> decide

/-- The step of a worker. -/
theorem BarrierState.Inv.worker (h : s.Inv) (i : Fin n) : BarrierState.Inv
    { s with
      workers := Function.update s.workers i ((s.workers i).next s.barrier s.workerForceQuit)
      paused := (s.workers i).count s.paused } := by
  -- under the barrier the workers are not told to quit
  have hquit : s.barrier = true → s.workerForceQuit = false := by
    intro hbar
    by_contra hq
    have hstopped := h.quit (Bool.not_eq_false _ ▸ hq)
    rw [h.barrier, hstopped] at hbar
    cases hbar
  refine ⟨?_, h.quit, h.barrier, h.forceQuit, fun hbar j ↦ ?_, fun hpassed j ↦ ?_⟩
  · have hle := weight_le_acked s.workers i
    rw [← h.paused] at hle
    have hcount := (s.workers i).count_add_weight s.barrier s.workerForceQuit hle
    have hupdate := acked_update s.workers i ((s.workers i).next s.barrier s.workerForceQuit)
    have hpaused := h.paused
    dsimp only
    omega
  · dsimp only at hbar ⊢
    by_cases hj : j = i
    · rw [hj, Function.update_self, hbar, hquit hbar]
      exact WorkerPc.next_ne_release _
    · rw [Function.update_of_ne hj]
      exact h.released hbar j
  · dsimp only at hpassed ⊢
    have hbar : s.barrier = true := by
      rw [h.barrier]
      exact MainPc.holdsBarrier_of_passed hpassed
    by_cases hj : j = i
    · rw [hj, Function.update_self, hbar, hquit hbar]
      exact WorkerPc.spinning_next (h.quiesced hpassed i)
    · rw [Function.update_of_ne hj]
      exact h.quiesced hpassed j

/-- **The steps of the main lcore inside a reload**, with what they say about the
barrier and about passing the wait. -/
theorem MainPc.next_spec {pc pc' : MainPc} {workerCount paused : Nat} {forceQuit choice : Bool}
    (h : pc.next workerCount paused forceQuit choice = some pc') :
    pc ≠ .stopped ∧ pc.store pc.holdsBarrier = pc'.holdsBarrier ∧
      (pc' = .check .forceQuit → forceQuit = true) ∧
      (pc'.passed = true → pc.passed = true ∨ (pc = .wait ∧ workerCount ≤ paused) ∨
        (pc = .arm ∧ workerCount ≤ 1) ∨ (pc = .check .forceQuit ∧ forceQuit = false)) := by
  cases pc with
  | idle => cases h
  | stopped => cases h
  | arm =>
      obtain rfl := Option.some.inj h
      by_cases hone : 1 < workerCount
      · rw [if_pos hone]
        exact ⟨nofun, rfl, nofun, nofun⟩
      · rw [if_neg hone]
        exact ⟨nofun, rfl, nofun, fun _ ↦ .inr (.inr (.inl ⟨rfl, Nat.not_lt.mp hone⟩))⟩
  | wait =>
      obtain rfl := Option.some.inj h
      by_cases hlt : paused < workerCount
      · rw [if_pos hlt]
        exact ⟨nofun, rfl, nofun, nofun⟩
      · rw [if_neg hlt]
        exact ⟨nofun, rfl, nofun, fun _ ↦ .inr (.inl ⟨rfl, Nat.not_lt.mp hlt⟩)⟩
  | waitQuit =>
      obtain rfl := Option.some.inj h
      cases forceQuit with
      | true => exact ⟨nofun, rfl, fun _ ↦ rfl, nofun⟩
      | false => exact ⟨nofun, rfl, nofun, nofun⟩
  | waitTsc =>
      obtain rfl := Option.some.inj h
      cases choice <;> exact ⟨nofun, rfl, nofun, nofun⟩
  | check how =>
      obtain rfl := Option.some.inj h
      cases how with
      | passed =>
          cases forceQuit <;> exact ⟨nofun, rfl, nofun, fun _ ↦ .inl rfl⟩
      | forceQuit =>
          cases forceQuit with
          | true => exact ⟨nofun, rfl, nofun, nofun⟩
          | false => exact ⟨nofun, rfl, nofun, fun _ ↦ .inr (.inr (.inr ⟨rfl, rfl⟩))⟩
      | timedOut =>
          rw [if_pos (.inr rfl)]
          exact ⟨nofun, rfl, nofun, nofun⟩
  | load =>
      obtain rfl := Option.some.inj h
      cases choice <;> exact ⟨nofun, rfl, nofun, fun _ ↦ .inl rfl⟩
  | swapRules | swapDpi | swapFlow =>
      obtain rfl := Option.some.inj h
      exact ⟨nofun, rfl, nofun, fun _ ↦ .inl rfl⟩
  | clear | cancel how =>
      obtain rfl := Option.some.inj h
      exact ⟨nofun, rfl, nofun, nofun⟩

/-- A worker that counts and is not about to release itself spins. -/
theorem WorkerPc.spinning_of_weight {pc : WorkerPc} (h : pc.weight = 1) (hne : pc ≠ .release) :
    pc.spinning = true := by
  cases pc with
  | spinBarrier => rfl
  | spinQuit => rfl
  | release => exact absurd rfl hne
  | _ => cases h

theorem MainPc.store_eq_true {pc : MainPc} {barrier : Bool} (h : pc.store barrier = true) :
    pc = .arm ∨ barrier = true := by
  cases pc with
  | arm => exact .inl rfl
  | clear => cases h
  | cancel how => cases h
  | _ => exact .inr h

/-- A step of the main lcore inside a reload. -/
theorem BarrierState.Inv.main_step (h : s.Inv) (hn : 2 ≤ n)
    (hstale : s.main = .arm → ∀ i, s.workers i ≠ .release) {choice : Bool} {main : MainPc}
    (hmain : s.main.next n s.paused s.forceQuit choice = some main) : BarrierState.Inv
      { s with
        main
        barrier := s.main.store s.barrier
        armed := if s.main = .arm then s.armed + 1 else s.armed } := by
  obtain ⟨hstopped, hbarrier, hquit, hpassed⟩ := MainPc.next_spec hmain
  have hreleased : s.main.store s.barrier = true → ∀ i, s.workers i ≠ .release := by
    intro hstore
    rcases MainPc.store_eq_true hstore with harm | hbar
    · exact hstale harm
    · exact h.released hbar
  refine ⟨h.paused, fun hq ↦ absurd (h.quit hq) hstopped, ?_, hquit, hreleased, fun hp i ↦ ?_⟩
  · dsimp only
    rw [h.barrier, hbarrier]
  · rcases hpassed hp with hold | ⟨hwait, hle⟩ | ⟨-, hle⟩ | ⟨hcheck, hfq⟩
    · exact h.quiesced hold i
    · -- the counter has reached the number of workers, and none of them is leaving
      have hbar : s.barrier = true := by rw [h.barrier, hwait]; rfl
      rw [h.paused] at hle
      exact WorkerPc.spinning_of_weight (weight_of_acked_ge hle i) (h.released hbar i)
    · omega
    · rw [h.forceQuit hcheck] at hfq
      cases hfq

theorem barrierInit_inv : BarrierState.Inv ({} : BarrierState n) where
  paused := by simp [acked, WorkerPc.weight]
  quit := nofun
  barrier := rfl
  forceQuit := nofun
  released := nofun
  quiesced := nofun

/-- Every step in which no acknowledgement is stale keeps the invariant. -/
theorem barrierStep_inv (hn : 2 ≤ n) (h : s.Inv) (hstale : NoStale s a)
    (hstep : barrierStep s a = some s') : s'.Inv := by
  rcases barrierStep_cases hstep with
    ⟨i, rfl, -, rfl⟩ | ⟨rfl, hidle, rfl⟩ | ⟨choice, main, rfl, hmain, rfl⟩ | ⟨rfl, rfl⟩ |
      ⟨rfl, hidle, rfl⟩
  · exact h.worker i
  · have hbar : s.barrier = false := by rw [h.barrier, hidle]; rfl
    refine ⟨h.paused, fun hq ↦ ?_, hbar, nofun, h.released, nofun⟩
    have hstopped := h.quit hq
    rw [hidle] at hstopped
    cases hstopped
  · exact h.main_step hn hstale hmain
  · exact ⟨h.paused, h.quit, h.barrier, fun _ ↦ rfl, h.released, h.quiesced⟩
  · have hbar : s.barrier = false := by rw [h.barrier, hidle]; rfl
    exact ⟨h.paused, fun _ ↦ rfl, hbar, nofun, h.released, nofun⟩

theorem reach_inv (hn : 2 ≤ n) (h : ((barrierRuns n).restrict NoStale).Reach s) : s.Inv := by
  refine System.Reach.invariant (I := BarrierState.Inv) ?_ ?_ h
  · rintro s rfl
    exact barrierInit_inv
  · rintro s a s' hinv ⟨hstale, hstep⟩
    exact barrierStep_inv hn hinv hstale hstep

/-- **The barrier quiesces the workers**, in every run of two or more workers and any
number of reloads in which the barrier is never set while a worker still has its
`fetch_sub` to do. -/
theorem barrier_quiesces (hn : 2 ≤ n) (h : ((barrierRuns n).restrict NoStale).Reach s)
    (hpassed : s.main.passed = true) (i : Fin n) : s.workers i ≠ .body := by
  intro hbody
  have hspin := (reach_inv hn h).quiesced hpassed i
  rw [hbody] at hspin
  cases hspin

end

/-- A worker's way from the loop head through the barrier into the spin loop. -/
def pauseOf {n : Nat} (i : Fin n) : List (BarrierAction n) := List.replicate 5 (.worker i)

/-- A first reload with two workers, up to the swap of the rules. -/
def firstReload (first second : Fin 2) : List (BarrierAction 2) :=
  [.begin, .main false] ++ pauseOf first ++ pauseOf second ++ List.replicate 3 (.main false)

/-- A second reload that sets the barrier while the second worker is between its spin loop and
its `fetch_sub`. -/
def secondReload (first second : Fin 2) : List (BarrierAction 2) :=
  List.replicate 4 (.main false) ++
    [.worker first, .worker first, .worker second, .begin, .main false] ++
    pauseOf first ++ List.replicate 3 (.main false) ++ [.worker second, .worker second]

/-- The first reload of two workers finds both in the spin loop. -/
theorem barrier_quiesces_two : ∃ s : BarrierState 2,
    ((barrierRuns 2).restrict NoStale).Reach s ∧ s.main = .swapRules ∧
      s.workers 0 ≠ .body ∧ s.workers 1 ≠ .body := by
  have hrun : (((firstReload 0 1).foldlM
      (fun s a ↦ if NoStale s a then barrierStep s a else none)
      ({} : BarrierState 2)).map fun s ↦ s.main) = some .swapRules := by decide
  obtain ⟨s, hs, hmain⟩ := Option.map_eq_some_iff.mp hrun
  have hreach : ((barrierRuns 2).restrict NoStale).Reach s := System.reach_restrict_foldlM _ hs
  have hpassed : s.main.passed = true := by rw [hmain]; rfl
  exact ⟨s, hreach, hmain, barrier_quiesces le_rfl hreach hpassed 0,
    barrier_quiesces le_rfl hreach hpassed 1⟩

/-- A stale acknowledgement lets the second reload swap while worker 1 processes
packets. -/
theorem stale_ack_swaps_under_worker : ∃ s : BarrierState 2,
    (barrierRuns 2).Reach s ∧ s.main = .swapRules ∧ s.main.passed = true ∧
      s.workers 1 = .body := by
  have hrun : (((firstReload 0 1 ++ secondReload 0 1).foldlM barrierStep
      ({} : BarrierState 2)).map fun s ↦ (s.main, s.workers 1)) = some (.swapRules, .body) := by
    decide
  obtain ⟨s, hs, hfinal⟩ := Option.map_eq_some_iff.mp hrun
  obtain ⟨hmain, hbody⟩ := Prod.mk.inj hfinal
  refine ⟨s, System.reach_foldlM _ hs, hmain, ?_, hbody⟩
  rw [hmain]
  rfl

/-! ## A single reload -/

section

variable {n : Nat} {s s' : BarrierState n} {a : BarrierAction n}

/-- Only one reload gets to the barrier. -/
def SingleReload (s : BarrierState n) : BarrierAction n → Prop
  | .begin => s.armed = 0
  | _ => True

instance (s : BarrierState n) (a : BarrierAction n) : Decidable (SingleReload s a) :=
  match a with
  | .begin => inferInstanceAs (Decidable (s.armed = 0))
  | .worker _ | .main _ | .signal | .stop => inferInstanceAs (Decidable True)

/-- Tables are replaced only while every worker spins. -/
def SwapsQuiesced (n : Nat) : Prop :=
  ∀ s, ((barrierRuns n).restrict SingleReload).Reach s → s.main.swapping = true →
    ∀ i, (s.workers i).spinning = true

/-- A worker that has not met a barrier. -/
def WorkerPc.unpaused : WorkerPc → Bool
  | .loopHead | .body | .readBarrier | .exited => true
  | _ => false

/-- Until the barrier is first set, no worker has met one. -/
structure BarrierState.Fresh (s : BarrierState n) : Prop where
  arm : s.main = .arm → s.armed = 0
  barrier : s.armed = 0 → s.barrier = false
  workers : s.armed = 0 → ∀ i, (s.workers i).unpaused = true

theorem WorkerPc.unpaused_next {pc : WorkerPc} (h : pc.unpaused = true) (quit : Bool) :
    (pc.next false quit).unpaused = true := by
  cases pc with
  | loopHead => cases quit <;> rfl
  | body | readBarrier | exited => rfl
  | _ => cases h

theorem MainPc.next_ne_arm {pc pc' : MainPc} {workerCount paused : Nat} {forceQuit choice : Bool}
    (h : pc.next workerCount paused forceQuit choice = some pc') : pc' ≠ .arm := by
  rintro rfl
  cases pc with
  | idle | stopped => cases h
  | arm | wait | waitQuit | waitTsc | check how | load =>
      have := Option.some.inj h
      split at this <;> cases this
  | swapRules | swapDpi | swapFlow | clear | cancel how => cases h

theorem barrierStep_fresh (h : s.Fresh) (hsingle : SingleReload s a)
    (hstep : barrierStep s a = some s') : s'.Fresh := by
  rcases barrierStep_cases hstep with
    ⟨i, rfl, -, rfl⟩ | ⟨rfl, hidle, rfl⟩ | ⟨choice, main, rfl, hmain, rfl⟩ | ⟨rfl, rfl⟩ |
      ⟨rfl, hidle, rfl⟩
  · refine ⟨h.arm, h.barrier, fun hzero j ↦ ?_⟩
    dsimp only at hzero ⊢
    by_cases hj : j = i
    · rw [hj, Function.update_self, h.barrier hzero]
      exact WorkerPc.unpaused_next (h.workers hzero i) _
    · rw [Function.update_of_ne hj]
      exact h.workers hzero j
  · exact ⟨fun _ ↦ hsingle, h.barrier, h.workers⟩
  · have harm : (if s.main = .arm then s.armed + 1 else s.armed) = 0 →
        s.main ≠ .arm ∧ s.armed = 0 := by
      intro hzero
      split at hzero
      · cases hzero
      · rename_i hne
        exact ⟨hne, hzero⟩
    refine ⟨fun hm ↦ absurd hm (MainPc.next_ne_arm hmain), fun hzero ↦ ?_, fun hzero ↦ ?_⟩
    · obtain ⟨hne, hzero⟩ := harm hzero
      by_contra hbar
      rcases MainPc.store_eq_true (Bool.not_eq_false _ ▸ hbar) with hm | hb
      · exact hne hm
      · rw [h.barrier hzero] at hb
        cases hb
    · exact h.workers (harm hzero).2
  · exact ⟨h.arm, h.barrier, h.workers⟩
  · exact ⟨nofun, h.barrier, h.workers⟩

/-- With a single reload no acknowledgement can be stale. -/
theorem reach_noStale_of_single (h : ((barrierRuns n).restrict SingleReload).Reach s) :
    s.Fresh ∧ ((barrierRuns n).restrict NoStale).Reach s := by
  induction h with
  | init hs =>
      subst hs
      exact ⟨⟨nofun, fun _ ↦ rfl, fun _ _ ↦ rfl⟩, .init rfl⟩
  | @step s s' a _ hstep ih =>
      obtain ⟨hfresh, hreach⟩ := ih
      refine ⟨barrierStep_fresh hfresh hstep.1 hstep.2, .step hreach ⟨?_, hstep.2⟩⟩
      cases a with
      | main choice =>
          intro harm i hrel
          have hunpaused := hfresh.workers (hfresh.arm harm) i
          rw [hrel] at hunpaused
          cases hunpaused
      | _ => trivial

theorem MainPc.passed_of_swapping {pc : MainPc} (h : pc.swapping = true) : pc.passed = true := by
  cases pc with
  | swapRules | swapDpi | swapFlow => rfl
  | _ => cases h

theorem swapsQuiesced_of_two_le (hn : 2 ≤ n) : SwapsQuiesced n := by
  intro s hreach hswap i
  exact (reach_inv hn (reach_noStale_of_single hreach).2).quiesced
    (MainPc.passed_of_swapping hswap) i

/-- A reload with one worker, which has just begun an iteration. -/
def soleReload : List (BarrierAction 1) :=
  [.worker 0, .begin, .main false, .main false, .main false]

/-- The reload of a single worker does not wait between the barrier and the swap. -/
theorem soleReload_swaps : ∃ s : BarrierState 1,
    ((barrierRuns 1).restrict SingleReload).Reach s ∧ s.main = .swapRules ∧
      s.workers 0 = .body := by
  have hrun : ((soleReload.foldlM (fun s a ↦ if SingleReload s a then barrierStep s a else none)
      ({} : BarrierState 1)).map fun s ↦ (s.main, s.workers 0)) =
        some (.swapRules, .body) := by decide
  obtain ⟨s, hs, hfinal⟩ := Option.map_eq_some_iff.mp hrun
  obtain ⟨hmain, hbody⟩ := Prod.mk.inj hfinal
  exact ⟨s, System.reach_restrict_foldlM _ hs, hmain, hbody⟩

theorem not_swapsQuiesced_one : ¬ SwapsQuiesced 1 := by
  intro h
  obtain ⟨s, hreach, hmain, hbody⟩ := soleReload_swaps
  have hspin := h s hreach (by rw [hmain]; rfl) 0
  rw [hbody] at hspin
  cases hspin

/-- **When a reload swaps under paused workers only**: with every accepted number of
workers but one. -/
theorem swapsQuiesced_iff (config : DpdkConfig) (h : validateWorkerQueueConfig config = .ok ()) :
    SwapsQuiesced config.spi.workerCount.toNat ↔ config.spi.workerCount ≠ 1 := by
  have hpos := workerCount_pos_of_valid h
  constructor
  · rintro hquiesced hone
    rw [hone] at hquiesced
    exact not_swapsQuiesced_one hquiesced
  · intro hne
    refine swapsQuiesced_of_two_le ?_
    have hne' : config.spi.workerCount.toNat ≠ 1 := fun heq ↦ hne (BitVec.eq_of_toNat_eq heq)
    omega

end

/-- Two workers, on two queues. -/
def twoWorkerConfig : DpdkConfig where
  port := { receiveQueues := 2, transmitQueues := 2 }
  spi := { workerCount := 2 }

theorem swapsQuiesced_two_workers :
    validateWorkerQueueConfig twoWorkerConfig = .ok () ∧ SwapsQuiesced 2 := by
  have hvalid : validateWorkerQueueConfig twoWorkerConfig = .ok () := by decide
  exact ⟨hvalid, (swapsQuiesced_iff twoWorkerConfig hvalid).mpr (by decide)⟩

/-- The default configuration is accepted, and its one worker is in the middle of an
iteration when the rules are swapped. -/
theorem default_config_swaps_under_worker :
    validateWorkerQueueConfig {} = .ok () ∧ ({} : DpdkConfig).spi.workerCount = 1 ∧
      ∃ s : BarrierState 1, ((barrierRuns 1).restrict SingleReload).Reach s ∧
        s.main = .swapRules ∧ s.workers 0 = .body :=
  ⟨by decide, rfl, soleReload_swaps⟩

end DpdkSpi
