import DpdkSpi.Process.Workers

/-!
# The life of the process

Whatever DPDK answers and whenever the signal comes, nothing is taken away from a worker that
still runs: its ports are stopped, its ring is freed and its fragment table is destroyed when it
has returned.  There is one exception.  When the fragment table of a worker cannot be created,
`LaunchWorker` returns without telling the workers in front of it to stop, and they go on polling
while the destructors run.
-/

namespace DpdkSpi

open Lib

variable {F : DpdkFaults} {config : WorkersConfig} {base s : Machine}

/-! ## Machines with workers -/

/-- The same machine with other workers. -/
def Machine.withWorkers (s : Machine) (quit : Bool) (rings fragTables : List Nat)
    (running : List Launched) : Machine :=
  { s with quit, rings, fragTables, running }

theorem Machine.NoWorkers.withWorkers_self (h : s.NoWorkers) :
    s = s.withWorkers s.quit [] [] [] := by
  obtain ⟨hrunning, hrings, htables⟩ := h
  cases s
  subst hrunning hrings htables
  rfl

/-- Every worker that runs has what it uses. -/
def Machine.AllSupplied (s : Machine) : Prop := ∀ l ∈ s.running, l.Supplied s

/-- Nothing has changed but the workers, and they are supplied. -/
structure WorkersOnly (base s : Machine) : Prop where
  same : ∃ quit rings fragTables running, s = base.withWorkers quit rings fragTables running
  supplied : s.AllSupplied

theorem workersOnly_idle (quit : Bool) (rings fragTables : List Nat) :
    WorkersOnly base (base.withWorkers quit rings fragTables []) :=
  ⟨⟨_, _, _, _, rfl⟩, nofun⟩

/-- The ports of a worker, on the machine in front of the workers. -/
def Launched.HasQueues (l : Launched) (s : Machine) : Prop :=
  ∀ port ∈ l.activePorts, ∃ receiveQueues transmitQueues,
    s.Serves port receiveQueues transmitQueues ∧ l.workerId < transmitQueues.toNat ∧
      (l.distribution = .kQueue → l.workerId < receiveQueues.toNat)

/-- The context that `LaunchWorker` gives a worker. -/
def launchedAt (config : WorkersConfig) (distribution : PacketDistribution)
    (activePorts : List (BitVec 16)) (worker : Nat) : Launched where
  distribution := distribution
  workerId := worker
  workerCount := config.workerCount.toNat
  activePorts := activePorts

/-- The workers below a number, the last one first. -/
def launchedBelow (config : WorkersConfig) (distribution : PacketDistribution)
    (activePorts : List (BitVec 16)) : Nat → List Launched
  | 0 => []
  | i + 1 => launchedAt config distribution activePorts i ::
      launchedBelow config distribution activePorts i

theorem mem_launchedBelow {distribution : PacketDistribution} {activePorts : List (BitVec 16)}
    {n : Nat} {l : Launched} : l ∈ launchedBelow config distribution activePorts n ↔
      ∃ worker < n, l = launchedAt config distribution activePorts worker := by
  induction n with
  | zero =>
      refine iff_of_false nofun ?_
      rintro ⟨worker, hworker, -⟩
      exact Nat.not_lt_zero _ hworker
  | succ n ih =>
      rw [launchedBelow, List.mem_cons, ih]
      constructor
      · rintro (rfl | ⟨worker, hworker, rfl⟩)
        · exact ⟨n, Nat.lt_succ_self n, rfl⟩
        · exact ⟨worker, Nat.lt_succ_of_lt hworker, rfl⟩
      · rintro ⟨worker, hworker, rfl⟩
        cases Nat.lt_succ_iff_lt_or_eq.mp hworker with
        | inl hlt => exact .inr ⟨worker, hlt, rfl⟩
        | inr heq => exact .inl (heq ▸ rfl)

/-- What the launch of the workers of a mode relies on. -/
structure Launchable (config : WorkersConfig) (distribution : PacketDistribution)
    (activePorts : List (BitVec 16)) (base : Machine) (rings : List Nat) : Prop where
  eal : base.eal = true
  queues : ∀ worker < config.workerCount.toNat,
    (launchedAt config distribution activePorts worker).HasQueues base
  rings : distribution = .kFlowHash → ∀ worker < config.workerCount.toNat, worker ∈ rings

/-- The workers below a number are supplied by the fragment tables below it. -/
theorem Launchable.supplied {distribution : PacketDistribution}
    {activePorts : List (BitVec 16)} {rings fragTables : List Nat} {running : List Launched}
    {quit : Bool} (h : Launchable config distribution activePorts base rings) {worker : Nat}
    (hworker : worker < config.workerCount.toNat) (htable : worker ∈ fragTables) :
    (launchedAt config distribution activePorts worker).Supplied
      (base.withWorkers quit rings fragTables running) where
  fragTable := htable
  ports := h.queues worker hworker
  rings := h.rings

theorem Launchable.workersOnly {distribution : PacketDistribution}
    {activePorts : List (BitVec 16)} {rings fragTables : List Nat} {quit : Bool}
    (h : Launchable config distribution activePorts base rings) {i : Nat}
    (hi : i ≤ config.workerCount.toNat) (htables : ∀ worker < i, worker ∈ fragTables) :
    WorkersOnly base (base.withWorkers quit rings fragTables
      (launchedBelow config distribution activePorts i)) := by
  refine ⟨⟨_, _, _, _, rfl⟩, fun l hl ↦ ?_⟩
  obtain ⟨worker, hworker, rfl⟩ := mem_launchedBelow.mp hl
  exact h.supplied (Nat.lt_of_lt_of_le hworker hi) (htables worker hworker)

/-! ## Rings -/

theorem freeRings_ensures {quit : Bool} {fragTables workers rings : List Nat}
    (hrings : rings.Perm workers) :
    (freeRings workers).Ensures (dpdkWorld F) (WorkersOnly base)
      (base.withWorkers quit rings fragTables []) fun _ s' ↦
        s' = base.withWorkers quit [] fragTables [] := by
  induction workers generalizing rings with
  | nil =>
      obtain rfl := hrings.eq_nil
      exact Prog.ensures_done (workersOnly_idle ..) rfl
  | cons worker workers ih =>
      refine ⟨workersOnly_idle .., ⟨hrings.mem_iff.mpr List.mem_cons_self, rfl⟩, fun _ s' hs' ↦ ?_⟩
      obtain rfl : s' = base.withWorkers quit (rings.erase worker) fragTables [] := hs'
      refine ih ?_
      have herase := hrings.erase worker
      rwa [List.erase_cons_head] at herase

/-- What is left of the rings and the fragment tables when no worker runs. -/
structure WorkersLeft (base : Machine) (st : WorkersState) (s : Machine) : Prop where
  same : ∃ quit rings fragTables, s = base.withWorkers quit rings fragTables [] ∧
    rings.Perm st.dispatchRings ∧ fragTables.Perm st.fragTables

theorem WorkersLeft.workersOnly {st : WorkersState} (h : WorkersLeft base st s) :
    WorkersOnly base s := by
  obtain ⟨quit, rings, fragTables, rfl, -, -⟩ := h.same
  exact workersOnly_idle ..

theorem destroyDispatchRings_ensures {st : WorkersState} (h : WorkersLeft base st s) :
    (destroyDispatchRings st).Ensures (dpdkWorld F) (WorkersOnly base) s fun st' s' ↦
      st' = { st with dispatchRings := [] } ∧ WorkersLeft base st' s' := by
  obtain ⟨quit, rings, fragTables, rfl, hrings, htables⟩ := h.same
  refine (freeRings_ensures hrings).bind fun _ s' hs heq ↦ ?_
  subst heq
  exact Prog.ensures_done hs ⟨rfl, ⟨_, _, _, rfl, .refl _, htables⟩⟩

/-- The loop of `CreateDispatchRings`, for workers that have no ring yet. -/
theorem createRings_ensures {size : BitVec 32} (heal : base.eal = true) {workers : List Nat}
    {st : WorkersState} (hnodup : (st.dispatchRings ++ workers).Nodup) (h : WorkersLeft base st s) :
    (createRings size workers st).Ensures (dpdkWorld F) (WorkersOnly base) s fun r s' ↦
      WorkersLeft base r.2 s' ∧ r.2.fragTables = st.fragTables ∧
        r.2.workersStarted = st.workersStarted ∧
          (r.1 = .ok () → r.2.dispatchRings = st.dispatchRings ++ workers) := by
  induction workers generalizing st s with
  | nil => exact Prog.ensures_done h.workersOnly ⟨h, rfl, rfl, fun _ ↦ (List.append_nil _).symm⟩
  | cons worker workers ih =>
      obtain ⟨quit, rings, fragTables, rfl, hrings, htables⟩ := h.same
      have hnew : worker ∉ rings := by
        rw [hrings.mem_iff]
        intro hmem
        exact (List.nodup_append.mp hnodup).2.2 _ hmem _ List.mem_cons_self rfl
      refine ⟨workersOnly_idle .., ⟨heal, hnew⟩, fun r s' hs' ↦ ?_⟩
      cases r with
      | error e =>
          obtain rfl : s' = base.withWorkers quit rings fragTables [] := hs'
          refine (destroyDispatchRings_ensures h).bind fun st' s' hs hst' ↦ ?_
          obtain ⟨rfl, hleaves⟩ := hst'
          exact Prog.ensures_done hs ⟨hleaves, rfl, rfl, nofun⟩
      | ok _ =>
          obtain rfl : s' = base.withWorkers quit (worker :: rings) fragTables [] := hs'
          have hassoc : st.dispatchRings ++ worker :: workers =
              st.dispatchRings ++ [worker] ++ workers := by
            rw [List.append_assoc, List.singleton_append]
          rw [hassoc] at hnodup ⊢
          refine ih hnodup ⟨_, _, _, rfl, ?_, htables⟩
          exact (hrings.cons worker).trans (List.perm_append_singleton ..).symm

/-! ## Starting the workers -/

/-- A worker is launched behind those in front of it; if it is not, none is left running. -/
structure LaunchEnds (base : Machine) (rings : List Nat) (st : WorkersState)
    (running : List Launched) (fragTables : List Nat) (r : Except String Unit × WorkersState)
    (s : Machine) : Prop where
  dispatchRings : r.2.dispatchRings = st.dispatchRings
  started : r.2.workersStarted = st.workersStarted
  ok : r.1 = .ok () → r.2.fragTables = fragTables ∧ ∃ quit tables,
    s = base.withWorkers quit rings tables running ∧ tables.Perm fragTables
  error : ∀ e, r.1 = .error e → ∃ quit tables,
    s = base.withWorkers quit rings tables [] ∧ tables.Perm r.2.fragTables

/-- The next worker has no fragment table yet. -/
theorem contains_fragTables {i : Nat} {st : WorkersState} (hst : st.fragTables = List.range i) :
    st.fragTables.contains i = false := by
  rw [hst, List.contains_eq_mem]
  exact decide_eq_false fun hmem ↦ Nat.lt_irrefl i (List.mem_range.mp hmem)

/-- `LaunchWorker`, when the workers in front of it run. -/
theorem launchWorker_ensures {distribution : PacketDistribution} {activePorts : List (BitVec 16)}
    {rings tables : List Nat} {quit : Bool} {i : Nat} {st : WorkersState} {lcore : BitVec 32}
    (h : Launchable config distribution activePorts base rings)
    (hi : i < config.workerCount.toNat) (hfails : 1 ≤ i → ¬ F.tableFails i)
    (hst : st.fragTables = List.range i) (htables : tables.Perm (List.range i)) :
    (launchWorker config distribution activePorts i lcore st).Ensures (dpdkWorld F)
      (WorkersOnly base) (base.withWorkers quit rings tables
        (launchedBelow config distribution activePorts i))
      (LaunchEnds base rings st (launchedBelow config distribution activePorts (i + 1))
        (List.range (i + 1))) := by
  have hmem (worker : Nat) (hworker : worker < i) : worker ∈ tables :=
    htables.mem_iff.mpr (List.mem_range.mpr hworker)
  have hstart := @Launchable.workersOnly config base distribution activePorts rings tables quit h i
    hi.le hmem
  have hnew : i ∉ tables := by
    rw [htables.mem_iff, List.mem_range]
    exact Nat.lt_irrefl i
  have hcontains := contains_fragTables hst
  unfold launchWorker prepareFragTable
  refine ⟨hstart, h.eal, fun tscHz s₁ hs₁ ↦ ?_⟩
  obtain rfl : s₁ = _ := hs₁
  simp only [hcontains]
  refine ⟨hstart, ⟨h.eal, hnew⟩, fun r s₁ hs₁ ↦ ?_⟩
  obtain ⟨hfailed, hs₁⟩ := hs₁
  cases r with
  | error e =>
      obtain rfl : s₁ = _ := hs₁
      -- only the first worker, which has none in front of it, may be left without a table
      have hzero : i = 0 := by
        by_contra hne
        exact hfails (Nat.one_le_iff_ne_zero.mpr hne) (hfailed rfl)
      subst hzero
      exact Prog.ensures_done hstart ⟨rfl, rfl, nofun, fun _ _ ↦ ⟨_, _, rfl, hst ▸ htables⟩⟩
  | ok _ =>
      obtain rfl : s₁ = base.withWorkers quit rings (i :: tables)
        (launchedBelow config distribution activePorts i) := hs₁
      have htables' : (i :: tables).Perm (List.range (i + 1)) := by
        rw [List.range_succ]
        exact (htables.cons i).trans (List.perm_append_singleton ..).symm
      have hprepared := @Launchable.workersOnly config base distribution activePorts rings
        (i :: tables) quit h i hi.le fun worker hworker ↦
          List.mem_cons_of_mem _ (hmem worker hworker)
      have hlaunched := @Launchable.supplied config base distribution activePorts rings
        (i :: tables) (launchedBelow config distribution activePorts i) quit h i hi
        List.mem_cons_self
      refine ⟨hprepared, ⟨hlaunched, fun l hl ↦ ?_⟩, fun (r : Returned) s₁ hs₁ ↦ ?_⟩
      · obtain ⟨worker, hworker, rfl⟩ := mem_launchedBelow.mp hl
        exact Nat.ne_of_lt hworker
      · change Prog.Ensures _ _ (if r.ret = 0 then _ else _) _ _
        by_cases hzero : r.ret = 0
        · have hs₂ : s₁ = base.withWorkers quit rings (i :: tables)
              (launchedBelow config distribution activePorts (i + 1)) :=
            hs₁.trans (if_neg (not_not.mpr hzero))
          rw [hs₂]
          rw [if_pos hzero]
          refine Prog.ensures_done (h.workersOnly hi fun worker hworker ↦ ?_)
            ⟨rfl, rfl, fun _ ↦ ⟨?_, _, _, rfl, htables'⟩, nofun⟩
          · exact htables'.mem_iff.mpr (List.mem_range.mpr hworker)
          · rw [List.range_succ, hst]
        · have hs₂ : s₁ = base.withWorkers quit rings (i :: tables)
              (launchedBelow config distribution activePorts i) := hs₁.trans (if_pos hzero)
          rw [hs₂]
          rw [if_neg hzero]
          refine ⟨hprepared, trivial, fun _ s₃ hs₃ ↦ ?_⟩
          obtain rfl : s₃ = base.withWorkers true rings (i :: tables)
            (launchedBelow config distribution activePorts i) := hs₃
          refine ⟨h.workersOnly hi.le fun worker hworker ↦
            List.mem_cons_of_mem _ (hmem worker hworker), .inl rfl, fun _ s₃ hs₃ ↦ ?_⟩
          obtain rfl : s₃ = base.withWorkers true rings (i :: tables) [] := hs₃
          refine Prog.ensures_done (workersOnly_idle ..) ⟨rfl, rfl, nofun, fun _ _ ↦
            ⟨_, _, rfl, ?_⟩⟩
          rw [hst, ← List.range_succ]
          exact htables'

/-- The loop of `StartWorkers`. -/
theorem launchWorkers_ensures {distribution : PacketDistribution}
    {activePorts : List (BitVec 16)} {rings tables : List Nat} {quit : Bool} {i : Nat}
    {st : WorkersState} {lcores : List (BitVec 32)}
    (h : Launchable config distribution activePorts base rings)
    (hcount : i + lcores.length = config.workerCount.toNat)
    (hfails : ∀ worker, 1 ≤ worker → worker < config.workerCount.toNat → ¬ F.tableFails worker)
    (hst : st.fragTables = List.range i) (htables : tables.Perm (List.range i)) :
    (launchWorkers config distribution activePorts i lcores st).Ensures (dpdkWorld F)
      (WorkersOnly base) (base.withWorkers quit rings tables
        (launchedBelow config distribution activePorts i))
      (LaunchEnds base rings st
        (launchedBelow config distribution activePorts config.workerCount.toNat)
        (List.range config.workerCount.toNat)) := by
  induction lcores generalizing i st quit tables with
  | nil =>
      rw [List.length_nil, Nat.add_zero] at hcount
      subst hcount
      refine Prog.ensures_done (h.workersOnly le_rfl fun worker hworker ↦ ?_)
        ⟨rfl, rfl, fun _ ↦ ⟨hst, _, _, rfl, htables⟩, nofun⟩
      exact htables.mem_iff.mpr (List.mem_range.mpr hworker)
  | cons lcore lcores ih =>
      rw [List.length_cons, Nat.add_comm lcores.length, ← Nat.add_assoc] at hcount
      have hi : i < config.workerCount.toNat := by omega
      refine (launchWorker_ensures h hi (fun hle ↦ hfails i hle hi) hst htables).bind
        fun r s' hs hends ↦ ?_
      obtain ⟨result, st'⟩ := r
      cases result with
      | error e =>
          exact Prog.ensures_done hs ⟨hends.dispatchRings, hends.started, nofun, fun _ _ ↦
            hends.error e rfl⟩
      | ok _ =>
          obtain ⟨hst', quit', tables', rfl, htables'⟩ := hends.ok rfl
          refine (ih hcount hst' htables').imp fun r s'' _ hr ↦ ?_
          exact ⟨hr.dispatchRings.trans hends.dispatchRings, hr.started.trans hends.started,
            hr.ok, hr.error⟩

/-- `StartWorkers` on a pipeline that has none. -/
theorem startWorkers_ensures {distribution : PacketDistribution}
    {activePorts : List (BitVec 16)} {rings : List Nat} {quit : Bool} {st : WorkersState}
    (h : Launchable config distribution activePorts base rings)
    (hfails : ∀ worker, 1 ≤ worker → worker < config.workerCount.toNat → ¬ F.tableFails worker)
    (hst : st.fragTables = []) (hstarted : st.workersStarted = false) :
    (startWorkers config distribution activePorts st).Ensures (dpdkWorld F)
      (WorkersOnly base) (base.withWorkers quit rings [] []) fun r s' ↦
        r.2.dispatchRings = st.dispatchRings ∧
        (r.1 = .ok () → r.2.workersStarted = true ∧ ∃ quit tables,
          s' = base.withWorkers quit rings tables
            (launchedBelow config distribution activePorts config.workerCount.toNat) ∧
          tables.Perm r.2.fragTables ∧ r.2.fragTables = List.range config.workerCount.toNat) ∧
        ∀ e, r.1 = .error e → r.2.workersStarted = false ∧ ∃ quit tables,
          s' = base.withWorkers quit rings tables [] ∧ tables.Perm r.2.fragTables := by
  unfold startWorkers
  rw [if_neg (by rw [hstarted]; nofun)]
  refine ⟨workersOnly_idle .., h.eal, fun lcores s₁ hs₁ ↦ ?_⟩
  obtain rfl : s₁ = base.withWorkers quit rings [] [] := hs₁
  change Prog.Ensures _ _ (if (List.take config.workerCount.toNat lcores).length ≠
    config.workerCount.toNat then _ else _) _ _
  split
  · exact Prog.ensures_done (workersOnly_idle ..) ⟨rfl, nofun, fun _ _ ↦
      ⟨hstarted, _, _, rfl, by rw [hst]⟩⟩
  · rename_i hcount
    rw [ne_eq, not_not] at hcount
    refine ⟨workersOnly_idle .., trivial, fun _ s₂ hs₂ ↦ ?_⟩
    obtain rfl : s₂ = base.withWorkers false rings [] [] := hs₂
    have hlaunch := @launchWorkers_ensures F config base distribution activePorts rings [] false 0
      st (lcores.take config.workerCount.toNat) h (by rw [Nat.zero_add, hcount]) hfails hst
      (.refl _)
    refine hlaunch.bind fun r s₃ hs₃ hends ↦ ?_
    obtain ⟨result, st'⟩ := r
    cases result with
    | error e =>
        exact Prog.ensures_done hs₃ ⟨hends.dispatchRings, nofun, fun _ _ ↦
          ⟨hends.started.trans hstarted, hends.error e rfl⟩⟩
    | ok _ =>
        obtain ⟨hall, quit', tables, hsame, htables⟩ := hends.ok rfl
        exact Prog.ensures_done hs₃ ⟨hends.dispatchRings, fun _ ↦
          ⟨rfl, quit', tables, hsame, hall ▸ htables, hall⟩, nofun⟩

/-! ## Stopping the workers -/

theorem destroyFragTables_ensures {quit : Bool} {rings fragTables workers : List Nat}
    (htables : fragTables.Perm workers) :
    (destroyFragTables workers).Ensures (dpdkWorld F) (WorkersOnly base)
      (base.withWorkers quit rings fragTables []) fun _ s' ↦
        s' = base.withWorkers quit rings [] [] := by
  induction workers generalizing fragTables with
  | nil =>
      obtain rfl := htables.eq_nil
      exact Prog.ensures_done (workersOnly_idle ..) rfl
  | cons worker workers ih =>
      refine ⟨workersOnly_idle .., ⟨htables.mem_iff.mpr List.mem_cons_self, nofun⟩,
        fun _ s' hs' ↦ ?_⟩
      obtain rfl : s' = base.withWorkers quit rings (fragTables.erase worker) [] := hs'
      refine ih ?_
      have herase := htables.erase worker
      rwa [List.erase_cons_head] at herase

/-- `StopWorkers`, when they run. -/
theorem stopWorkers_ensures {distribution : PacketDistribution}
    {activePorts : List (BitVec 16)} {rings tables : List Nat} {quit : Bool} {st : WorkersState}
    (h : Launchable config distribution activePorts base rings)
    (hstarted : st.workersStarted = true)
    (hst : st.fragTables = List.range config.workerCount.toNat)
    (htables : tables.Perm st.fragTables) :
    (stopWorkers st).Ensures (dpdkWorld F) (WorkersOnly base)
      (base.withWorkers quit rings tables
        (launchedBelow config distribution activePorts config.workerCount.toNat)) fun st' s' ↦
          st' = { st with fragTables := [], workersStarted := false } ∧
            s' = base.withWorkers true rings [] [] := by
  have hrunning (quit : Bool) := @Launchable.workersOnly config base distribution activePorts
    rings tables quit h config.workerCount.toNat le_rfl fun worker hworker ↦
      htables.mem_iff.mpr (hst ▸ List.mem_range.mpr hworker)
  unfold stopWorkers
  rw [if_pos hstarted]
  refine ⟨hrunning quit, trivial, fun _ s₁ hs₁ ↦ ?_⟩
  obtain rfl : s₁ = base.withWorkers true rings tables
    (launchedBelow config distribution activePorts config.workerCount.toNat) := hs₁
  refine ⟨hrunning true, .inl rfl, fun _ s₁ hs₁ ↦ ?_⟩
  obtain rfl : s₁ = base.withWorkers true rings tables [] := hs₁
  exact (destroyFragTables_ensures htables).bind fun _ s' hs heq ↦
    Prog.ensures_done hs ⟨rfl, heq⟩

/-! ## Both modes -/

/-- What a mode leaves to the destructor: no worker, and no fragment table unless the launch
failed. -/
structure RunEnds (base : Machine) (r : Except String Unit × WorkersState) (s : Machine) : Prop
    extends WorkersLeft base r.2 s where
  stopped : r.2.workersStarted = false
  fragTables : r.1 = .ok () → r.2.fragTables = []

/-- The workers of a mode, from their launch to their end. -/
theorem runWorkers_ensures {distribution : PacketDistribution} {env : EnvironmentState}
    {rings : List Nat} {quit : Bool} {st : WorkersState}
    (h : Launchable config distribution env.activePorts base rings)
    (hserves : ∀ port ∈ env.activePorts, ∃ t, base.Serves port config.receiveQueues t)
    (hfails : ∀ worker, 1 ≤ worker → worker < config.workerCount.toNat → ¬ F.tableFails worker)
    (hst : st.fragTables = []) (hstarted : st.workersStarted = false)
    (hrings : rings.Perm st.dispatchRings) :
    (runWorkers config distribution env st).Ensures (dpdkWorld F) (WorkersOnly base)
      (base.withWorkers quit rings [] []) (RunEnds base) := by
  refine (startWorkers_ensures h hfails hst hstarted).bind fun r s₁ hs₁ hends ↦ ?_
  obtain ⟨result, st'⟩ := r
  obtain ⟨hdispatch, hok, herror⟩ := hends
  cases result with
  | error e =>
      obtain ⟨hstopped, quit', tables, rfl, htables⟩ := herror e rfl
      refine Prog.ensures_done hs₁ ⟨⟨_, _, _, rfl, ?_, htables⟩, hstopped, nofun⟩
      rwa [hdispatch]
  | ok _ =>
      obtain ⟨hstarted', quit', tables, rfl, htables, hall⟩ := hok rfl
      refine ⟨hs₁, ⟨fun worker hworker ↦ ?_, hserves⟩, fun _ s₂ hs₂ ↦ ?_⟩
      · exact mem_launchedBelow.mpr ⟨worker, hworker, rfl⟩
      · obtain rfl : s₂ = base.withWorkers quit' rings tables
          (launchedBelow config distribution env.activePorts config.workerCount.toNat) := hs₂
        refine (stopWorkers_ensures h hstarted' hall htables).bind fun st'' s₃ hs₃ hstop ↦ ?_
        obtain ⟨rfl, rfl⟩ := hstop
        refine Prog.ensures_done hs₃ ⟨⟨_, _, _, rfl, ?_, .refl _⟩, rfl, fun _ ↦ rfl⟩
        rwa [hdispatch]

/-- The queues that the environment has set up are those that the workers use. -/
theorem launchable_of_serves {distribution : PacketDistribution}
    {activePorts : List (BitVec 16)} {rings : List Nat} (heal : base.eal = true)
    (hserves : ∀ port ∈ activePorts,
      base.Serves port config.receiveQueues config.transmitQueues)
    (htransmit : ¬ config.transmitQueues < config.workerCount)
    (hreceive : distribution = .kQueue → ¬ config.receiveQueues < config.workerCount)
    (hrings : distribution = .kFlowHash → ∀ worker < config.workerCount.toNat, worker ∈ rings) :
    Launchable config distribution activePorts base rings where
  eal := heal
  rings := hrings
  queues worker hworker port hport := by
    refine ⟨_, _, hserves port hport, ?_, fun hqueue ↦ ?_⟩
    · rw [BitVec.not_lt] at htransmit
      exact Nat.lt_of_lt_of_le hworker (BitVec.le_def.mp htransmit)
    · have hle := hreceive hqueue
      rw [BitVec.not_lt] at hle
      exact Nat.lt_of_lt_of_le hworker (BitVec.le_def.mp hle)

/-- `RunUntilStopped` on an environment that serves. -/
theorem runUntilStopped_ensures {env : EnvironmentState} {quit : Bool} (heal : base.eal = true)
    (hserves : ∀ port ∈ env.activePorts,
      base.Serves port config.receiveQueues config.transmitQueues)
    (hfails : ∀ worker, 1 ≤ worker → worker < config.workerCount.toNat → ¬ F.tableFails worker) :
    (runUntilStopped config env {}).Ensures (dpdkWorld F) (WorkersOnly base)
      (base.withWorkers quit [] [] []) (RunEnds base) := by
  have hidle := @workersOnly_idle base quit [] []
  have hnone : WorkersLeft base {} (base.withWorkers quit [] [] []) :=
    ⟨_, _, _, rfl, .refl _, .refl _⟩
  have hrefused (e : String) :
      RunEnds base (.error e, {}) (base.withWorkers quit [] [] []) := ⟨hnone, rfl, nofun⟩
  have hports (port : BitVec 16) (hport : port ∈ env.activePorts) :
      ∃ t, base.Serves port config.receiveQueues t := ⟨_, hserves port hport⟩
  unfold runUntilStopped
  split
  · unfold runFlowHashDispatch
    split
    · exact Prog.ensures_done hidle (hrefused _)
    · rename_i htransmit
      have hcreate : (createDispatchRings config {}).Ensures (dpdkWorld F) (WorkersOnly base)
          (base.withWorkers quit [] [] []) _ :=
        createRings_ensures heal List.nodup_range hnone
      refine hcreate.bind fun r s₁ hs₁ hr ↦ ?_
      obtain ⟨result, st⟩ := r
      obtain ⟨hleaves, htables, hstarted, hok⟩ := hr
      cases result with
      | error e => exact Prog.ensures_done hs₁ ⟨hleaves, hstarted, nofun⟩
      | ok _ =>
          obtain ⟨quit', rings, tables, rfl, hrings, htables'⟩ := hleaves.same
          have hempty : tables = [] := by
            rw [show st.fragTables = [] from htables] at htables'
            exact htables'.eq_nil
          subst hempty
          have hlaunch : Launchable config .kFlowHash env.activePorts base rings :=
            launchable_of_serves heal hserves htransmit nofun fun _ worker hworker ↦ by
              rw [hrings.mem_iff, hok rfl]
              exact List.mem_range.mpr hworker
          exact runWorkers_ensures hlaunch hports hfails htables hstarted hrings
  · unfold runMultiWorker
    split
    · exact Prog.ensures_done hidle (hrefused _)
    · rename_i hreceive
      split
      · exact Prog.ensures_done hidle (hrefused _)
      · rename_i htransmit
        have hlaunch : Launchable config .kQueue env.activePorts base [] :=
          launchable_of_serves heal hserves htransmit (fun _ ↦ hreceive) nofun
        exact runWorkers_ensures hlaunch hports hfails rfl rfl (.refl _)

/-- `StopWorkers` when not all workers have been started. -/
theorem stopWorkers_of_not_started {st : WorkersState} (h : st.workersStarted = false) :
    stopWorkers st = .done st := by
  unfold stopWorkers
  rw [if_neg (by rw [h]; nofun)]

/-- `~Pipeline` behind a mode. -/
theorem destroyPipeline_ensures {r : Except String Unit × WorkersState} (h : RunEnds base r s) :
    (destroyPipeline r.2).Ensures (dpdkWorld F) (WorkersOnly base) s fun _ s' ↦
      ∃ quit tables, s' = base.withWorkers quit [] tables [] ∧
        (r.1 = .ok () → tables = []) := by
  unfold destroyPipeline
  rw [stopWorkers_of_not_started h.stopped]
  refine (destroyDispatchRings_ensures h.toWorkersLeft).imp fun st' s' _ hst' ↦ ?_
  obtain ⟨rfl, hleaves⟩ := hst'
  obtain ⟨quit, rings, tables, rfl, hrings, htables⟩ := hleaves.same
  obtain rfl := hrings.eq_nil
  refine ⟨quit, tables, rfl, fun hok ↦ ?_⟩
  have hnone : r.2.fragTables = [] := h.fragTables hok
  rw [hnone] at htables
  exact htables.eq_nil

/-! ## A machine without faults -/

/-- `1U << n` on a machine that shifts everything out. -/
def plainShift : ShiftOne := ⟨fun n ↦ 1#32 <<< n.toNat, fun _ _ ↦ rfl⟩

/-- A machine with one port, on which nothing fails. -/
def dpdkAnswer (s : Machine) : (c : DpdkCall) → c.Answer × Machine
  | .ealInit _ => (⟨0, 0⟩, { s with eal := true })
  | .ethDevCountAvail => (1#16, { s with portCount := 1 })
  | .pktmbufPoolCreate _ _ _ _ => (.ok (), { s with pool := true })
  | .ethDevInfoGet _ => ((⟨0, 0⟩, { maxRxQueues := 8, maxTxQueues := 8 }), s)
  | .ethDevConfigure port rx tx _ => (⟨0, 0⟩, s.updatePort port fun p ↦
      { p with queues := some (rx, tx), receiveQueues := [], transmitQueues := [] })
  | .ethDevAdjustNbRxTxDesc _ rx tx => ((⟨0, 0⟩, rx, tx), s)
  | .ethMacaddrGet _ => ((⟨0, 0⟩, 0), s)
  | .ethRxQueueSetup port queue _ _ => (⟨0, 0⟩, s.updatePort port fun p ↦
      { p with receiveQueues := queue :: p.receiveQueues })
  | .ethTxQueueSetup port queue _ _ => (⟨0, 0⟩, s.updatePort port fun p ↦
      { p with transmitQueues := queue :: p.transmitQueues })
  | .ethDevStart port => (⟨0, 0⟩, s.updatePort port fun p ↦ { p with started := true })
  | .ethPromiscuousEnable port => (⟨0, 0⟩, s.updatePort port fun p ↦
      { p with promiscuous := true })
  | .ethLinkGetNowait _ => ((⟨0, 0⟩, true), s)
  | .ethDevStop port => (⟨0, 0⟩, s.updatePort port fun p ↦ { p with started := false })
  | .ethDevClose port =>
      if (s.ports port).started then (⟨-22, 0⟩, s)
      else (⟨0, 0⟩, s.updatePort port fun p ↦ { p with closed := true })
  | .ealCleanup => ((), { s with eal := false })
  | .delayMs _ => ((), s)
  | .installSignalHandlers => (true, s)
  | .lcoreForeachWorker => ([1#32, 2#32], s)
  | .storeWorkerForceQuit quit => ((), { s with quit })
  | .ringCreate worker _ => (.ok (), { s with rings := worker :: s.rings })
  | .ringFree worker => ((), { s with rings := s.rings.erase worker })
  | .ipFragTableCreate worker _ => (.ok (), { s with fragTables := worker :: s.fragTables })
  | .ipFragTableDestroy worker => ((), { s with fragTables := s.fragTables.erase worker })
  | .getTscHz => (2000000000#64, s)
  | .ealRemoteLaunch launched _ => (⟨0, 0⟩, { s with running := launched :: s.running })
  | .ealMpWaitLcore => ((), { s with running := [] })
  | .packetLoop _ _ _ _ => ((), s)

theorem answers_dpdkAnswer (s : Machine) (c : DpdkCall) :
    (dpdkWorld F).Answers s c (dpdkAnswer s c).1 (dpdkAnswer s c).2 := by
  cases c with
  | ethDevStop port => exact ⟨fun h ↦ absurd rfl h, rfl⟩
  | ethDevClose port =>
      cases hstarted : (s.ports port).started with
      | true =>
          have hanswer : dpdkAnswer s (.ethDevClose port) = (⟨-22, 0⟩, s) := by
            rw [dpdkAnswer, hstarted, if_pos rfl]
          rw [hanswer]
          exact ⟨fun _ ↦ .inr hstarted, fun _ ↦ nofun, rfl⟩
      | false =>
          have hanswer : dpdkAnswer s (.ethDevClose port) = (⟨0, 0⟩, s.updatePort port fun p ↦
              { p with closed := true }) := by
            rw [dpdkAnswer, hstarted, if_neg nofun]
          rw [hanswer]
          refine ⟨fun h ↦ absurd rfl h, fun h ↦ ?_, rfl⟩
          rw [hstarted] at h
          cases h
  | ipFragTableCreate worker cycles => exact ⟨nofun, rfl⟩
  | _ => rfl

/-- Two workers with rings between them and the main core. -/
def twoWorkers : Settings where
  port := { receiveQueues := 1, transmitQueues := 2 }
  spi := { workerCount := 2, packetDistribution := "flow_hash" }

/-! ## The start of the process -/

/-- At every point of every run of `init`, the ports outside the mask are those of a new process
and the next call is one that may be made.  If it ends well without the injector, the active ports
are those of the mask, and they serve. -/
theorem init_serves_mask (one : ShiftOne) (config : Settings)
    {program : Prog DpdkApi (Except DpdkError EnvironmentState)}
    (hreach : ((initEnvironment one config).runs (dpdkWorld F) (· = {})).Reach (program, s)) :
    (∀ p, one.inMask config.port.mask p = false → s.ports p = {}) ∧
      (∀ c next, program = .call c next → (dpdkWorld F).Allowed s c) ∧
      ∀ env, program = .done (.ok env) → config.pcapInjector.enabled = false →
        env.activePorts = (idsBelow s.portCount).filter (one.inMask config.port.mask) ∧
          env.activePorts ≠ [] ∧ (∀ p ∈ env.activePorts, s.ports p = servingPort config.port) ∧
            ∀ p ∉ env.activePorts, s.ports p = {} := by
  obtain ⟨hinit, hallowed, hdone⟩ :=
    Prog.Ensures.reach (fun _ hs ↦ hs ▸ initEnvironment_ensures one config) hreach
  refine ⟨hinit.untouched, hallowed, fun env henv hinjector ↦ ?_⟩
  have hend := hdone _ henv env rfl
  obtain ⟨hserve, hfresh, hne, hselects⟩ := hend.ports (hend.skipPorts.trans hinjector)
  exact ⟨hselects.activePorts, hne, hserve, hfresh⟩

theorem init_serves_mask_twoWorkers :
    let r := (initEnvironment plainShift twoWorkers).eval dpdkAnswer {}
    (∀ p, plainShift.inMask twoWorkers.port.mask p = false → r.2.ports p = {}) ∧
      ∀ env, r.1 = .ok env → env.activePorts ≠ [] := by
  have hreach := @Prog.reach_eval _ _ _ (dpdkWorld ⟨fun _ ↦ False, fun _ ↦ False⟩) {} dpdkAnswer
    answers_dpdkAnswer (initEnvironment plainShift twoWorkers) (· = {}) _ (.init ⟨rfl, rfl⟩)
  obtain ⟨huntouched, -, hdone⟩ := init_serves_mask plainShift twoWorkers hreach
  exact ⟨huntouched, fun env henv ↦ (hdone env (congrArg Prog.done henv) rfl).2.1⟩

/-! ## The process -/

theorem allSupplied_of_idle (h : s.running = []) : s.AllSupplied := by
  intro l hl
  rw [h] at hl
  cases hl

/-- `~Environment` behind a complete `init`, when no worker runs. -/
theorem destroyEnvironment_ensures {env : EnvironmentState} (hinit : env.initialized = true)
    (hnodup : env.activePorts.Nodup) (heal : s.eal = true) (hidle : s.running = [])
    (hports : ∀ p ∈ env.activePorts, s.HasPort p ∧ (s.ports p).started = true) :
    (destroyEnvironment env).Ensures (dpdkWorld F) Machine.AllSupplied s fun _ s' ↦
      ∃ ports, s' = { s with ports, eal := false } ∧
        (∀ p ∈ env.activePorts, ¬ F.stopFails p → (ports p).Down) ∧
          ∀ p ∉ env.activePorts, ports p = s.ports p := by
  have hidle' {s' : Machine} (h : OnlyPorts s s') : s'.AllSupplied := by
    obtain ⟨ports, rfl⟩ := h
    exact allSupplied_of_idle hidle
  unfold destroyEnvironment
  rw [if_pos hinit]
  have hclose := @closePorts_ensures F s s env.activePorts hnodup ⟨s.ports, rfl⟩ hidle hports
  refine (hclose.mono (J := Machine.AllSupplied) (R := fun _ s' ↦ OnlyPorts s s' ∧ _)
    (fun _ ↦ hidle') fun _ _ hs hq ↦ ⟨hs, hq⟩).bind fun _ s' hs hs' ↦ ?_
  obtain ⟨⟨ports, rfl⟩, hdown, hother⟩ := hs'
  refine Prog.ensures_perform hs ⟨heal, hidle⟩ fun _ s'' hs'' ↦ ?_
  obtain rfl : s'' = { s with ports, eal := false } := hs''
  exact ⟨allSupplied_of_idle hidle, ports, rfl, hdown, hother⟩

/-- How the process ends: no worker runs, no ring is left, and when it ends well the EAL is gone
and every port is stopped that its driver lets go. -/
structure ProcessEnds (F : DpdkFaults) (code : Option Nat) (s : Machine) : Prop where
  running : s.running = []
  rings : s.rings = []
  eal : code = some 0 → s.eal = false
  stopped : code = some 0 → ∀ p, (s.ports p).started = true → F.stopFails p

/-- The end of `main` behind a complete `init`, whatever the pipeline has left. -/
theorem exit_ensures {one : ShiftOne} {config : Settings} {env : EnvironmentState}
    (hinit : InitDone one config env s) (hskip : env.skipPorts = false) (quit : Bool)
    (tables : List Nat) (code : Nat) :
    (destroyEnvironment env >>= fun _ ↦ .done (some code)).Ensures (dpdkWorld F)
      Machine.AllSupplied (s.withWorkers quit [] tables []) (ProcessEnds F) := by
  obtain ⟨-, hfresh, -, hselects⟩ := hinit.ports hskip
  have hnodup : env.activePorts.Nodup := by
    rw [hselects.activePorts]
    exact (nodup_idsBelow _).filter _
  have hclose := @destroyEnvironment_ensures F (s.withWorkers quit [] tables []) env
    hinit.initialized hnodup hinit.eal rfl fun p hp ↦
      ⟨(hinit.serves hskip hp).1, (hinit.serves hskip hp).2.1⟩
  refine hclose.bind fun _ s₁ hs₁ hend ↦ ?_
  obtain ⟨ports, rfl, hdown, hother⟩ := hend
  refine Prog.ensures_done hs₁ ⟨rfl, rfl, fun _ ↦ rfl, fun _ p hp ↦ ?_⟩
  by_cases hactive : p ∈ env.activePorts
  · by_contra hstop
    have hstopped := (hdown p hactive hstop).1
    exact absurd (hstopped.symm.trans hp) nofun
  · have hnew : ports p = {} := (hother p hactive).trans (hfresh p hactive)
    have hstarted : (ports p).started = true := hp
    rw [hnew] at hstarted
    cases hstarted

/-- `main`, on a new process. -/
theorem mainProgram_ensures (one : ShiftOne) (config : Settings) (compiles links : Bool)
    (hinjector : config.pcapInjector.enabled = false)
    (hfails : ∀ worker, 1 ≤ worker → worker < config.spi.workerCount.toNat →
      ¬ F.tableFails worker) :
    (mainProgram one config compiles links).Ensures (dpdkWorld F) Machine.AllSupplied {}
      (ProcessEnds F) := by
  refine ((initEnvironment_ensures one config).mono (J := Machine.AllSupplied)
    (R := fun r s ↦ s.NoWorkers ∧ ∀ env, r = .ok env → InitDone one config env s)
    (fun s hs ↦ allSupplied_of_idle hs.running)
    fun r s hs hr ↦ ⟨hs.toNoWorkers, hr⟩).bind fun r s hs hr ↦ ?_
  obtain ⟨hnone, hdone⟩ := hr
  cases r with
  | error e => exact Prog.ensures_done hs ⟨hnone.running, hnone.rings, nofun, nofun⟩
  | ok env =>
      have hinit := hdone env rfl
      have hskip : env.skipPorts = false := hinit.skipPorts.trans hinjector
      have hports (p : BitVec 16) (hp : p ∈ env.activePorts) := hinit.serves hskip hp
      have hself := hnone.withWorkers_self
      refine ⟨hs, trivial, fun installed s₁ hs₁ ↦ ?_⟩
      obtain rfl : s₁ = s := hs₁
      change Prog.Ensures _ _ (if (!(installed : Bool) || !compiles) = true then _ else _) _ _
      split
      · rw [hself]
        exact exit_ensures hinit hskip ..
      · split
        · exact Prog.ensures_done hs ⟨hnone.running, hnone.rings, nofun, nofun⟩
        · have hrun := @runUntilStopped_ensures F config.toWorkersConfig s₁ env s₁.quit hinit.eal
            hports hfails
          rw [← hself] at hrun
          refine (hrun.mono (J := Machine.AllSupplied) (fun _ h ↦ h.supplied)
            fun _ _ _ h ↦ h).bind fun r s₂ _ hends ↦ ?_
          refine ((destroyPipeline_ensures hends).mono (J := Machine.AllSupplied)
            (fun _ h ↦ h.supplied) fun _ _ _ h ↦ h).bind fun _ s₃ _ hend ↦ ?_
          obtain ⟨quit, tables, rfl, -⟩ := hend
          exact exit_ensures hinit hskip quit tables 0

/-- Whatever DPDK answers, at every point of every run of the process every worker that runs has
its fragment table, its rings and its queues on started ports, every call is one that may be made
then, and the process leaves no worker and no ring behind. -/
theorem process_takes_nothing_in_use (one : ShiftOne) (config : Settings) (compiles links : Bool)
    (hinjector : config.pcapInjector.enabled = false)
    (hfails : ∀ worker, 1 ≤ worker → worker < config.spi.workerCount.toNat →
      ¬ F.tableFails worker) {program : Prog DpdkApi (Option Nat)}
    (hreach : ((mainProgram one config compiles links).runs (dpdkWorld F) (· = {})).Reach
      (program, s)) :
    s.AllSupplied ∧ (∀ c next, program = .call c next → (dpdkWorld F).Allowed s c) ∧
      ∀ code, program = .done code → ProcessEnds F code s := by
  refine Prog.Ensures.reach (fun s hs ↦ ?_) hreach
  subst hs
  exact mainProgram_ensures one config compiles links hinjector hfails

theorem process_takes_nothing_in_use_twoWorkers :
    let r := (mainProgram plainShift twoWorkers true true).eval dpdkAnswer {}
    r.2.AllSupplied ∧ ProcessEnds ⟨fun _ ↦ False, fun _ ↦ False⟩ r.1 r.2 := by
  have hreach := @Prog.reach_eval _ _ _ (dpdkWorld ⟨fun _ ↦ False, fun _ ↦ False⟩) {} dpdkAnswer
    answers_dpdkAnswer (mainProgram plainShift twoWorkers true true) (· = {}) _ (.init ⟨rfl, rfl⟩)
  have hsafe := process_takes_nothing_in_use plainShift twoWorkers true true rfl
    (fun _ _ _ ↦ not_false) hreach
  exact ⟨hsafe.1, hsafe.2.2 _ rfl⟩

end DpdkSpi
