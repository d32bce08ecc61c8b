import DpdkSpi.Process.Life

/-!
# Workers that nobody stops

`LaunchWorker` returns without a word to the workers in front of it when a fragment table cannot
be created, and `StopWorkers` does nothing for a pipeline that has not started all of them.  So
they are still polling when the destructors take the rings and the ports away (`Orphans`).
-/

namespace DpdkSpi

open Lib

variable {F : DpdkFaults} {config : WorkersConfig} {base s : Machine}
  {distribution : PacketDistribution} {activePorts : List (BitVec 16)}

/-! ## The launch -/

/-- A worker without a fragment table gets one and is launched. -/
theorem launchWorker_ends {rings tables : List Nat} {quit : Bool} {i : Nat} {st : WorkersState}
    (lcore : BitVec 32) (hst : st.fragTables = List.range i) :
    (launchWorker config distribution activePorts i lcore st).Ends (dpdkWorld F)
      (base.withWorkers quit rings tables (launchedBelow config distribution activePorts i))
      (.ok (), { st with fragTables := List.range (i + 1) })
      (base.withWorkers quit rings (i :: tables)
        (launchedBelow config distribution activePorts (i + 1))) := by
  have hcontains := contains_fragTables hst
  unfold launchWorker prepareFragTable
  refine .call 0 _ rfl ?_
  simp only [hcontains]
  refine .call (.ok ()) (base.withWorkers quit rings (i :: tables)
    (launchedBelow config distribution activePorts i)) ⟨nofun, rfl⟩ ?_
  refine .call (⟨0, 0⟩ : Returned) _ rfl ?_
  rw [List.range_succ, ← hst]
  exact .done _ _

/-- A worker whose fragment table cannot be created changes nothing. -/
theorem launchWorker_ends_error {i : Nat} {st : WorkersState} (lcore : BitVec 32)
    (hst : st.fragTables = List.range i) (hfails : F.tableFails i) :
    ∃ e, (launchWorker config distribution activePorts i lcore st).Ends (dpdkWorld F) s
      (.error e, st) s := by
  have hcontains := contains_fragTables hst
  apply Exists.intro
  unfold launchWorker prepareFragTable
  refine .call 0 s rfl ?_
  simp only [hcontains]
  exact .call (.error ⟨12, "Cannot allocate memory"⟩) s ⟨fun _ ↦ hfails, rfl⟩ (.done _ _)

/-- The launch of the workers may end at the one whose fragment table cannot be created. -/
theorem launchWorkers_ends_error {rings tables : List Nat} {quit : Bool} {i worker : Nat}
    {st : WorkersState} {lcores : List (BitVec 32)} (hfirst : i ≤ worker)
    (hworker : worker < i + lcores.length) (hst : st.fragTables = List.range i)
    (hfails : F.tableFails worker) :
    ∃ e tables', (launchWorkers config distribution activePorts i lcores st).Ends (dpdkWorld F)
      (base.withWorkers quit rings tables (launchedBelow config distribution activePorts i))
      (.error e, { st with fragTables := List.range worker })
      (base.withWorkers quit rings tables'
        (launchedBelow config distribution activePorts worker)) := by
  induction lcores generalizing i st tables with
  | nil => exact absurd hworker (Nat.not_lt.mpr hfirst)
  | cons lcore lcores ih =>
      cases Nat.eq_or_lt_of_le hfirst with
      | inl heq =>
          subst heq
          obtain ⟨e, hlaunch⟩ := @launchWorker_ends_error F config
            (base.withWorkers quit rings tables (launchedBelow config distribution activePorts i))
            distribution activePorts i st lcore hst hfails
          refine ⟨e, tables, hlaunch.bind ?_⟩
          rw [← hst]
          exact .done _ _
      | inr hlt =>
          rw [List.length_cons, Nat.add_comm lcores.length, ← Nat.add_assoc] at hworker
          obtain ⟨e, tables', hrest⟩ := @ih (i :: tables) (i + 1)
            { st with fragTables := List.range (i + 1) } hlt hworker rfl
          exact ⟨e, tables', (launchWorker_ends lcore hst).bind hrest⟩

/-- `StartWorkers` with enough cores. -/
theorem startWorkers_ends_error {rings : List Nat} {quit : Bool} {worker : Nat}
    {st : WorkersState} (hworker : worker < config.workerCount.toNat)
    (hfails : F.tableFails worker) (hst : st.fragTables = [])
    (hstarted : st.workersStarted = false) :
    ∃ e tables, (startWorkers config distribution activePorts st).Ends (dpdkWorld F)
      (base.withWorkers quit rings [] [])
      (.error e, { st with fragTables := List.range worker })
      (base.withWorkers false rings tables
        (launchedBelow config distribution activePorts worker)) := by
  have hlength : (List.replicate config.workerCount.toNat 1#32).length =
      config.workerCount.toNat := List.length_replicate
  have htake : (List.replicate config.workerCount.toNat 1#32).take config.workerCount.toNat =
      List.replicate config.workerCount.toNat 1#32 := by
    rw [List.take_of_length_le hlength.le]
  obtain ⟨e, tables, hlaunch⟩ := @launchWorkers_ends_error F config base distribution activePorts
    rings [] false 0 worker st (List.replicate config.workerCount.toNat 1#32) (Nat.zero_le _)
    (by rwa [hlength, Nat.zero_add]) hst hfails
  refine ⟨e, tables, ?_⟩
  unfold startWorkers
  rw [if_neg (by rw [hstarted]; nofun)]
  refine .call (List.replicate config.workerCount.toNat 1#32) _ rfl ?_
  change Prog.Ends _ (if ((List.replicate _ _).take _).length ≠ _ then _ else _) _ _ _
  rw [htake, if_neg (not_not.mpr hlength)]
  refine .call () (base.withWorkers false rings [] []) rfl ?_
  exact hlaunch.bind (.done _ _)

/-! ## The modes -/

/-- The rings of a new pipeline may all be created. -/
theorem createRings_ends {size : BitVec 32} {quit : Bool} {workers rings : List Nat}
    {st : WorkersState} : ∃ rings', (createRings size workers st).Ends (dpdkWorld F)
      (base.withWorkers quit rings [] [])
      (.ok (), { st with dispatchRings := st.dispatchRings ++ workers })
      (base.withWorkers quit rings' [] []) := by
  induction workers generalizing st rings with
  | nil =>
      refine ⟨rings, ?_⟩
      rw [List.append_nil]
      exact .done _ _
  | cons worker workers ih =>
      obtain ⟨rings', hrest⟩ := @ih (worker :: rings)
        { st with dispatchRings := st.dispatchRings ++ [worker] }
      rw [List.append_assoc, List.singleton_append] at hrest
      exact ⟨rings', .call (.ok ()) (base.withWorkers quit (worker :: rings) [] []) rfl hrest⟩

/-- Either mode may end with workers in front of one without a fragment table. -/
theorem runUntilStopped_ends_error {env : EnvironmentState} {quit : Bool} {worker : Nat}
    (htransmit : config.workerCount ≤ config.transmitQueues)
    (hreceive : resolvePacketDistribution env config = .kQueue →
      config.workerCount ≤ config.receiveQueues)
    (hworker : worker < config.workerCount.toNat) (hfails : F.tableFails worker) :
    ∃ e st rings tables, (runUntilStopped config env {}).Ends (dpdkWorld F)
      (base.withWorkers quit [] [] []) (.error e, st)
      (base.withWorkers false rings tables (launchedBelow config
        (resolvePacketDistribution env config) env.activePorts worker)) ∧
      st.workersStarted = false ∧
      st.dispatchRings = if resolvePacketDistribution env config = .kFlowHash then
        List.range config.workerCount.toNat else [] := by
  have htransmit : ¬ config.transmitQueues < config.workerCount := BitVec.not_lt.mpr htransmit
  unfold runUntilStopped
  cases hmode : resolvePacketDistribution env config with
  | kFlowHash =>
      obtain ⟨rings, hcreate⟩ := @createRings_ends F base config.dispatchQueueSize quit
        (List.range config.workerCount.toNat) [] {}
      obtain ⟨e, tables, hstart⟩ := @startWorkers_ends_error F config base .kFlowHash
        env.activePorts rings quit worker { dispatchRings := List.range config.workerCount.toNat }
        hworker hfails rfl rfl
      refine ⟨e, { dispatchRings := List.range config.workerCount.toNat
                   fragTables := List.range worker }, rings, tables, ?_, rfl, rfl⟩
      change (runFlowHashDispatch config env {}).Ends _ _ _ _
      unfold runFlowHashDispatch
      rw [if_neg htransmit]
      exact hcreate.bind (hstart.bind (.done _ _))
  | kQueue =>
      obtain ⟨e, tables, hstart⟩ := @startWorkers_ends_error F config base .kQueue
        env.activePorts [] quit worker {} hworker hfails rfl rfl
      refine ⟨e, { fragTables := List.range worker }, [], tables, ?_, rfl, rfl⟩
      change (runMultiWorker config env {}).Ends _ _ _ _
      unfold runMultiWorker
      rw [if_neg (BitVec.not_lt.mpr (hreceive hmode)), if_neg htransmit]
      exact hstart.bind (.done _ _)

/-! ## The destructors -/

/-- The destructors, for this pipeline. -/
def destructors (st : WorkersState) (env : EnvironmentState) : Prog DpdkApi (Option Nat) :=
  destroyPipeline st >>= fun _ ↦ destroyEnvironment env >>= fun _ ↦ .done (some 0)

/-- The first call of the destructors when `workers_started_` is not set: it frees a ring, or there
is none and it stops a port. -/
theorem destructors_call {st : WorkersState} {env : EnvironmentState}
    (hstarted : st.workersStarted = false) (hinit : env.initialized = true)
    (hactive : env.activePorts ≠ []) (hrunning : s.running ≠ []) :
    ∃ c next, destructors st env = .call c next ∧ ¬ (dpdkWorld F).Allowed s c ∧
      ((∃ ring rings, st.dispatchRings = ring :: rings ∧ c = .ringFree ring) ∨
        st.dispatchRings = [] ∧ ∃ port ∈ env.activePorts, c = .ethDevStop port) := by
  unfold destructors destroyPipeline destroyDispatchRings destroyEnvironment
  rw [stopWorkers_of_not_started hstarted, if_pos hinit]
  change ∃ c next, ((freeRings st.dispatchRings >>= _) >>= _) = .call c next ∧ _
  cases st.dispatchRings with
  | cons ring rings =>
      exact ⟨_, _, rfl, fun hallowed ↦ hrunning hallowed.2, .inl ⟨ring, rings, rfl, rfl⟩⟩
  | nil =>
      obtain ⟨port, ports, hports⟩ := List.exists_cons_of_ne_nil hactive
      rw [hports]
      exact ⟨_, _, rfl, fun hallowed ↦ hrunning hallowed.2.2,
        .inr ⟨rfl, port, List.mem_cons_self, rfl⟩⟩

/-- The first worker polls, nobody has told it to stop, and `StopWorkers` will not, because
`workers_started_` is not set.  The destructors begin with the call `c`, which is not allowed: it
frees the ring of that worker in flow-hash mode, and stops one of its ports in queue mode. -/
structure Orphans (F : DpdkFaults) (one : ShiftOne) (config : Settings) (env : EnvironmentState)
    (t : Machine) (c : DpdkCall) : Prop where
  run : ∃ st next, ((mainProgram one config true true).runs (dpdkWorld F) (· = {})).Reach
    (destructors st env, t) ∧ st.workersStarted = false ∧ destructors st env = .call c next
  polls : launchedAt config.toWorkersConfig (resolvePacketDistribution env config.toWorkersConfig)
    env.activePorts 0 ∈ t.running
  quit : t.quit = false
  refused : ¬ (dpdkWorld F).Allowed t c
  taken : resolvePacketDistribution env config.toWorkersConfig = .kFlowHash ∧ c = .ringFree 0 ∨
    resolvePacketDistribution env config.toWorkersConfig = .kQueue ∧
      ∃ port ∈ env.activePorts, c = .ethDevStop port

/-- Behind a successful `init`, if the fragment table of a worker that is not the first cannot be
created, there is a run that leaves the first worker behind. -/
theorem exists_orphans {one : ShiftOne} {config : Settings} {env : EnvironmentState}
    {worker : Nat} (hinit : (initEnvironment one config).Ends (dpdkWorld F) {} (.ok env) s)
    (htransmit : config.spi.workerCount ≤ config.port.transmitQueues)
    (hreceive : resolvePacketDistribution env config.toWorkersConfig = .kQueue →
      config.spi.workerCount ≤ config.port.receiveQueues)
    (hnotFirst : 1 ≤ worker) (hworker : worker < config.spi.workerCount.toNat)
    (hfails : F.tableFails worker) : ∃ t c, Orphans F one config env t c := by
  have hensures (t : Machine) (ht : t = {}) := ht ▸ @initEnvironment_ensures F one config
  obtain ⟨hnone, -, hdone⟩ := Prog.Ensures.reach hensures (hinit.reach (.init ⟨rfl, rfl⟩))
  have hend := hdone _ rfl env rfl
  have hactive : env.activePorts ≠ [] := by
    cases hskip : env.skipPorts with
    | true =>
        rw [(hend.skipped hskip).1]
        nofun
    | false => exact (hend.ports hskip).2.2.1
  obtain ⟨e, st, rings, tables, hrun, hstarted, hrings⟩ := @runUntilStopped_ends_error F
    config.toWorkersConfig s env s.quit worker htransmit hreceive hworker hfails
  rw [← hnone.withWorkers_self] at hrun
  have hstart : ((mainProgram one config true true).runs (dpdkWorld F) (· = {})).Reach
      (mainProgram one config true true, {}) := .init ⟨rfl, rfl⟩
  have hsignals : (dpdk .installSignalHandlers).Ends (dpdkWorld F) s true s :=
    .call true s rfl (.done true s)
  have hlast := hrun.reach_bind (hsignals.reach_bind (hinit.reach_bind hstart))
  have hmem : launchedAt config.toWorkersConfig
      (resolvePacketDistribution env config.toWorkersConfig) env.activePorts 0 ∈
        launchedBelow config.toWorkersConfig
          (resolvePacketDistribution env config.toWorkersConfig) env.activePorts worker :=
    mem_launchedBelow.mpr ⟨0, hnotFirst, rfl⟩
  obtain ⟨c, next, hcall, hrefused, htaken⟩ := @destructors_call F
    (s.withWorkers false rings tables (launchedBelow config.toWorkersConfig
      (resolvePacketDistribution env config.toWorkersConfig) env.activePorts worker)) st env
    hstarted hend.initialized hactive (List.ne_nil_of_mem hmem)
  refine ⟨_, c, ⟨st, next, hlast, hstarted, hcall⟩, hmem, rfl, hrefused, ?_⟩
  rw [hrings] at htaken
  cases hmode : resolvePacketDistribution env config.toWorkersConfig with
  | kQueue =>
      rw [hmode, if_neg nofun] at htaken
      rcases htaken with ⟨ring, rings, hnil, -⟩ | ⟨-, hport⟩
      · cases hnil
      · exact .inr ⟨rfl, hport⟩
  | kFlowHash =>
      obtain ⟨n, hn⟩ : ∃ n, config.spi.workerCount.toNat = n + 1 :=
        Nat.exists_eq_add_one.mpr (Nat.zero_lt_of_lt hworker)
      have hrange : List.range config.toWorkersConfig.workerCount.toNat =
          0 :: (List.range n).map Nat.succ := by
        rw [show config.toWorkersConfig.workerCount.toNat = n + 1 from hn,
          List.range_succ_eq_map]
      rw [hmode, if_pos rfl, hrange] at htaken
      rcases htaken with ⟨ring, rings, hcons, hc⟩ | ⟨hnil, -⟩
      · obtain ⟨rfl, -⟩ := List.cons.inj hcons
        exact .inl ⟨rfl, hc⟩
      · cases hnil

/-! ## Exactly when no call is wrong -/

/-- What an accepted configuration says about the queues of the workers. -/
theorem queues_of_valid {config : DpdkConfig} (hinjector : config.pcapInjector.enabled = false)
    (h : validateWorkerQueueConfig config = .ok ()) :
    config.spi.workerCount ≤ config.port.transmitQueues ∧ 1 ≤ config.port.receiveQueues.toNat ∧
      (config.spi.packetDistribution = "queue" →
        config.spi.workerCount ≤ config.port.receiveQueues) := by
  unfold validateWorkerQueueConfig at h
  rw [hinjector] at h
  dsimp only at h
  split at h
  · cases h
  · rename_i hreceive
    iterate 5 (split at h; cases h)
    split at h
    · cases h
    · rename_i hqueue
      split at h
      · cases h
      · rename_i htransmit
        refine ⟨?_, ?_, fun hmode ↦ ?_⟩
        · exact BitVec.le_def.mpr (Nat.not_lt.mp fun hlt ↦ htransmit ⟨rfl, hlt⟩)
        · exact Nat.one_le_iff_ne_zero.mpr fun hzero ↦ hreceive ⟨rfl, hzero⟩
        · exact BitVec.le_def.mpr (Nat.not_lt.mp fun hlt ↦ hqueue ⟨rfl, hmode, hlt⟩)

/-- Queue mode has a receive queue for every worker, unless `auto` chose it for a PCAP port. -/
theorem receiveQueues_of_kQueue {config : Settings} {env : EnvironmentState}
    (hinjector : config.pcapInjector.enabled = false)
    (hvalid : validateWorkerQueueConfig config.toDpdkConfig = .ok ())
    (hpcap : env.hasPcapPort = false)
    (hmode : resolvePacketDistribution env config.toWorkersConfig = .kQueue) :
    config.spi.workerCount ≤ config.port.receiveQueues := by
  obtain ⟨-, hpos, hqueue⟩ := @queues_of_valid config.toDpdkConfig hinjector hvalid
  unfold resolvePacketDistribution at hmode
  split at hmode
  · rename_i h
    exact hqueue h
  · split at hmode
    · cases hmode
    · split at hmode
      · rename_i hone
        exact BitVec.le_def.mpr (Nat.le_trans (BitVec.le_def.mp hone) hpos)
      · rw [hpcap] at hmode
        split at hmode
        · cases hmode
        · rw [if_neg nofun] at hmode
          split at hmode
          · cases hmode
          · split at hmode
            · cases hmode
            · rename_i hlt
              exact BitVec.not_lt.mp hlt

/-- With a configuration that is accepted, behind an `init` that may succeed without a PCAP port:
no run makes a call that is not allowed if and only if no worker but the first can be left without
a fragment table.  If one can, there is a run that leaves the first worker behind, and the next
call takes its ring or one of its ports away. -/
theorem calls_allowed_iff {one : ShiftOne} {config : Settings} {env : EnvironmentState}
    (hinjector : config.pcapInjector.enabled = false)
    (hvalid : validateWorkerQueueConfig config.toDpdkConfig = .ok ())
    (hinit : (initEnvironment one config).Ends (dpdkWorld F) {} (.ok env) s)
    (hpcap : env.hasPcapPort = false) :
    ((∀ t c next, ((mainProgram one config true true).runs (dpdkWorld F) (· = {})).Reach
      (.call c next, t) → (dpdkWorld F).Allowed t c) ↔
      ∀ worker, 1 ≤ worker → worker < config.spi.workerCount.toNat → ¬ F.tableFails worker) ∧
      ∀ worker, 1 ≤ worker → worker < config.spi.workerCount.toNat → F.tableFails worker →
        ∃ t c, Orphans F one config env t c := by
  have horphans : ∀ worker, 1 ≤ worker → worker < config.spi.workerCount.toNat →
      F.tableFails worker → ∃ t c, Orphans F one config env t c :=
    fun worker ↦ exists_orphans hinit (@queues_of_valid config.toDpdkConfig hinjector hvalid).1
      (receiveQueues_of_kQueue hinjector hvalid hpcap)
  refine ⟨⟨fun hallowed worker hnotFirst hworker hfails ↦ ?_, fun hfails t c next hreach ↦ ?_⟩,
    horphans⟩
  · obtain ⟨t, c, horphan⟩ := horphans worker hnotFirst hworker hfails
    obtain ⟨st, next, hreach, -, hcall⟩ := horphan.run
    exact horphan.refused (hallowed t c next (hcall ▸ hreach))
  · have hensures (t : Machine) (ht : t = {}) :=
      ht ▸ mainProgram_ensures one config true true hinjector hfails
    exact (Prog.Ensures.reach hensures hreach).2.1 c next rfl

/-- The second of two workers gets no fragment table. -/
theorem calls_allowed_iff_twoWorkers :
    let F : DpdkFaults := ⟨(· = 1), fun _ ↦ False⟩
    (¬ ∀ s c next, ((mainProgram plainShift twoWorkers true true).runs (dpdkWorld F)
      (· = {})).Reach (.call c next, s) → (dpdkWorld F).Allowed s c) ∧
      ∃ env t c, Orphans F plainShift twoWorkers env t c := by
  obtain ⟨env, henv, hpcap⟩ : ∃ env, ((initEnvironment plainShift twoWorkers).eval dpdkAnswer
      {}).1 = .ok env ∧ env.hasPcapPort = false := ⟨_, rfl, by decide⟩
  have hinit := @Prog.ends_eval _ _ _ (dpdkWorld ⟨(· = 1), fun _ ↦ False⟩) {} dpdkAnswer
    answers_dpdkAnswer (initEnvironment plainShift twoWorkers)
  rw [henv] at hinit
  obtain ⟨hiff, horphans⟩ := calls_allowed_iff rfl (by decide) hinit hpcap
  refine ⟨fun hallowed ↦ ?_, env, horphans 1 le_rfl (by decide) rfl⟩
  exact hiff.mp hallowed 1 le_rfl (by decide) rfl

end DpdkSpi
