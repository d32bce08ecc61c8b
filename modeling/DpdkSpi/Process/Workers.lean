import DpdkSpi.Process.Setup

/-!
# Starting and stopping the workers

The rings, the fragment tables and the cores of the workers, after `spi_pipeline.cpp`: how
`RunUntilStopped` sets them up for the mode it chooses, and how it takes them down again.  The
workers run between their launch and the next `rte_eal_mp_wait_lcore`, while the main core goes
on.
-/

namespace DpdkSpi

open Lib

/-! ## The pipeline -/

/-- The part of `Pipeline` that outlives its functions: `dispatch_rings_`, the contexts that have
a fragment table, and `workers_started_`. -/
structure WorkersState where
  dispatchRings : List Nat := []
  fragTables : List Nat := []
  workersStarted : Bool := false
deriving DecidableEq, Repr

/-- What `Pipeline` takes of the configuration for its workers. -/
structure WorkersConfig where
  workerCount : BitVec 16
  packetDistribution : String
  dispatchQueueSize : BitVec 32
  fragmentTimeoutSec : BitVec 32
  receiveQueues : BitVec 16
  transmitQueues : BitVec 16
deriving DecidableEq, Repr

/-- The constructor of `Pipeline`, as far as its workers go. -/
def Settings.toWorkersConfig (config : Settings) : WorkersConfig where
  workerCount := config.spi.workerCount
  packetDistribution := config.spi.packetDistribution
  dispatchQueueSize := config.spi.dispatchQueueSize
  fragmentTimeoutSec := config.spi.fragmentTimeoutSec
  receiveQueues := config.port.receiveQueues
  transmitQueues := config.port.transmitQueues

/-- `fragment_timeout_cycles`, cut down so that it fits. -/
def fragmentTimeoutCycles (tscHz : BitVec 64) (timeoutSec : BitVec 32) : BitVec 64 :=
  let maxTimeoutSec := BitVec.allOnes 64 / tscHz
  let timeoutSec := timeoutSec.setWidth 64
  (if timeoutSec < maxTimeoutSec then timeoutSec else maxTimeoutSec) * tscHz

/-- `ResolvePacketDistribution`. -/
def resolvePacketDistribution (env : EnvironmentState) (config : WorkersConfig) :
    PacketDistribution :=
  if config.packetDistribution = "queue" then .kQueue
  else if config.packetDistribution = "flow_hash" then .kFlowHash
  else if config.workerCount ≤ 1 then .kQueue
  else if !env.activePortsSupportRss then .kFlowHash
  else if env.hasPcapPort then .kQueue
  else if env.hasSoftwareBackedPort then .kFlowHash
  else if config.receiveQueues < config.workerCount then .kFlowHash
  else .kQueue

/-! ## Rings -/

/-- The loop of `DestroyDispatchRings`. -/
def freeRings : List Nat → Prog DpdkApi Unit
  | [] => .done ()
  | worker :: workers => dpdk (.ringFree worker) >>= fun _ ↦ freeRings workers

/-- `DestroyDispatchRings`. -/
def destroyDispatchRings (st : WorkersState) : Prog DpdkApi WorkersState :=
  freeRings st.dispatchRings >>= fun _ ↦ .done { st with dispatchRings := [] }

/-- The loop of `CreateDispatchRings` over the workers that are left. -/
def createRings (size : BitVec 32) : List Nat → WorkersState →
    Prog DpdkApi (Except String Unit × WorkersState)
  | [], st => .done (.ok (), st)
  | worker :: workers, st => dpdk (.ringCreate worker size) >>= fun (r : Except RteError Unit) ↦
      match r with
      | .error e => destroyDispatchRings st >>= fun st ↦
          .done (.error (s!"rte_ring_create 'spi_dispatch_{worker}" ++ "' failed " ++
            s!"(rte_errno={e.errno}: {e.strerror})"), st)
      | .ok _ => createRings size workers
          { st with dispatchRings := st.dispatchRings ++ [worker] }

/-- `CreateDispatchRings`. -/
def createDispatchRings (config : WorkersConfig) (st : WorkersState) :
    Prog DpdkApi (Except String Unit × WorkersState) :=
  if st.dispatchRings ≠ [] then .done (.ok (), st)
  else createRings config.dispatchQueueSize (List.range config.workerCount.toNat) st

/-! ## Workers -/

/-- The fragment table that `PrepareWorkerContext` gives a context that has none. -/
def prepareFragTable (config : WorkersConfig) (worker : Nat) (st : WorkersState) :
    Prog DpdkApi (Except RteError WorkersState) :=
  dpdk .getTscHz >>= fun tscHz ↦
  if st.fragTables.contains worker then .done (.ok st)
  else
    dpdk (.ipFragTableCreate worker (fragmentTimeoutCycles tscHz config.fragmentTimeoutSec)) >>=
      fun (r : Except RteError Unit) ↦
        .done (r.map fun _ ↦ { st with fragTables := st.fragTables ++ [worker] })

/-- `LaunchWorker`. -/
def launchWorker (config : WorkersConfig) (distribution : PacketDistribution)
    (activePorts : List (BitVec 16)) (worker : Nat) (lcore : BitVec 32) (st : WorkersState) :
    Prog DpdkApi (Except String Unit × WorkersState) :=
  prepareFragTable config worker st >>= fun
    | .error e => .done (.error (s!"rte_ip_frag_table_create failed for worker {worker} " ++
        s!"(rte_errno={e.errno}: {e.strerror})"), st)
    | .ok st =>
        let launched : Launched :=
          { distribution, workerId := worker, workerCount := config.workerCount.toNat
            activePorts }
        dpdk (.ealRemoteLaunch launched lcore) >>= fun (r : Returned) ↦
        if r.ret = 0 then .done (.ok (), st)
        else
          dpdk (.storeWorkerForceQuit true) >>= fun _ ↦
          dpdk .ealMpWaitLcore >>= fun _ ↦
          .done (.error (s!"rte_eal_remote_launch worker {worker} on lcore {lcore.toNat} " ++
            s!"failed (ret={r.ret})"), st)

/-- The loop of `StartWorkers`, from a worker on. -/
def launchWorkers (config : WorkersConfig) (distribution : PacketDistribution)
    (activePorts : List (BitVec 16)) : Nat → List (BitVec 32) → WorkersState →
    Prog DpdkApi (Except String Unit × WorkersState)
  | _, [], st => .done (.ok (), st)
  | worker, lcore :: lcores, st =>
      launchWorker config distribution activePorts worker lcore st >>= fun
        | (.error e, st) => .done (.error e, st)
        | (.ok _, st) => launchWorkers config distribution activePorts (worker + 1) lcores st

/-- `StartWorkers`, with `GetWorkerLcores`. -/
def startWorkers (config : WorkersConfig) (distribution : PacketDistribution)
    (activePorts : List (BitVec 16)) (st : WorkersState) :
    Prog DpdkApi (Except String Unit × WorkersState) :=
  if st.workersStarted then .done (.ok (), st)
  else
    dpdk .lcoreForeachWorker >>= fun (lcores : List (BitVec 32)) ↦
    let workerLcores := lcores.take config.workerCount.toNat
    if workerLcores.length ≠ config.workerCount.toNat then
      .done (.error (s!"Need {config.workerCount.toNat} worker lcores, " ++
        s!"found {workerLcores.length}"), st)
    else
      dpdk (.storeWorkerForceQuit false) >>= fun _ ↦
      launchWorkers config distribution activePorts 0 workerLcores st >>= fun
        | (.error e, st) => .done (.error e, st)
        | (.ok _, st) => .done (.ok (), { st with workersStarted := true })

/-- The loop of `StopWorkers` over the contexts that have a fragment table. -/
def destroyFragTables : List Nat → Prog DpdkApi Unit
  | [] => .done ()
  | worker :: workers => dpdk (.ipFragTableDestroy worker) >>= fun _ ↦ destroyFragTables workers

/-- `StopWorkers`. -/
def stopWorkers (st : WorkersState) : Prog DpdkApi WorkersState :=
  if st.workersStarted then
    dpdk (.storeWorkerForceQuit true) >>= fun _ ↦
    dpdk .ealMpWaitLcore >>= fun _ ↦
    destroyFragTables st.fragTables >>= fun _ ↦
    .done { st with fragTables := [], workersStarted := false }
  else .done st

/-! ## Modes -/

/-- What both modes do once the queues are there: start the workers, run until a signal, stop
them. -/
def runWorkers (config : WorkersConfig) (distribution : PacketDistribution)
    (env : EnvironmentState) (st : WorkersState) :
    Prog DpdkApi (Except String Unit × WorkersState) :=
  startWorkers config distribution env.activePorts st >>= fun
    | (.error e, st) => .done (.error e, st)
    | (.ok _, st) =>
        dpdk (.packetLoop distribution config.workerCount.toNat env.activePorts
          config.receiveQueues) >>= fun _ ↦
        stopWorkers st >>= fun st ↦ .done (.ok (), st)

/-- `RunMultiWorker`. -/
def runMultiWorker (config : WorkersConfig) (env : EnvironmentState) (st : WorkersState) :
    Prog DpdkApi (Except String Unit × WorkersState) :=
  if config.receiveQueues < config.workerCount then
    .done (.error (s!"queue mode needs receive_queues >= worker_count " ++
      s!"({config.receiveQueues.toNat} < {config.workerCount.toNat})"), st)
  else if config.transmitQueues < config.workerCount then
    .done (.error (s!"queue mode needs transmit_queues >= worker_count " ++
      s!"({config.transmitQueues.toNat} < {config.workerCount.toNat})"), st)
  else runWorkers config .kQueue env st

/-- `RunFlowHashDispatch`. -/
def runFlowHashDispatch (config : WorkersConfig) (env : EnvironmentState) (st : WorkersState) :
    Prog DpdkApi (Except String Unit × WorkersState) :=
  if config.transmitQueues < config.workerCount then
    .done (.error (s!"flow_hash mode needs transmit_queues >= worker_count " ++
      s!"({config.transmitQueues.toNat} < {config.workerCount.toNat})"), st)
  else
    createDispatchRings config st >>= fun
      | (.error e, st) => .done (.error e, st)
      | (.ok _, st) => runWorkers config .kFlowHash env st

/-- `RunUntilStopped`. -/
def runUntilStopped (config : WorkersConfig) (env : EnvironmentState) (st : WorkersState) :
    Prog DpdkApi (Except String Unit × WorkersState) :=
  match resolvePacketDistribution env config with
  | .kFlowHash => runFlowHashDispatch config env st
  | .kQueue => runMultiWorker config env st

/-- `~Pipeline`. -/
def destroyPipeline (st : WorkersState) : Prog DpdkApi WorkersState :=
  stopWorkers st >>= destroyDispatchRings

/-! ## The process -/

/-- `main` behind `LoadConfig`: the rules compile or they do not, and the links of the groups to
the DPI are found or the constructor of `Pipeline` ends the process.  The exit code is nothing
for a process that is ended so. -/
def mainProgram (one : ShiftOne) (config : Settings) (compiles links : Bool) :
    Prog DpdkApi (Option Nat) :=
  initEnvironment one config >>= fun
    | .error _ => .done (some 1)
    | .ok env =>
        dpdk .installSignalHandlers >>= fun (installed : Bool) ↦
        if !installed || !compiles then
          destroyEnvironment env >>= fun _ ↦ .done (some 1)
        else if !links then .done none
        else
          runUntilStopped config.toWorkersConfig env {} >>= fun r ↦
          destroyPipeline r.2 >>= fun _ ↦
          -- an error of the pipeline is printed, and the process ends as it does without one
          destroyEnvironment env >>= fun _ ↦ .done (some 0)

end DpdkSpi
