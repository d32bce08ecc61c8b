import DpdkSpi.Lib.Calls
import DpdkSpi.Packet.Rewrite
import DpdkSpi.Pipeline.Counters

/-!
# The calls that set up DPDK and take it down

The calls of `dpdk_environment.cpp` and of the life of the workers in `spi_pipeline.cpp`, and a
machine that answers them.  What the calls may answer is up to DPDK; which of them may be made, and
when, is what its documentation asks for.  A device is configured before its queues are set up,
it is started when all of them are, and nothing that a running core uses is taken away from it.
-/

namespace DpdkSpi

open Lib

/-! ## Values -/

/-- The result of a call, and the `errno` behind it. -/
structure Returned where
  ret : Int
  errno : Int := 0
deriving DecidableEq, Repr

/-- `rte_errno` behind a call that returned a null pointer, and its text. -/
structure RteError where
  errno : Int
  strerror : String
deriving DecidableEq, Repr

/-- `rte_eth_rxconf` and `rte_eth_txconf`: the offloads, and what is passed on as it is. -/
structure QueueConf where
  offloads : BitVec 64 := 0
  others : List Nat := []
deriving DecidableEq, Repr

/-- What is read of `rte_eth_dev_info`. -/
structure DevInfo where
  /-- No name for a null pointer. -/
  driverName : Option String := none
  maxRxQueues : BitVec 16 := 0
  maxTxQueues : BitVec 16 := 0
  flowTypeRssOffloads : BitVec 64 := 0
  txOffloadCapa : BitVec 64 := 0
  defaultRxconf : QueueConf := {}
  defaultTxconf : QueueConf := {}
deriving DecidableEq, Repr

/-- What is set of `rte_eth_conf`. -/
structure EthConf where
  rxOffloads : BitVec 64 := 0
  txOffloads : BitVec 64 := 0
  /-- `RTE_ETH_MQ_RX_RSS`. -/
  mqRxRss : Bool := false
  rssHf : BitVec 64 := 0
deriving DecidableEq, Repr

/-- A core that is launched: the loop it runs and what it reads of its context. -/
structure Launched where
  distribution : PacketDistribution
  workerId : Nat
  workerCount : Nat
  activePorts : List (BitVec 16)
deriving DecidableEq, Repr

/-! ## Calls -/

/-- The calls.  `packetLoop` stands for the loop of the main core, which ends when a signal says
so: over the ports, with the number of receive queues that a dispatcher polls. -/
inductive DpdkCall where
  | ealInit (args : List String)
  | ethDevCountAvail
  | pktmbufPoolCreate (name : String) (n cacheSize : BitVec 32) (dataRoomSize : BitVec 16)
  | ethDevInfoGet (port : BitVec 16)
  | ethDevConfigure (port receiveQueues transmitQueues : BitVec 16) (conf : EthConf)
  | ethDevAdjustNbRxTxDesc (port receiveDescriptors transmitDescriptors : BitVec 16)
  | ethMacaddrGet (port : BitVec 16)
  | ethRxQueueSetup (port queue descriptors : BitVec 16) (conf : QueueConf)
  | ethTxQueueSetup (port queue descriptors : BitVec 16) (conf : QueueConf)
  | ethDevStart (port : BitVec 16)
  | ethPromiscuousEnable (port : BitVec 16)
  | ethLinkGetNowait (port : BitVec 16)
  | delayMs (ms : BitVec 32)
  | ethDevStop (port : BitVec 16)
  | ethDevClose (port : BitVec 16)
  | ealCleanup
  /-- `sigaction`. -/
  | installSignalHandlers
  /-- `RTE_LCORE_FOREACH_WORKER`. -/
  | lcoreForeachWorker
  /-- A store to `worker_force_quit_`. -/
  | storeWorkerForceQuit (quit : Bool)
  | ringCreate (worker : Nat) (size : BitVec 32)
  | ringFree (worker : Nat)
  | ipFragTableCreate (worker : Nat) (maxCycles : BitVec 64)
  | ipFragTableDestroy (worker : Nat)
  | getTscHz
  | ealRemoteLaunch (launched : Launched) (lcore : BitVec 32)
  | ealMpWaitLcore
  | packetLoop (distribution : PacketDistribution) (workerCount : Nat)
      (activePorts : List (BitVec 16)) (receiveQueues : BitVec 16)

/-- What a call returns. -/
@[reducible] def DpdkCall.Answer : DpdkCall → Type
  | .ethDevCountAvail => BitVec 16
  | .pktmbufPoolCreate _ _ _ _ | .ringCreate _ _ | .ipFragTableCreate _ _ =>
      Except RteError Unit
  | .ethDevInfoGet _ => Returned × DevInfo
  | .ethDevAdjustNbRxTxDesc _ _ _ => Returned × BitVec 16 × BitVec 16
  | .ethMacaddrGet _ => Returned × EtherAddr
  | .ethLinkGetNowait _ => Returned × Bool
  | .delayMs _ | .ealCleanup | .storeWorkerForceQuit _ | .ringFree _ | .ipFragTableDestroy _
  | .ealMpWaitLcore | .packetLoop _ _ _ _ => Unit
  | .installSignalHandlers => Bool
  | .lcoreForeachWorker => List (BitVec 32)
  | .getTscHz => BitVec 64
  | _ => Returned

/-- The interface that the program is written against. -/
@[reducible] def DpdkApi : Interface := ⟨DpdkCall, DpdkCall.Answer⟩

/-! ## The machine -/

/-- A port, as its driver sees it. -/
structure PortState where
  /-- The numbers of queues it was configured for. -/
  queues : Option (BitVec 16 × BitVec 16) := none
  receiveQueues : List (BitVec 16) := []
  transmitQueues : List (BitVec 16) := []
  started : Bool := false
  promiscuous : Bool := false
  closed : Bool := false
deriving DecidableEq, Repr

/-- All queues that the port was configured for are set up. -/
def PortState.QueuesSet (p : PortState) (receiveQueues transmitQueues : BitVec 16) : Prop :=
  p.queues = some (receiveQueues, transmitQueues) ∧
    (∀ q, q < receiveQueues → q ∈ p.receiveQueues) ∧
      ∀ q, q < transmitQueues → q ∈ p.transmitQueues

/-- The process as DPDK sees it. -/
structure Machine where
  eal : Bool := false
  portCount : BitVec 16 := 0
  pool : Bool := false
  ports : BitVec 16 → PortState := fun _ ↦ {}
  quit : Bool := false
  /-- The rings of the dispatcher that exist, by worker. -/
  rings : List Nat := []
  /-- The fragment tables that exist, by worker. -/
  fragTables : List Nat := []
  /-- The cores that run a worker. -/
  running : List Launched := []

namespace Machine

/-- Another state of a port. -/
def setPort (s : Machine) (port : BitVec 16) (p : PortState) : Machine :=
  { s with ports := Function.update s.ports port p }

/-- A state of a port that comes from the one it has. -/
def updatePort (s : Machine) (port : BitVec 16) (f : PortState → PortState) : Machine :=
  s.setPort port (f (s.ports port))

@[simp] theorem ports_setPort_self (s : Machine) (port : BitVec 16) (p : PortState) :
    (s.setPort port p).ports port = p := Function.update_self ..

@[simp] theorem ports_setPort_of_ne (s : Machine) {port port' : BitVec 16} (h : port' ≠ port)
    (p : PortState) : (s.setPort port p).ports port' = s.ports port' :=
  Function.update_of_ne h ..

@[simp] theorem setPort_setPort (s : Machine) (port : BitVec 16) (p q : PortState) :
    (s.setPort port p).setPort port q = s.setPort port q :=
  congrArg (fun ports ↦ { s with ports }) (Function.update_idem ..)

@[simp] theorem setPort_ports (s : Machine) (port : BitVec 16) :
    s.setPort port (s.ports port) = s :=
  congrArg (fun ports ↦ { s with ports }) (Function.update_eq_self ..)

theorem updatePort_setPort (s : Machine) (port : BitVec 16) (p : PortState)
    (f : PortState → PortState) : (s.setPort port p).updatePort port f = s.setPort port (f p) := by
  rw [updatePort, ports_setPort_self, setPort_setPort]

/-- A port that a call may be about. -/
def HasPort (s : Machine) (port : BitVec 16) : Prop :=
  s.eal = true ∧ port < s.portCount ∧ (s.ports port).closed = false

/-- A started port with these numbers of queues, all set up. -/
def Serves (s : Machine) (port receiveQueues transmitQueues : BitVec 16) : Prop :=
  s.HasPort port ∧ (s.ports port).started = true ∧
    (s.ports port).QueuesSet receiveQueues transmitQueues

end Machine

/-- What the loop of a core uses is there: its fragment table, a receive queue of its own or the
rings, and a transmit queue of its own. -/
structure Launched.Supplied (l : Launched) (s : Machine) : Prop where
  fragTable : l.workerId ∈ s.fragTables
  ports : ∀ port ∈ l.activePorts, ∃ receiveQueues transmitQueues,
    s.Serves port receiveQueues transmitQueues ∧ l.workerId < transmitQueues.toNat ∧
      (l.distribution = .kQueue → l.workerId < receiveQueues.toNat)
  rings : l.distribution = .kFlowHash → ∀ worker < l.workerCount, worker ∈ s.rings

/-- The failures that the program cannot make good. -/
structure DpdkFaults where
  /-- The fragment table of a worker may not be created. -/
  tableFails : Nat → Prop
  /-- The driver of a port may refuse to stop it or to close it. -/
  stopFails : BitVec 16 → Prop

/-- How the machine answers. -/
def dpdkWorld (F : DpdkFaults) : World DpdkApi Machine where
  Allowed s c := match c with
    | .ealInit _ => s.eal = false
    | .ethDevCountAvail | .lcoreForeachWorker | .getTscHz => s.eal = true
    | .pktmbufPoolCreate _ _ _ _ => s.eal = true ∧ s.pool = false
    | .ethDevInfoGet port | .ethDevAdjustNbRxTxDesc port _ _ | .ethMacaddrGet port
    | .ethPromiscuousEnable port => s.HasPort port
    | .ethDevConfigure port _ _ _ => s.HasPort port ∧ (s.ports port).started = false
    | .ethRxQueueSetup port queue _ _ => s.HasPort port ∧ s.pool = true ∧
        (s.ports port).started = false ∧
          ∃ r t, (s.ports port).queues = some (r, t) ∧ queue < r
    | .ethTxQueueSetup port queue _ _ => s.HasPort port ∧ (s.ports port).started = false ∧
        ∃ r t, (s.ports port).queues = some (r, t) ∧ queue < t
    | .ethDevStart port => s.HasPort port ∧ (s.ports port).started = false ∧
        ∃ r t, (s.ports port).QueuesSet r t
    | .ethLinkGetNowait port => s.HasPort port ∧ (s.ports port).started = true
    -- no core may poll a device that is stopped or closed
    | .ethDevStop port => s.HasPort port ∧ (s.ports port).started = true ∧ s.running = []
    | .ethDevClose port => s.HasPort port ∧ s.running = []
    | .ealCleanup => s.eal = true ∧ s.running = []
    | .delayMs _ | .installSignalHandlers | .storeWorkerForceQuit _ => True
    | .ringCreate worker _ => s.eal = true ∧ worker ∉ s.rings
    | .ringFree worker => worker ∈ s.rings ∧ s.running = []
    | .ipFragTableCreate worker _ => s.eal = true ∧ worker ∉ s.fragTables
    | .ipFragTableDestroy worker => worker ∈ s.fragTables ∧
        ∀ l ∈ s.running, l.workerId ≠ worker
    | .ealRemoteLaunch launched _ => launched.Supplied s ∧
        ∀ l ∈ s.running, l.workerId ≠ launched.workerId
    -- a core that does not see the flag never returns
    | .ealMpWaitLcore => s.quit = true ∨ s.running = []
    | .packetLoop distribution workerCount activePorts receiveQueues =>
        (∀ worker < workerCount, (⟨distribution, worker, workerCount, activePorts⟩ : Launched) ∈
          s.running) ∧
        ∀ port ∈ activePorts, ∃ t, s.Serves port receiveQueues t
  Answers s c := match c with
    | .ealInit _ => fun r s' ↦ s' = if r.ret < 0 then s else { s with eal := true }
    | .ethDevCountAvail => fun n s' ↦ s' = { s with portCount := n }
    | .pktmbufPoolCreate _ _ _ _ => fun r s' ↦
        s' = if r.isOk then { s with pool := true } else s
    | .ethDevConfigure port rx tx _ => fun r s' ↦ s' = if r.ret < 0 then s else
        s.updatePort port fun p ↦
          { p with queues := some (rx, tx), receiveQueues := [], transmitQueues := [] }
    | .ethRxQueueSetup port queue _ _ => fun r s' ↦ s' = if r.ret < 0 then s else
        s.updatePort port fun p ↦ { p with receiveQueues := queue :: p.receiveQueues }
    | .ethTxQueueSetup port queue _ _ => fun r s' ↦ s' = if r.ret < 0 then s else
        s.updatePort port fun p ↦ { p with transmitQueues := queue :: p.transmitQueues }
    | .ethDevStart port => fun r s' ↦ s' = if r.ret < 0 then s else
        s.updatePort port fun p ↦ { p with started := true }
    | .ethPromiscuousEnable port => fun r s' ↦ s' = if r.ret ≠ 0 then s else
        s.updatePort port fun p ↦ { p with promiscuous := true }
    | .ethDevStop port => fun r s' ↦ (r.ret ≠ 0 → F.stopFails port) ∧
        s' = if r.ret ≠ 0 then s else s.updatePort port fun p ↦ { p with started := false }
    -- a port that is still started is not closed
    | .ethDevClose port => fun r s' ↦
        (r.ret ≠ 0 → F.stopFails port ∨ (s.ports port).started = true) ∧
        ((s.ports port).started = true → r.ret ≠ 0) ∧
        s' = if r.ret ≠ 0 then s else s.updatePort port fun p ↦ { p with closed := true }
    | .ealCleanup => fun _ s' ↦ s' = { s with eal := false }
    | .storeWorkerForceQuit quit => fun _ s' ↦ s' = { s with quit := quit }
    | .ringCreate worker _ => fun r s' ↦
        s' = if r.isOk then { s with rings := worker :: s.rings } else s
    | .ringFree worker => fun _ s' ↦ s' = { s with rings := s.rings.erase worker }
    | .ipFragTableCreate worker _ => fun r s' ↦ (r.isOk = false → F.tableFails worker) ∧
        s' = if r.isOk then { s with fragTables := worker :: s.fragTables } else s
    | .ipFragTableDestroy worker => fun _ s' ↦
        s' = { s with fragTables := s.fragTables.erase worker }
    | .ealRemoteLaunch launched _ => fun r s' ↦
        s' = if r.ret ≠ 0 then s else { s with running := launched :: s.running }
    | .ealMpWaitLcore => fun _ s' ↦ s' = { s with running := [] }
    | .ethDevInfoGet _ | .ethDevAdjustNbRxTxDesc _ _ _ | .ethMacaddrGet _ | .ethLinkGetNowait _
    | .delayMs _ | .installSignalHandlers | .lcoreForeachWorker | .getTscHz
    | .packetLoop _ _ _ _ => fun _ s' ↦ s' = s

end DpdkSpi
