import DpdkSpi.Types

/-!
# Configuration

The part of the configuration the modelled components read, after `dpdk_config.hpp`,
with the defaults of the source.
-/

namespace DpdkSpi

/-- A single filter: protocol, optional addresses and ports, and a label. -/
structure SpiFilterConfig where
  protocol : String := ""
  sourceIpAddress : Option String := none
  destinationIpAddress : Option String := none
  sourcePort : Option (BitVec 16) := none
  destinationPort : Option (BitVec 16) := none
  label : String := ""
deriving DecidableEq, Repr

/-- A filter group with precedence, action and a list of filters. -/
structure SpiFilterGroupConfig where
  name : String := ""
  precedence : BitVec 32 := 100
  action : String := "forward"
  filters : List SpiFilterConfig := []
  l7Required : Bool := false
  dpiFilterGroup : String := ""
deriving DecidableEq, Repr

/-- Bounds of the TCP byte-stream reassembly used for L7 inspection. -/
structure TcpReassemblyConfig where
  enabled : Bool := false
  idleTimeoutSec : BitVec 32 := 60
  maxConcurrentStreams : BitVec 32 := 16384
  maxBufferedBytesPerDirection : BitVec 32 := 16384
  maxOutOfOrderSegments : BitVec 16 := 32
  memoryBudgetMb : BitVec 32 := 256
  /-- Reject a flow when overlapping TCP bytes disagree. -/
  dropConflictingOverlap : Bool := true
deriving DecidableEq, Repr

/-- `kDefaultDispatchQueueSize`. -/
def kDefaultDispatchQueueSize : BitVec 32 := 8192

/-- Filter groups and worker settings. -/
structure SpiConfig where
  workerCount : BitVec 16 := 1
  packetDistribution : String := "auto"
  dispatchQueueSize : BitVec 32 := kDefaultDispatchQueueSize
  maxConcurrentFlows : BitVec 32 := 1000000
  maxCompilationThreads : Nat := 2
  maxAclBuildThreads : Nat := 2
  aclClassifyAlgorithm : String := "default"
  aclBuildMaxSizeMb : Nat := 0
  filterGroups : List SpiFilterGroupConfig := []
deriving DecidableEq, Repr

/-- A single DPI filter.  The hostname pattern is kept as its bytes: `*.facebook.com`,
`dns.google`, or `*` for catch-all. -/
structure DpiFilterConfig where
  hostnamePattern : List (BitVec 8) := []
  filterGroup : String := ""
  priority : BitVec 32 := 100
  label : String := ""
deriving DecidableEq, Repr

/-- L7 hostname classification. -/
structure DpiConfig where
  enabled : Bool := false
  filters : List DpiFilterConfig := []
deriving DecidableEq, Repr

/-- Number of queues of a port. -/
structure PortConfig where
  receiveQueues : BitVec 16 := 1
  transmitQueues : BitVec 16 := 1
deriving DecidableEq, Repr

/-- The switch of the packet injector. -/
structure PcapInjectorConfig where
  enabled : Bool := false
deriving DecidableEq, Repr

/-- The whole configuration. -/
structure DpdkConfig where
  port : PortConfig := {}
  spi : SpiConfig := {}
  pcapInjector : PcapInjectorConfig := {}
deriving DecidableEq, Repr

/-! ## Validation loops -/

/-- A validation loop: the first error of a list of indexed checks. -/
def validateAll {α : Type} (check : α → Nat → Except String Unit) : List α → (index : Nat) →
    Except String Unit
  | [], _ => .ok ()
  | a :: as, index => do
      check a index
      validateAll check as (index + 1)

/-- A loop succeeds if each check does, at the position of its member. -/
theorem validateAll_ok_iff {α : Type} {check : α → Nat → Except String Unit} {as : List α}
    {index : Nat} : validateAll check as index = .ok () ↔
      ∀ (i : Nat) a, as[i]? = some a → check a (index + i) = .ok () := by
  induction as generalizing index with
  | nil => exact iff_of_true rfl fun i a h ↦ by cases h
  | cons head as ih =>
      rw [validateAll]
      cases hcheck : check head index with
      | error e =>
          refine iff_of_false (fun h ↦ by cases h) fun h ↦ ?_
          have hzero := h 0 head rfl
          rw [Nat.add_zero, hcheck] at hzero
          cases hzero
      | ok u =>
          have hstep (i : Nat) : index + 1 + i = index + (i + 1) := by
            rw [Nat.add_assoc, Nat.add_comm 1 i]
          refine Iff.trans ih ⟨fun h i a hget ↦ ?_, fun h i a hget ↦ ?_⟩
          · cases i with
            | zero =>
                obtain rfl := Option.some.inj hget
                exact hcheck
            | succ i =>
                rw [← hstep]
                exact h i a hget
          · rw [hstep]
            exact h (i + 1) a hget

theorem validateAll_ok {α : Type} {check : α → Nat → Except String Unit} {as : List α}
    {index : Nat} (h : validateAll check as index = .ok ()) :
    ∀ a ∈ as, ∃ i, check a i = .ok () := by
  intro a ha
  obtain ⟨i, hget⟩ := List.getElem?_of_mem ha
  exact ⟨index + i, validateAll_ok_iff.mp h i a hget⟩

/-! ## Validation of workers and queues -/

/-- `IsSupportedPacketDistribution`. -/
def isSupportedPacketDistribution (mode : String) : Bool :=
  mode = "auto" || mode = "queue" || mode = "flow_hash"

/-- `IsPowerOfTwo`. -/
def isPowerOfTwo (value : BitVec 32) : Bool := value ≠ 0 && value &&& (value - 1) = 0

/-- `ValidateWorkerQueueConfig`. -/
def validateWorkerQueueConfig (config : DpdkConfig) : Except String Unit :=
  let injectorMode := config.pcapInjector.enabled
  let workerCount := config.spi.workerCount.toNat
  let receiveQueues := config.port.receiveQueues.toNat
  let transmitQueues := config.port.transmitQueues.toNat
  let dispatchQueueSize := config.spi.dispatchQueueSize.toNat
  if !injectorMode ∧ receiveQueues = 0 then
    .error "port.receive_queues must be greater than 0"
  else if !injectorMode ∧ transmitQueues = 0 then
    .error "port.transmit_queues must be greater than 0"
  else if workerCount = 0 then
    .error "spi.worker_count must be greater than 0"
  else if !isSupportedPacketDistribution config.spi.packetDistribution then
    .error "spi.packet_distribution must be 'auto', 'queue', or 'flow_hash'"
  else if !isPowerOfTwo config.spi.dispatchQueueSize then
    .error "spi.dispatch_queue_size must be a power of two greater than 0"
  else if dispatchQueueSize < workerCount then
    .error s!"spi.worker_count={workerCount} exceeds spi.dispatch_queue_size={dispatchQueueSize}"
  else if !injectorMode ∧ config.spi.packetDistribution = "queue" ∧ receiveQueues < workerCount then
    .error s!"spi.worker_count={workerCount} exceeds port.receive_queues={receiveQueues}"
  else if !injectorMode ∧ transmitQueues < workerCount then
    .error s!"spi.worker_count={workerCount} exceeds port.transmit_queues={transmitQueues}"
  else .ok ()

/-- An accepted configuration has a worker. -/
theorem workerCount_pos_of_valid {config : DpdkConfig}
    (h : validateWorkerQueueConfig config = .ok ()) : 1 ≤ config.spi.workerCount.toNat := by
  unfold validateWorkerQueueConfig at h
  dsimp only at h
  split at h
  · cases h
  · split at h
    · cases h
    · split at h
      · cases h
      · rename_i hzero
        exact Nat.one_le_iff_ne_zero.mpr hzero

end DpdkSpi
