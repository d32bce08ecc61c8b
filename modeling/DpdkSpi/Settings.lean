import DpdkSpi.Pipeline.Environment

/-!
# The whole configuration

Every section of `dpdk_config.hpp` with all its options and their defaults.  The sections that
the packet path reads are extended here by what is only checked, or only read at the start.
-/

namespace DpdkSpi

/-- `EalConfig`: what becomes the command line of the EAL. -/
structure EalConfig where
  cpuCoreList : String := "0-4"
  memoryChannels : Int := 4
  disableHugepages : Bool := false
  memorySize : String := ""
  legacyMemory : Bool := false
  disablePci : Bool := false
  processType : String := "primary"
  filePrefix : String := ""
  logLevel : String := "7"
  virtualDevices : List String := []
deriving DecidableEq, Repr

/-- `PortConfig`. -/
structure PortSettings extends PortConfig where
  portBitmask : String := "0x1"
  promiscuous : Bool := false
  receiveDescriptors : BitVec 16 := 1024
  transmitDescriptors : BitVec 16 := 1024
  linkCheckIntervalMs : Int := 100
  linkCheckMaxCount : Int := 90
deriving DecidableEq, Repr

/-- `MempoolConfig`. -/
structure MempoolConfig where
  name : String := "mbuf_pool"
  memoryBufferCount : Nat := 65536
  cacheSize : Nat := 256
  memoryBufferSize : Nat := 2176
deriving DecidableEq, Repr

/-- `L3ForwardConfig::QueueMapping`. -/
structure QueueMapping where
  portId : BitVec 16 := 0
  queueId : BitVec 16 := 0
  lcoreId : BitVec 32 := 0
deriving DecidableEq, Repr

/-- `L3ForwardConfig::Ipv6Route`. -/
structure Ipv6Route where
  destinationIpAddress : String := ""
  prefixLength : BitVec 16 := 128
  outputPort : BitVec 16 := 0
deriving DecidableEq, Repr

/-- `L3ForwardConfig`. -/
structure L3Settings extends L3ForwardConfig where
  lookupMethod : String := "lpm"
  ipv4RuleFile : String := ""
  ipv6RuleFile : String := ""
  ipv6Routes : List Ipv6Route := []
  queueMappings : List QueueMapping := []
  receiveBurstSize : BitVec 16 := 32
  transmitBurstSize : BitVec 16 := 32
  maxPacketLength : BitVec 32 := 0
  hashEntryNum : String := ""
  mode : String := "poll"
  eventQueueSchedule : String := "atomic"
  eventEthRxQueues : BitVec 16 := 1
  aclClassifyAlgorithm : String := "default"
deriving DecidableEq, Repr

/-- `AppConfig`. -/
structure AppConfig where
  burstSize : BitVec 16 := 32
  macUpdating : Bool := true
  timerPeriodSec : BitVec 32 := 10
deriving DecidableEq, Repr

/-- `SpiConfig`. -/
structure SpiSettings extends SpiConfig where
  dropUnmatched : Bool := false
  flowTtlSec : BitVec 32 := 300
  fragmentTimeoutSec : BitVec 32 := 60
  tcpReassembly : TcpReassemblyConfig := {}
  flowOverflowAction : String := "drop"
  rulePath : String := ""
deriving DecidableEq, Repr

/-- `PcapInjectorConfig`. -/
structure PcapInjectorSettings extends PcapInjectorConfig where
  pcapFile : String := ""
  loopCount : BitVec 32 := 1
  packetsPerSecond : BitVec 64 := 0
  maxPackets : BitVec 64 := 0
  receivePortId : BitVec 16 := 0
  injectBurstSize : BitVec 32 := 64
deriving DecidableEq, Repr

/-- `DpdkConfig`. -/
structure Settings where
  eal : EalConfig := {}
  port : PortSettings := {}
  mempool : MempoolConfig := {}
  app : AppConfig := {}
  l3Forward : L3Settings := {}
  spi : SpiSettings := {}
  dpi : DpiConfig := {}
  pcapInjector : PcapInjectorSettings := {}
deriving DecidableEq, Repr

/-- The options that the workers and their queues depend on. -/
def Settings.toDpdkConfig (config : Settings) : DpdkConfig where
  port := config.port.toPortConfig
  spi := config.spi.toSpiConfig
  pcapInjector := config.pcapInjector.toPcapInjectorConfig

end DpdkSpi
