import DpdkSpi.Process.Calls
import DpdkSpi.Settings

/-!
# Setting up the ports

`Environment::init` and the destructor, after `dpdk_environment.cpp`.  A call that fails ends
`init`, and what was set up so far stays as it is; the destructor takes down what a complete
`init` has set up, and nothing else.
-/

namespace DpdkSpi

open Lib

/-! ## Errors -/

/-- `DpdkError`. -/
structure DpdkError where
  message : String
  dpdkErrno : Int := 0
deriving DecidableEq, Repr

/-- The error of a call that is known by its name. -/
def Returned.error (r : Returned) (functionName : String) : DpdkError where
  message := s!"{functionName} failed (ret={r.ret})"
  dpdkErrno := r.errno

/-- `CheckNegativeResult`. -/
def checkNegativeResult (r : Returned) (functionName : String) : Except DpdkError Unit :=
  if r.ret < 0 then .error (r.error functionName) else .ok ()

/-- `CheckNonZeroResult`. -/
def checkNonZeroResult (r : Returned) (functionName : String) : Except DpdkError Unit :=
  if r.ret ≠ 0 then .error (r.error functionName) else .ok ()

/-! ## The command line of the EAL -/

/-- `BuildEalArgs`. -/
def buildEalArgs (eal : EalConfig) : List String :=
  ["dpdk_app", "-l", eal.cpuCoreList, "-n", toString eal.memoryChannels] ++
    (if eal.disableHugepages then ["--no-huge"] else []) ++
    (if !eal.memorySize.isEmpty then ["-m", eal.memorySize] else []) ++
    (if eal.legacyMemory then ["--legacy-mem"] else []) ++
    (if eal.disablePci then ["--no-pci"] else []) ++
    (eal.virtualDevices.flatMap fun vdev ↦ ["--vdev", vdev]) ++
    (if eal.processType ≠ "primary" then ["--proc-type", eal.processType] else []) ++
    (if !eal.filePrefix.isEmpty then ["--file-prefix", eal.filePrefix] else []) ++
    (if eal.logLevel ≠ "7" then ["--log-level", eal.logLevel] else [])

/-! ## The port mask -/

/-- The value of a list of hexadecimal digits. -/
def hexNumber (digits : List Char) : Nat := digits.foldl (fun n c ↦ 16 * n + hexValue c) 0

/-- A number in front of a text, as `strtoul` reads it in base 16 behind the sign, and what is
behind it; `0x` belongs to the number if a digit follows. -/
def hexPrefix (text : List Char) : Option (Nat × List Char) :=
  let body := match text with
    | '0' :: x :: c :: rest => if (x = 'x' || x = 'X') && isHexDigit c then c :: rest else text
    | _ => text
  match body.takeWhile isHexDigit with
  | [] => none
  | digits => some (hexNumber digits, body.dropWhile isHexDigit)

/-- `strtoul` in base 16, with the text behind the number; nothing if there is no number.  One
that does not fit saturates. -/
def strtoulHex (text : List Char) : Option (BitVec 64 × List Char) :=
  match text.dropWhile isSpace with
  | '-' :: rest => (hexPrefix rest).map fun r ↦
      (if r.1 < 2 ^ 64 then - BitVec.ofNat 64 r.1 else BitVec.allOnes 64, r.2)
  | '+' :: rest => (hexPrefix rest).map (saturate ·)
  | rest => (hexPrefix rest).map (saturate ·)
where
  /-- A number without a sign. -/
  saturate (r : Nat × List Char) : BitVec 64 × List Char :=
    (if r.1 < 2 ^ 64 then BitVec.ofNat 64 r.1 else BitVec.allOnes 64, r.2)

/-- `ParsePortMask`; the text ends at its first NUL. -/
def parsePortMask (mask : String) : Option (BitVec 32) :=
  match strtoulHex (mask.toList.takeWhile (· ≠ '\x00')) with
  | some (val, []) => some (val.setWidth 32)
  | _ => none

/-- A number as `{:x}` writes it. -/
def formatHex (n : BitVec 32) : String := String.ofList (Nat.toDigits 16 n.toNat)

/-- The ids that a loop over `std::uint16_t` below a bound goes through. -/
def idsBelow (n : BitVec 16) : List (BitVec 16) := (List.range n.toNat).map (BitVec.ofNat 16)

/-- What `1U << n` gives; the language says so only for less than 32. -/
structure ShiftOne where
  shl : BitVec 16 → BitVec 32
  shl_eq : ∀ n : BitVec 16, n.toNat < 32 → shl n = 1#32 <<< n.toNat

/-- `ValidatePortMask`. -/
def validatePortMask (one : ShiftOne) (config : PortSettings) (portCount : BitVec 16) :
    Except DpdkError (BitVec 32) :=
  match parsePortMask config.portBitmask with
  | none => .error { message := "Invalid port mask '" ++ config.portBitmask ++ "'" }
  | some mask =>
      let available := one.shl portCount - 1
      if mask &&& ~~~available ≠ 0 then
        .error { message := s!"Port mask 0x{formatHex mask} exceeds available ports " ++
          s!"(0x{formatHex available})" }
      else .ok mask

/-! ## The state of the environment -/

/-- `kSoftwareBackedDriverPrefixes`. -/
def kSoftwareBackedDriverPrefixes : List String :=
  ["net_af_packet", "net_pcap", "net_tap", "net_ring", "net_memif", "net_vhost", "net_virtio",
    "net_vmxnet3", "net_null", "net_softnic", "net_af_xdp"]

/-- `std::string_view::starts_with`. -/
def startsWith (text start : String) : Bool := start.toList.isPrefixOf text.toList

/-- `IsSoftwareBackedDriver`. -/
def isSoftwareBackedDriver (driverName : String) : Bool :=
  kSoftwareBackedDriverPrefixes.any (startsWith driverName)

/-- `PortRuntimeInfo`. -/
structure PortRuntimeInfo where
  driverName : String := ""
  rssOffloads : BitVec 64 := 0
  softwareBacked : Bool := false
deriving DecidableEq, Repr

/-- The members of `Environment` beside the configuration. -/
structure EnvironmentState where
  initialized : Bool := false
  skipPorts : Bool := false
  portCount : BitVec 16 := 0
  activePorts : List (BitVec 16) := []
  portMacAddrs : List EtherAddr := []
  portRuntimeInfos : List PortRuntimeInfo := []
deriving DecidableEq, Repr

/-- `HasSoftwareBackedPort`. -/
def EnvironmentState.hasSoftwareBackedPort (env : EnvironmentState) : Bool :=
  env.activePorts.any fun port ↦
    env.portRuntimeInfos[port.toNat]?.any PortRuntimeInfo.softwareBacked

/-- `ActivePortsSupportRss`. -/
def EnvironmentState.activePortsSupportRss (env : EnvironmentState) : Bool :=
  env.activePorts.all fun port ↦
    env.portRuntimeInfos[port.toNat]?.any fun info ↦ info.rssOffloads ≠ 0

/-- `HasPcapPort`. -/
def EnvironmentState.hasPcapPort (env : EnvironmentState) : Bool :=
  env.activePorts.any fun port ↦
    env.portRuntimeInfos[port.toNat]?.any fun info ↦ startsWith info.driverName "net_pcap"

/-- `StoreRuntimeInfo`. -/
def EnvironmentState.storeRuntimeInfo (env : EnvironmentState) (port : BitVec 16)
    (devInfo : DevInfo) : EnvironmentState :=
  let driverName := devInfo.driverName.getD ""
  { env with
    portRuntimeInfos := env.portRuntimeInfos.set port.toNat
      { driverName, rssOffloads := devInfo.flowTypeRssOffloads
        softwareBacked := isSoftwareBackedDriver driverName } }

/-! ## A port -/

/-- `kDefaultRssHash`: IPv4 and IPv6, their fragments, TCP and UDP over them. -/
def kDefaultRssHash : BitVec 64 := 0xf3c

/-- `RTE_ETH_TX_OFFLOAD_MBUF_FAST_FREE`. -/
def txOffloadMbufFastFree : BitVec 64 := 0x10000

/-- `ValidateQueueCounts`. -/
def validateQueueCounts (port : BitVec 16) (config : PortSettings) (devInfo : DevInfo) :
    Except DpdkError Unit :=
  if devInfo.maxRxQueues < config.receiveQueues then
    .error { message := s!"port {port.toNat} receive_queues={config.receiveQueues.toNat} " ++
      s!"exceeds PMD max_rx_queues={devInfo.maxRxQueues.toNat}" }
  else if devInfo.maxTxQueues < config.transmitQueues then
    .error { message := s!"port {port.toNat} transmit_queues={config.transmitQueues.toNat} " ++
      s!"exceeds PMD max_tx_queues={devInfo.maxTxQueues.toNat}" }
  else .ok ()

/-- `BuildPortConf`. -/
def buildPortConf (config : PortSettings) (devInfo : DevInfo) : EthConf :=
  let conf : EthConf :=
    { txOffloads :=
        if devInfo.txOffloadCapa &&& txOffloadMbufFastFree ≠ 0 then txOffloadMbufFastFree else 0 }
  let rssHf := kDefaultRssHash &&& devInfo.flowTypeRssOffloads
  if 1 < config.receiveQueues ∧ rssHf ≠ 0 then { conf with mqRxRss := true, rssHf } else conf

/-- `PortSetupInfo`. -/
structure PortSetupInfo where
  devInfo : DevInfo
  portConf : EthConf
  receiveDescriptors : BitVec 16
  transmitDescriptors : BitVec 16

/-- A call of DPDK. -/
abbrev dpdk (c : DpdkCall) : Prog DpdkApi c.Answer := Prog.perform (ι := DpdkApi) c

/-- A call that fails with a negative result. -/
def ifNegative (p : Prog DpdkApi Returned) (functionName : String) :
    Prog DpdkApi (Except DpdkError Unit) :=
  p >>= fun r ↦ .done (checkNegativeResult r functionName)

/-- A call that fails with a result other than zero. -/
def ifNonZero (p : Prog DpdkApi Returned) (functionName : String) :
    Prog DpdkApi (Except DpdkError Unit) :=
  p >>= fun r ↦ .done (checkNonZeroResult r functionName)

/-- `QueryDeviceInfo`. -/
def queryDeviceInfo (port : BitVec 16) : Prog DpdkApi (Except DpdkError DevInfo) :=
  dpdk (.ethDevInfoGet port) >>= fun r ↦
    .done ((checkNonZeroResult r.1 "rte_eth_dev_info_get").map fun _ ↦ r.2)

/-- `ApplyConfiguration`: the descriptor counts that the driver made of those configured. -/
def applyConfiguration (port : BitVec 16) (config : PortSettings) (portConf : EthConf) :
    Prog DpdkApi (Except DpdkError (BitVec 16 × BitVec 16)) :=
  (ifNegative (dpdk (.ethDevConfigure port config.receiveQueues config.transmitQueues portConf))
    "rte_eth_dev_configure").andThen fun _ ↦
  dpdk (.ethDevAdjustNbRxTxDesc port config.receiveDescriptors config.transmitDescriptors) >>=
    fun r ↦ .done
      ((checkNegativeResult r.1 "rte_eth_dev_adjust_nb_rx_tx_desc").map fun _ ↦ r.2)

/-- `RetrieveMacAddress`. -/
def retrieveMacAddress (port : BitVec 16) (env : EnvironmentState) :
    Prog DpdkApi (Except DpdkError EnvironmentState) :=
  dpdk (.ethMacaddrGet port) >>= fun r ↦
    .done ((checkNegativeResult r.1 "rte_eth_macaddr_get").map fun _ ↦
      { env with portMacAddrs := env.portMacAddrs.set port.toNat r.2 })

/-- `ConfigurePort`. -/
def configurePort (config : PortSettings) (port : BitVec 16) (env : EnvironmentState) :
    Prog DpdkApi (Except DpdkError (EnvironmentState × PortSetupInfo)) :=
  (queryDeviceInfo port).andThen fun devInfo ↦
  Prog.andThen (.done (validateQueueCounts port config devInfo)) fun _ ↦
  let portConf := buildPortConf config devInfo
  (applyConfiguration port config portConf).andThen fun descriptors ↦
  (retrieveMacAddress port (env.storeRuntimeInfo port devInfo)).andThen fun env ↦
  .done (.ok (env, {
    devInfo, portConf, receiveDescriptors := descriptors.1, transmitDescriptors := descriptors.2 }))

/-- `SetupReceiveQueues`. -/
def setupReceiveQueues (config : PortSettings) (port : BitVec 16) (info : PortSetupInfo) :
    Prog DpdkApi (Except DpdkError Unit) :=
  Prog.forEach (fun queue ↦
    ifNegative (dpdk (.ethRxQueueSetup port queue info.receiveDescriptors
      { info.devInfo.defaultRxconf with offloads := info.portConf.rxOffloads }))
      "rte_eth_rx_queue_setup") (idsBelow config.receiveQueues)

/-- `SetupTransmitQueues`. -/
def setupTransmitQueues (config : PortSettings) (port : BitVec 16) (info : PortSetupInfo) :
    Prog DpdkApi (Except DpdkError Unit) :=
  Prog.forEach (fun queue ↦
    ifNegative (dpdk (.ethTxQueueSetup port queue info.transmitDescriptors
      { info.devInfo.defaultTxconf with offloads := info.portConf.txOffloads }))
      "rte_eth_tx_queue_setup") (idsBelow config.transmitQueues)

/-- `SetupPort`. -/
def setupPort (config : PortSettings) (env : EnvironmentState) (port : BitVec 16) :
    Prog DpdkApi (Except DpdkError EnvironmentState) :=
  (configurePort config port env).andThen fun configured ↦
  (setupReceiveQueues config port configured.2).andThen fun _ ↦
  (setupTransmitQueues config port configured.2).andThen fun _ ↦
  (ifNegative (dpdk (.ethDevStart port)) "rte_eth_dev_start").andThen fun _ ↦
  (if config.promiscuous then
    ifNonZero (dpdk (.ethPromiscuousEnable port)) "rte_eth_promiscuous_enable"
  else .done (.ok ())).andThen fun _ ↦
  .done (.ok { configured.1 with activePorts := configured.1.activePorts ++ [port] })

/-! ## All ports -/

/-- Whether a port is in a mask. -/
def ShiftOne.inMask (one : ShiftOne) (mask : BitVec 32) (port : BitVec 16) : Bool :=
  mask &&& one.shl port ≠ 0

/-- `SetupPorts`; the counter of the ports is their number in `active_ports_`. -/
def setupPorts (one : ShiftOne) (config : PortSettings) (env : EnvironmentState) :
    Prog DpdkApi (Except DpdkError EnvironmentState) :=
  Prog.andThen (.done (validatePortMask one config env.portCount)) fun mask ↦
  (Prog.foldEach (fun (env : EnvironmentState × Nat) port ↦
    if one.inMask mask port then
      (setupPort config env.1 port).andThen fun env' ↦ .done (.ok (env', env.2 + 1))
    else .done (.ok env)) (idsBelow env.portCount) (env, 0)).andThen fun env ↦
  if env.2 = 0 then .done (.error { message := "No ports available after mask filtering" })
  else .done (.ok env.1)

/-- The loop over the ports in `CheckLinkStatus`. -/
def allPortsUp : List (BitVec 16) → Prog DpdkApi Bool
  | [] => .done true
  | port :: ports => dpdk (.ethLinkGetNowait port) >>= fun r ↦
      if r.1.ret < 0 || !r.2 then .done false else allPortsUp ports

/-- The polls that are left in `CheckLinkStatus`. -/
def pollLinks (config : PortSettings) (ports : List (BitVec 16)) : Nat → Prog DpdkApi Unit
  | 0 => .done ()
  | polls + 1 => allPortsUp ports >>= fun up ↦
      if up then .done ()
      else dpdk (.delayMs (BitVec.ofInt 32 config.linkCheckIntervalMs)) >>= fun _ ↦
        pollLinks config ports polls

/-- `CheckLinkStatus`, which reports no error. -/
def checkLinkStatus (config : PortSettings) (env : EnvironmentState) : Prog DpdkApi Unit :=
  pollLinks config env.activePorts (config.linkCheckMaxCount + 1).toNat

/-! ## The environment -/

/-- `InitEal`. -/
def initEal (config : Settings) (env : EnvironmentState) :
    Prog DpdkApi (Except DpdkError EnvironmentState) :=
  (ifNegative (dpdk (.ealInit (buildEalArgs config.eal))) "rte_eal_init").andThen fun _ ↦
  dpdk .ethDevCountAvail >>= fun (portCount : BitVec 16) ↦
  if portCount = 0 ∧ ¬ env.skipPorts then
    .done (.error { message := "No Ethernet ports available after EAL init" })
  else
    let env := if env.skipPorts then
        { env with portCount := 1, activePorts := env.activePorts ++ [0] }
      else { env with portCount }
    .done (.ok { env with
      portMacAddrs := List.replicate env.portCount.toNat 0
      portRuntimeInfos := List.replicate env.portCount.toNat {} })

/-- `CreateMempool`. -/
def createMempool (config : MempoolConfig) (env : EnvironmentState) :
    Prog DpdkApi (Except DpdkError Unit) :=
  dpdk (.pktmbufPoolCreate config.name
    (BitVec.ofNat 32 (max config.memoryBufferCount (env.portCount.toNat * 1024)))
    (BitVec.ofNat 32 config.cacheSize) (BitVec.ofNat 16 config.memoryBufferSize)) >>=
    fun (r : Except RteError Unit) ↦ .done (r.mapError fun e ↦
      { message := "rte_pktmbuf_pool_create '" ++ config.name ++ "' failed " ++
          s!"(rte_errno={e.errno}: {e.strerror})"
        dpdkErrno := e.errno })

/-- `Environment::init` on a new environment. -/
def initEnvironment (one : ShiftOne) (config : Settings) :
    Prog DpdkApi (Except DpdkError EnvironmentState) :=
  (initEal config { skipPorts := config.pcapInjector.enabled }).andThen fun env ↦
  (createMempool config.mempool env).andThen fun _ ↦
  if env.skipPorts then .done (.ok { env with initialized := true })
  else
    (setupPorts one config.port env).andThen fun env ↦
    checkLinkStatus config.port env >>= fun _ ↦ .done (.ok { env with initialized := true })

/-- The loop over the ports in `Cleanup`; an error is printed only. -/
def closePorts : List (BitVec 16) → Prog DpdkApi Unit
  | [] => .done ()
  | port :: ports => dpdk (.ethDevStop port) >>= fun _ ↦
      dpdk (.ethDevClose port) >>= fun _ ↦ closePorts ports

/-- `~Environment`, with `Cleanup`. -/
def destroyEnvironment (env : EnvironmentState) : Prog DpdkApi Unit :=
  if env.initialized then
    closePorts env.activePorts >>= fun _ ↦ dpdk .ealCleanup
  else .done ()

end DpdkSpi
