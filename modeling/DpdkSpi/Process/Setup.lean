import DpdkSpi.Process.Ports

/-!
# What `init` leaves behind

Whatever DPDK answers, `init` makes its calls in the documented order, and it touches no port
outside the mask.  When it succeeds, the active ports are those of the mask, each of them started
with all its queues.
-/

namespace DpdkSpi

open Lib

variable {F : DpdkFaults} {config : PortSettings} {s : Machine} {port : BitVec 16}

/-! ## Lists of ids -/

theorem length_idsBelow (n : BitVec 16) : (idsBelow n).length = n.toNat := by
  rw [idsBelow, List.length_map, List.length_range]

theorem getElem?_idsBelow {n : BitVec 16} {i : Nat} {q : BitVec 16}
    (h : (idsBelow n)[i]? = some q) : q.toNat = i ∧ q < n := by
  rw [idsBelow, List.getElem?_map] at h
  obtain ⟨j, hj, rfl⟩ := Option.map_eq_some_iff.mp h
  obtain ⟨hi, rfl⟩ := List.getElem?_eq_some_iff.mp hj
  rw [List.length_range] at hi
  have hq : (BitVec.ofNat 16 i).toNat = i := by
    rw [BitVec.toNat_ofNat]
    exact Nat.mod_eq_of_lt (Nat.lt_trans hi n.isLt)
  rw [List.getElem_range, BitVec.lt_def, hq]
  exact ⟨rfl, hi⟩

theorem mem_idsBelow {n q : BitVec 16} : q ∈ idsBelow n ↔ q < n := by
  constructor
  · intro h
    obtain ⟨i, hi⟩ := List.getElem?_of_mem h
    exact (getElem?_idsBelow hi).2
  · intro h
    refine List.mem_map.mpr ⟨q.toNat, List.mem_range.mpr (BitVec.lt_def.mp h), ?_⟩
    simp only [BitVec.ofNat_toNat, BitVec.setWidth_eq]

theorem nodup_idsBelow (n : BitVec 16) : (idsBelow n).Nodup := by
  refine List.Nodup.map_on ?_ List.nodup_range
  intro i hi j hj hij
  have hi' := Nat.lt_trans (List.mem_range.mp hi) n.isLt
  have hj' := Nat.lt_trans (List.mem_range.mp hj) n.isLt
  have htoNat := congrArg BitVec.toNat hij
  rwa [BitVec.toNat_ofNat, BitVec.toNat_ofNat, Nat.mod_eq_of_lt hi', Nat.mod_eq_of_lt hj'] at htoNat

/-- The element of a loop goes behind those before it. -/
theorem take_idsBelow_succ {n : BitVec 16} {i : Nat} {q : BitVec 16}
    (h : (idsBelow n)[i]? = some q) :
    ((idsBelow n).take (i + 1)).reverse = q :: ((idsBelow n).take i).reverse := by
  rw [List.take_add_one, h, Option.toList_some, List.reverse_append, List.reverse_singleton,
    List.singleton_append]

/-! ## One port -/

/-- The port is the only thing that changes. -/
def OnlyPort (s : Machine) (port : BitVec 16) (s' : Machine) : Prop :=
  ∃ p, s' = s.setPort port p

/-- What a call needs to be about a port whose state is `p`. -/
theorem hasPort_setPort (heal : s.eal = true) (hport : port < s.portCount) {p : PortState}
    (hclosed : p.closed = false) : (s.setPort port p).HasPort port :=
  ⟨heal, hport, by rw [Machine.ports_setPort_self, hclosed]⟩

/-- A call that changes the port unless it fails. -/
theorem ensures_portCall {call : Prog DpdkApi Returned} {p : PortState}
    {f : PortState → PortState} {functionName : String}
    {R : Except DpdkError Unit → Machine → Prop}
    (h : call.Ensures (dpdkWorld F) (OnlyPort s port) (s.setPort port p) fun r s' ↦
      s' = if r.ret < 0 then s.setPort port p else (s.setPort port p).updatePort port f)
    (herror : ∀ e, R (.error e) (s.setPort port p)) (hok : R (.ok ()) (s.setPort port (f p))) :
    (ifNegative call functionName).Ensures (dpdkWorld F) (OnlyPort s port)
      (s.setPort port p) R := by
  refine h.bind fun r s' hs hr ↦ Prog.ensures_done hs ?_
  subst hr
  unfold checkNegativeResult
  split
  · exact herror _
  · rw [Machine.updatePort_setPort]
    exact hok

theorem onlyPort_of_eq_ite {p : PortState} {f : PortState → PortState} {b : Prop} [Decidable b]
    {s' : Machine}
    (h : s' = if b then s.setPort port p else (s.setPort port p).updatePort port f) :
    OnlyPort s port s' := by
  subst h
  split
  · exact ⟨p, rfl⟩
  · exact ⟨f p, Machine.updatePort_setPort ..⟩

/-- A call that changes nothing. -/
theorem ensures_query {c : DpdkCall} {I : Machine → Prop} (hI : I s)
    (hallowed : (dpdkWorld F).Allowed s c)
    (hanswers : ∀ r s', (dpdkWorld F).Answers s c r s' → s' = s) :
    (dpdk c).Ensures (dpdkWorld F) I s fun _ s' ↦ s' = s := by
  refine Prog.ensures_perform hI hallowed fun r s' hr ↦ ?_
  obtain rfl := hanswers r s' hr
  exact ⟨hI, rfl⟩

/-- A port that is configured, with so many of its queues set up. -/
def configuredPort (config : PortSettings) (receive transmit : Nat) : PortState where
  queues := some (config.receiveQueues, config.transmitQueues)
  receiveQueues := ((idsBelow config.receiveQueues).take receive).reverse
  transmitQueues := ((idsBelow config.transmitQueues).take transmit).reverse

/-- A port that `SetupPort` leaves behind. -/
def servingPort (config : PortSettings) : PortState :=
  { configuredPort config config.receiveQueues.toNat config.transmitQueues.toNat with
    started := true
    promiscuous := config.promiscuous }

theorem queuesSet_servingPort (config : PortSettings) :
    (servingPort config).QueuesSet config.receiveQueues config.transmitQueues := by
  have htake (n : BitVec 16) : (idsBelow n).take n.toNat = idsBelow n := by
    rw [← length_idsBelow n, List.take_length]
  refine ⟨rfl, fun q hq ↦ ?_, fun q hq ↦ ?_⟩
  · refine List.mem_reverse.mpr ?_
    rw [htake]
    exact mem_idsBelow.mpr hq
  · refine List.mem_reverse.mpr ?_
    rw [htake]
    exact mem_idsBelow.mpr hq

theorem queryDeviceInfo_ensures {I : Machine → Prop} (hI : I s) (hport : s.HasPort port) :
    (queryDeviceInfo port).Ensures (dpdkWorld F) I s fun _ s' ↦ s' = s := by
  have hquery := @ensures_query F s (.ethDevInfoGet port) I hI hport fun _ _ h ↦ h
  exact hquery.bind fun _ _ hs heq ↦ Prog.ensures_done hs heq

theorem retrieveMacAddress_ensures {I : Machine → Prop} (hI : I s) (hport : s.HasPort port)
    (env : EnvironmentState) :
    (retrieveMacAddress port env).Ensures (dpdkWorld F) I s fun r s' ↦ s' = s ∧
      ∀ env', r = .ok env' → ∃ mac,
        env' = { env with portMacAddrs := env.portMacAddrs.set port.toNat mac } := by
  have hquery := @ensures_query F s (.ethMacaddrGet port) I hI hport fun _ _ h ↦ h
  refine hquery.bind fun r s' hs heq ↦ ?_
  refine Prog.ensures_done hs ⟨heq, fun env' henv ↦ ⟨r.2, ?_⟩⟩
  unfold checkNegativeResult at henv
  split at henv
  · cases henv
  · cases henv
    rfl

theorem applyConfiguration_ensures (heal : s.eal = true) (hport : port < s.portCount)
    (conf : EthConf) :
    (applyConfiguration port config conf).Ensures (dpdkWorld F) (OnlyPort s port)
      (s.setPort port {}) fun r s' ↦
        ∀ descriptors, r = .ok descriptors → s' = s.setPort port (configuredPort config 0 0) := by
  have hconfigure := @ensures_portCall F s port
    (dpdk (.ethDevConfigure port config.receiveQueues config.transmitQueues conf)) {}
    (fun p ↦ { p with
      queues := some (config.receiveQueues, config.transmitQueues)
      receiveQueues := [], transmitQueues := [] }) "rte_eth_dev_configure"
    (fun r s' ↦ r = .ok () → s' = s.setPort port (configuredPort config 0 0))
  refine Prog.Ensures.andThen (hconfigure ?_ nofun fun _ ↦ rfl) (fun _ _ _ _ ↦ nofun) ?_
  · refine Prog.ensures_perform ⟨{}, rfl⟩ ⟨hasPort_setPort heal hport rfl, ?_⟩
      fun r s' hr ↦ ⟨onlyPort_of_eq_ite hr, hr⟩
    rw [Machine.ports_setPort_self]
  · intro _ s' hs hconfigured
    obtain rfl := hconfigured rfl
    have hadjust := @ensures_query F _ (.ethDevAdjustNbRxTxDesc port
      config.receiveDescriptors config.transmitDescriptors) (OnlyPort s port) hs
      (hasPort_setPort heal hport rfl) fun _ _ h ↦ h
    exact hadjust.bind fun r s' hs heq ↦ Prog.ensures_done hs fun _ _ ↦ heq

/-- What `SetupPort` makes of the environment. -/
def PortAdded (env : EnvironmentState) (port : BitVec 16) (env' : EnvironmentState) : Prop :=
  ∃ mac info, env' =
    { env with
      activePorts := env.activePorts ++ [port]
      portMacAddrs := env.portMacAddrs.set port.toNat mac
      portRuntimeInfos := env.portRuntimeInfos.set port.toNat info }

theorem configurePort_ensures (heal : s.eal = true) (hport : port < s.portCount)
    (env : EnvironmentState) :
    (configurePort config port env).Ensures (dpdkWorld F) (OnlyPort s port)
      (s.setPort port {}) fun r s' ↦ ∀ configured, r = .ok configured →
        s' = s.setPort port (configuredPort config 0 0) ∧ ∃ mac info, configured.1 =
          { env with
            portMacAddrs := env.portMacAddrs.set port.toNat mac
            portRuntimeInfos := env.portRuntimeInfos.set port.toNat info } := by
  have hfresh : OnlyPort s port (s.setPort port {}) := ⟨{}, rfl⟩
  have hquery := @queryDeviceInfo_ensures F _ _ _ hfresh
    (hasPort_setPort heal hport rfl)
  refine hquery.andThen (fun _ _ _ _ ↦ nofun) fun devInfo s' hs heq ↦ ?_
  subst heq
  refine Prog.Ensures.andThen (Prog.ensures_done (Q := fun _ s' ↦ s' = s.setPort port {}) hs rfl)
    (fun _ _ _ _ ↦ nofun) fun _ s' _ heq ↦ ?_
  subst heq
  refine (applyConfiguration_ensures heal hport _).andThen (fun _ _ _ _ ↦ nofun)
    fun descriptors s' hs hconfigured ↦ ?_
  obtain rfl := hconfigured _ rfl
  refine (retrieveMacAddress_ensures hs (hasPort_setPort heal hport rfl) _).andThen
    (fun _ _ _ _ ↦ nofun) fun env' s' hs hmac ↦ Prog.ensures_done hs fun configured hok ↦ ?_
  cases hok
  obtain ⟨rfl, hmac⟩ := hmac
  obtain ⟨mac, rfl⟩ := hmac env' rfl
  exact ⟨rfl, mac, _, rfl⟩

/-- A loop over the queues of a port, which is in the state `p i` in front of queue `i`. -/
theorem ensures_queueLoop {call : BitVec 16 → Prog DpdkApi Returned} {functionName : String}
    {n : BitVec 16} {p : Nat → PortState} {f : BitVec 16 → PortState → PortState}
    (hcall : ∀ i q, (idsBelow n)[i]? = some q →
      (call q).Ensures (dpdkWorld F) (OnlyPort s port) (s.setPort port (p i)) fun r s' ↦
        s' = if r.ret < 0 then s.setPort port (p i)
          else (s.setPort port (p i)).updatePort port (f q))
    (hf : ∀ i q, (idsBelow n)[i]? = some q → f q (p i) = p (i + 1)) :
    (Prog.forEach (fun q ↦ ifNegative (call q) functionName) (idsBelow n)).Ensures
      (dpdkWorld F) (OnlyPort s port) (s.setPort port (p 0)) fun r s' ↦
        r = .ok () → s' = s.setPort port (p n.toNat) := by
  have hloop := @Prog.ensures_forEach _ _ _ _ (dpdkWorld F) (OnlyPort s port)
    (s.setPort port (p 0)) (fun q ↦ ifNegative (call q) functionName) (idsBelow n)
    (fun i s' ↦ s' = s.setPort port (p i)) (fun _ _ ↦ True) 0 ⟨_, rfl⟩ rfl
  refine (hloop ?_).imp fun r s' _ hr hok ↦ ?_
  · intro i q s' hq _ heq
    rw [Nat.zero_add] at heq ⊢
    subst heq
    have hstep := @ensures_portCall F s port (call q) (p i) (f q) functionName
      (fun r s' ↦ r = .ok () → s' = s.setPort port (f q (p i))) (hcall i q hq) nofun fun _ ↦ rfl
    refine hstep.imp fun r s' _ hr ↦ ?_
    cases r with
    | error e => trivial
    | ok _ =>
        rw [← hf i q hq]
        exact hr rfl
  · subst hok
    rw [Nat.zero_add, length_idsBelow] at hr
    exact hr

theorem setupReceiveQueues_ensures (heal : s.eal = true) (hpool : s.pool = true)
    (hport : port < s.portCount) (info : PortSetupInfo) :
    (setupReceiveQueues config port info).Ensures (dpdkWorld F) (OnlyPort s port)
      (s.setPort port (configuredPort config 0 0)) fun r s' ↦ r = .ok () →
        s' = s.setPort port (configuredPort config config.receiveQueues.toNat 0) := by
  refine @ensures_queueLoop F s port _ _ _ (fun i ↦ configuredPort config i 0)
    (fun q p ↦ { p with receiveQueues := q :: p.receiveQueues }) ?_ ?_
  · intro i q hq
    refine Prog.ensures_perform ⟨_, rfl⟩ ⟨hasPort_setPort heal hport rfl, hpool, ?_, ?_⟩
      fun r s' hr ↦ ⟨onlyPort_of_eq_ite hr, hr⟩
    · rw [Machine.ports_setPort_self]
      rfl
    · rw [Machine.ports_setPort_self]
      exact ⟨_, _, rfl, (getElem?_idsBelow hq).2⟩
  · intro i q hq
    simp only [configuredPort, take_idsBelow_succ hq]

theorem setupTransmitQueues_ensures (heal : s.eal = true) (hport : port < s.portCount)
    (receive : Nat) (info : PortSetupInfo) :
    (setupTransmitQueues config port info).Ensures (dpdkWorld F) (OnlyPort s port)
      (s.setPort port (configuredPort config receive 0)) fun r s' ↦ r = .ok () →
        s' = s.setPort port (configuredPort config receive config.transmitQueues.toNat) := by
  refine @ensures_queueLoop F s port _ _ _ (configuredPort config receive)
    (fun q p ↦ { p with transmitQueues := q :: p.transmitQueues }) ?_ ?_
  · intro i q hq
    refine Prog.ensures_perform ⟨_, rfl⟩ ⟨hasPort_setPort heal hport rfl, ?_, ?_⟩
      fun r s' hr ↦ ⟨onlyPort_of_eq_ite hr, hr⟩
    · rw [Machine.ports_setPort_self]
      rfl
    · rw [Machine.ports_setPort_self]
      exact ⟨_, _, rfl, (getElem?_idsBelow hq).2⟩
  · intro i q hq
    simp only [configuredPort, take_idsBelow_succ hq]

/-- The last step of `SetupPort`, on a started port. -/
theorem enablePromiscuous_ensures (heal : s.eal = true) (hport : port < s.portCount) :
    (if config.promiscuous then
      ifNonZero (dpdk (.ethPromiscuousEnable port)) "rte_eth_promiscuous_enable"
      else .done (.ok ())).Ensures (dpdkWorld F) (OnlyPort s port)
      (s.setPort port { servingPort config with promiscuous := false }) fun r s' ↦
        r = .ok () → s' = s.setPort port (servingPort config) := by
  split
  · rename_i hpromiscuous
    refine ⟨⟨_, rfl⟩, hasPort_setPort heal hport rfl, fun r s' hr ↦
      Prog.ensures_done (onlyPort_of_eq_ite hr) ?_⟩
    unfold checkNonZeroResult
    split
    · nofun
    · rename_i hzero
      intro _
      rw [hr, if_neg hzero, Machine.updatePort_setPort]
      simp only [servingPort, hpromiscuous]
  · rename_i hplain
    refine Prog.ensures_done ⟨_, rfl⟩ fun _ ↦ ?_
    simp only [servingPort, hplain]

/-- A port of the mask is left serving, if nothing fails. -/
theorem setupPort_ensures (heal : s.eal = true) (hpool : s.pool = true)
    (hport : port < s.portCount) (hfresh : s.ports port = {}) (env : EnvironmentState) :
    (setupPort config env port).Ensures (dpdkWorld F) (OnlyPort s port) s fun r s' ↦
      ∀ env', r = .ok env' → s' = s.setPort port (servingPort config) ∧
        PortAdded env port env' := by
  have hself : s.setPort port {} = s := by rw [← hfresh, Machine.setPort_ports]
  suffices h : (setupPort config env port).Ensures (dpdkWorld F) (OnlyPort s port)
      (s.setPort port {}) fun r s' ↦ ∀ env', r = .ok env' →
        s' = s.setPort port (servingPort config) ∧ PortAdded env port env' by
    rwa [hself] at h
  refine (configurePort_ensures heal hport env).andThen (fun _ _ _ _ ↦ nofun)
    fun configured s' hs hconfigured ↦ ?_
  obtain ⟨rfl, mac, info, henv⟩ := hconfigured _ rfl
  refine (setupReceiveQueues_ensures heal hpool hport _).andThen (fun _ _ _ _ ↦ nofun)
    fun _ s' _ hreceive ↦ ?_
  obtain rfl := hreceive rfl
  refine (setupTransmitQueues_ensures heal hport _ _).andThen (fun _ _ _ _ ↦ nofun)
    fun _ s' hs htransmit ↦ ?_
  obtain rfl := htransmit rfl
  have hset := queuesSet_servingPort config
  have hstart := @ensures_portCall F s port (dpdk (.ethDevStart port))
    (configuredPort config config.receiveQueues.toNat config.transmitQueues.toNat)
    (fun p ↦ { p with started := true }) "rte_eth_dev_start"
    (fun r s' ↦ r = .ok () →
      s' = s.setPort port { servingPort config with promiscuous := false })
  refine (hstart ?_ nofun fun _ ↦ rfl).andThen (fun _ _ _ _ ↦ nofun) fun _ s' hs hstarted ↦ ?_
  · refine Prog.ensures_perform hs ⟨hasPort_setPort heal hport rfl, ?_, ?_⟩
      fun r s' hr ↦ ⟨onlyPort_of_eq_ite hr, hr⟩
    · rw [Machine.ports_setPort_self]
      rfl
    · rw [Machine.ports_setPort_self]
      exact ⟨_, _, hset⟩
  · obtain rfl := hstarted rfl
    refine (enablePromiscuous_ensures heal hport).andThen (fun _ _ _ _ ↦ nofun)
      fun _ s' hs hserving ↦ ?_
    refine Prog.ensures_done hs fun env' henv' ↦ ⟨hserving rfl, ?_⟩
    cases henv'
    exact ⟨mac, info, by rw [henv]⟩

/-! ## All ports -/

/-- The mask of a configuration, if it has one. -/
def PortSettings.mask (config : PortSettings) : BitVec 32 :=
  (parsePortMask config.portBitmask).getD 0

/-- Nothing has changed but ports of the mask. -/
def OnlyMask (one : ShiftOne) (config : PortSettings) (s s' : Machine) : Prop :=
  ∃ ports, s' = { s with ports } ∧ ∀ p, one.inMask config.mask p = false → ports p = {}

/-- The active ports serve, and the others have not changed. -/
def PortsServe (config : PortSettings) (active : List (BitVec 16)) (s s' : Machine) : Prop :=
  ∃ ports, s' = { s with ports } ∧ (∀ p ∈ active, ports p = servingPort config) ∧
    ∀ p ∉ active, ports p = {}

/-- The active ports are those of a list that are in the mask, and the tables by port have their
length. -/
structure EnvironmentState.Selects (env : EnvironmentState) (one : ShiftOne)
    (config : PortSettings) (n : BitVec 16) (front : List (BitVec 16)) : Prop where
  skipPorts : env.skipPorts = false
  portCount : env.portCount = n
  activePorts : env.activePorts = front.filter (one.inMask config.mask)
  macs : env.portMacAddrs.length = n.toNat
  infos : env.portRuntimeInfos.length = n.toNat

theorem EnvironmentState.Selects.skip {env : EnvironmentState} {one : ShiftOne}
    {n : BitVec 16} {front : List (BitVec 16)} (h : env.Selects one config n front)
    (hmask : one.inMask config.mask port = false) :
    env.Selects one config n (front ++ [port]) where
  skipPorts := h.skipPorts
  portCount := h.portCount
  activePorts := by
    rw [List.filter_append, List.filter_cons_of_neg (by rw [hmask]; nofun), List.filter_nil,
      List.append_nil]
    exact h.activePorts
  macs := h.macs
  infos := h.infos

theorem EnvironmentState.Selects.add {env env' : EnvironmentState} {one : ShiftOne}
    {n : BitVec 16} {front : List (BitVec 16)} (h : env.Selects one config n front)
    (hmask : one.inMask config.mask port = true) (hadded : PortAdded env port env') :
    env'.Selects one config n (front ++ [port]) := by
  obtain ⟨mac, info, rfl⟩ := hadded
  exact {
    skipPorts := h.skipPorts
    portCount := h.portCount
    activePorts := by
      rw [List.filter_append, List.filter_cons_of_pos hmask, List.filter_nil, h.activePorts]
    macs := by
      rw [List.length_set]
      exact h.macs
    infos := by
      rw [List.length_set]
      exact h.infos }

/-- What a port leaves behind is what the loop needs in front of the next. -/
theorem PortsServe.add {active : List (BitVec 16)} {s' : Machine}
    (h : PortsServe config active s s') :
    PortsServe config (active ++ [port]) s (s'.setPort port (servingPort config)) := by
  obtain ⟨ports, rfl, hactive, hother⟩ := h
  refine ⟨Function.update ports port (servingPort config), rfl, fun p hp ↦ ?_, fun p hp ↦ ?_⟩
  · by_cases hport : p = port
    · subst hport
      exact Function.update_self ..
    · rw [Function.update_of_ne hport]
      refine hactive p ((List.mem_append.mp hp).resolve_right fun hp ↦ ?_)
      exact hport (List.mem_singleton.mp hp)
  · have hport : p ≠ port := by
      rintro rfl
      exact hp (List.mem_append_right _ (List.mem_singleton_self p))
    rw [Function.update_of_ne hport]
    exact hother p fun hmem ↦ hp (List.mem_append_left _ hmem)

theorem OnlyMask.onlyPort {one : ShiftOne} {s' s'' : Machine} (h : OnlyMask one config s s')
    (hmask : one.inMask config.mask port = true) (hport : OnlyPort s' port s'') :
    OnlyMask one config s s'' := by
  obtain ⟨ports, rfl, hports⟩ := h
  obtain ⟨p, rfl⟩ := hport
  refine ⟨Function.update ports port p, rfl, fun q hq ↦ ?_⟩
  have hne : q ≠ port := by
    rintro rfl
    rw [hmask] at hq
    cases hq
  rw [Function.update_of_ne hne]
  exact hports q hq

/-- What the loop of `SetupPorts` has done behind the ports of `front`. -/
structure SetupLoop (one : ShiftOne) (config : PortSettings) (s : Machine)
    (front : List (BitVec 16)) (env : EnvironmentState × Nat) (s' : Machine) : Prop where
  serve : PortsServe config env.1.activePorts s s'
  selects : env.1.Selects one config s.portCount front
  number : env.2 = env.1.activePorts.length

/-- One port of the loop. -/
theorem setupPorts_step {one : ShiftOne} (heal : s.eal = true) (hpool : s.pool = true)
    {front back : List (BitVec 16)} {env : EnvironmentState × Nat} {s' : Machine}
    (hlist : front ++ port :: back = idsBelow s.portCount) (hs : OnlyMask one config s s')
    (h : SetupLoop one config s front env s') :
    (if one.inMask config.mask port then
        (setupPort config env.1 port).andThen fun env' ↦ .done (.ok (env', env.2 + 1))
      else .done (.ok env)).Ensures (dpdkWorld F) (OnlyMask one config s) s'
        fun r s'' ↦ ∀ env', r = .ok env' → SetupLoop one config s (front ++ [port]) env' s'' := by
  split
  · rename_i hmask
    have hnotMem : port ∉ env.1.activePorts := by
      rw [h.selects.activePorts]
      intro hmem
      have hnodup := nodup_idsBelow s.portCount
      rw [← hlist] at hnodup
      have hdisjoint := (List.nodup_append.mp hnodup).2.2
      exact hdisjoint _ (List.mem_filter.mp hmem).1 _ List.mem_cons_self rfl
    have hlt : port < s.portCount := by
      refine mem_idsBelow.mp ?_
      rw [← hlist]
      exact List.mem_append_right _ List.mem_cons_self
    obtain ⟨ports, rfl, hserving, hfresh⟩ := h.serve
    have hport := @setupPort_ensures F config { s with ports } port heal hpool hlt
      (hfresh port hnotMem) env.1
    refine (hport.mono (fun _ ↦ hs.onlyPort hmask) fun _ _ _ hr ↦ hr).andThen
      (fun _ _ _ _ ↦ nofun) fun env' s'' hs' hok ↦ ?_
    obtain ⟨rfl, hadded⟩ := hok _ rfl
    refine Prog.ensures_done hs' fun env'' henv'' ↦ ?_
    cases henv''
    have hactive : env'.activePorts = env.1.activePorts ++ [port] := by
      obtain ⟨mac, info, rfl⟩ := hadded
      rfl
    exact {
      serve := by
        rw [hactive]
        exact PortsServe.add ⟨ports, rfl, hserving, hfresh⟩
      selects := h.selects.add hmask hadded
      number := by rw [hactive, List.length_append, List.length_singleton, h.number] }
  · rename_i hmask
    refine Prog.ensures_done hs fun env' henv' ↦ ?_
    cases henv'
    exact { h with selects := h.selects.skip (Bool.not_eq_true _ ▸ hmask) }

/-- `SetupPorts` on a machine whose ports are all new. -/
theorem setupPorts_ensures {one : ShiftOne} (heal : s.eal = true) (hpool : s.pool = true)
    (hfresh : ∀ p, s.ports p = {}) {env : EnvironmentState}
    (henv : env.Selects one config s.portCount []) :
    (setupPorts one config env).Ensures (dpdkWorld F) (OnlyMask one config s) s
      fun r s' ↦ ∀ env', r = .ok env' → PortsServe config env'.activePorts s s' ∧
        env'.activePorts ≠ [] ∧ env'.Selects one config s.portCount (idsBelow s.portCount) := by
  have hbase : OnlyMask one config s s := ⟨s.ports, rfl, fun p _ ↦ hfresh p⟩
  have hvalid : (Prog.done (validatePortMask one config env.portCount) :
      Prog DpdkApi _).Ensures (dpdkWorld F) (OnlyMask one config s) s fun r s' ↦
        s' = s ∧ ∀ mask, r = .ok mask → mask = config.mask := by
    refine Prog.ensures_done hbase ⟨rfl, fun mask hmask ↦ ?_⟩
    unfold validatePortMask at hmask
    unfold PortSettings.mask
    split at hmask
    · cases hmask
    · rename_i val hparse
      dsimp only at hmask
      split at hmask
      · cases hmask
      · cases hmask
        rw [hparse, Option.getD_some]
  refine hvalid.andThen (fun _ _ _ _ ↦ nofun) fun mask s' _ hmask ↦ ?_
  obtain ⟨rfl, hmask⟩ := hmask
  obtain rfl := hmask mask rfl
  rw [henv.portCount]
  have hnone : env.activePorts = [] := henv.activePorts
  have hstart : SetupLoop one config s' [] (env, 0) s' :=
    { serve := ⟨s'.ports, rfl, by rw [hnone]; nofun, fun p _ ↦ hfresh p⟩
      selects := henv
      number := by rw [hnone]; rfl }
  have hloop := @Prog.ensures_foldEach _ _ _ _ _ (dpdkWorld F)
    (OnlyMask one config s') s' (fun (env : EnvironmentState × Nat) port ↦
      if one.inMask config.mask port then
        (setupPort config env.1 port).andThen fun env' ↦ .done (.ok (env', env.2 + 1))
      else .done (.ok env)) (idsBelow s'.portCount) (SetupLoop one config s') (fun _ _ ↦ True) []
    (env, 0) hbase hstart
  refine (hloop ?_).andThen (fun _ _ _ _ ↦ nofun) fun env' s'' hs hend ↦ ?_
  · intro front port back env s'' hlist hs hfront
    refine (setupPorts_step heal hpool hlist hs hfront).imp fun r s₃ _ hr ↦ ?_
    cases r with
    | error e => trivial
    | ok env' => exact hr env' rfl
  · split
    · exact Prog.ensures_done hs nofun
    · rename_i hne
      refine Prog.ensures_done hs fun env'' henv'' ↦ ?_
      cases henv''
      refine ⟨hend.serve, fun hnil ↦ hne ?_, hend.selects⟩
      rw [hend.number, hnil, List.length_nil]

/-! ## The environment -/

/-- `CheckLinkStatus` asks about started ports only, and changes nothing. -/
theorem allPortsUp_ensures {I : Machine → Prop} (hI : I s) {ports : List (BitVec 16)}
    (hports : ∀ p ∈ ports, s.HasPort p ∧ (s.ports p).started = true) :
    (allPortsUp ports).Ensures (dpdkWorld F) I s fun _ s' ↦ s' = s := by
  induction ports with
  | nil => exact Prog.ensures_done hI rfl
  | cons port ports ih =>
      have hquery := @ensures_query F s (.ethLinkGetNowait port) I hI
        (hports port List.mem_cons_self) fun _ _ h ↦ h
      refine hquery.bind fun r s' hs heq ↦ ?_
      subst heq
      split
      · exact Prog.ensures_done hs rfl
      · exact ih fun p hp ↦ hports p (List.mem_cons_of_mem _ hp)

theorem pollLinks_ensures {I : Machine → Prop} (hI : I s) {ports : List (BitVec 16)}
    (hports : ∀ p ∈ ports, s.HasPort p ∧ (s.ports p).started = true) (polls : Nat) :
    (pollLinks config ports polls).Ensures (dpdkWorld F) I s fun _ s' ↦ s' = s := by
  induction polls with
  | zero => exact Prog.ensures_done hI rfl
  | succ polls ih =>
      refine (allPortsUp_ensures hI hports).bind fun up s' hs heq ↦ ?_
      subst heq
      split
      · exact Prog.ensures_done hs rfl
      · have hdelay := @ensures_query F s'
          (.delayMs (BitVec.ofInt 32 config.linkCheckIntervalMs)) I hI trivial fun _ _ h ↦ h
        refine hdelay.bind fun _ s'' hs heq ↦ ?_
        subst heq
        exact ih

/-- No worker is running, and nothing is there that one uses. -/
structure Machine.NoWorkers (s : Machine) : Prop where
  running : s.running = []
  rings : s.rings = []
  fragTables : s.fragTables = []

/-- The machine during `init`: ports outside the mask are not touched. -/
structure Initializing (one : ShiftOne) (config : PortSettings) (s : Machine) : Prop
    extends s.NoWorkers where
  untouched : ∀ p, one.inMask config.mask p = false → s.ports p = {}

/-- What a successful `init` leaves behind. -/
structure InitDone (one : ShiftOne) (config : Settings) (env : EnvironmentState) (s : Machine) :
    Prop where
  eal : s.eal = true
  initialized : env.initialized = true
  skipPorts : env.skipPorts = config.pcapInjector.enabled
  ports : env.skipPorts = false →
    (∀ p ∈ env.activePorts, s.ports p = servingPort config.port) ∧
      (∀ p ∉ env.activePorts, s.ports p = {}) ∧ env.activePorts ≠ [] ∧
        env.Selects one config.port s.portCount (idsBelow s.portCount)
  skipped : env.skipPorts = true → env.activePorts = [0] ∧ ∀ p, s.ports p = {}

/-- An active port serves with the configured numbers of queues. -/
theorem InitDone.serves {one : ShiftOne} {config : Settings} {env : EnvironmentState}
    (h : InitDone one config env s) (hskip : env.skipPorts = false)
    (hport : port ∈ env.activePorts) :
    s.Serves port config.port.receiveQueues config.port.transmitQueues := by
  obtain ⟨hserve, -, -, hselects⟩ := h.ports hskip
  have hlt : port < s.portCount := by
    rw [hselects.activePorts] at hport
    exact mem_idsBelow.mp (List.mem_filter.mp hport).1
  rw [Machine.Serves, Machine.HasPort, hserve port hport]
  exact ⟨⟨h.eal, hlt, rfl⟩, rfl, queuesSet_servingPort config.port⟩

theorem OnlyMask.initializing {one : ShiftOne} {s' : Machine} (hs : s.NoWorkers)
    (h : OnlyMask one config s s') : Initializing one config s' := by
  obtain ⟨ports, rfl, hports⟩ := h
  exact { running := hs.running, rings := hs.rings, fragTables := hs.fragTables
          untouched := hports }

/-- The environment in front of `SetupPorts`. -/
def startedEnvironment (skipPorts : Bool) (portCount : BitVec 16) : EnvironmentState where
  skipPorts := skipPorts
  portCount := portCount
  activePorts := if skipPorts then [0] else []
  portMacAddrs := List.replicate portCount.toNat 0
  portRuntimeInfos := List.replicate portCount.toNat {}

theorem initializing_new (one : ShiftOne) (portCount : BitVec 16) (eal pool : Bool) :
    Initializing one config { eal, portCount, pool } :=
  ⟨⟨rfl, rfl, rfl⟩, fun _ _ ↦ rfl⟩

theorem initEal_ensures (one : ShiftOne) (config : Settings) (skipPorts : Bool) :
    (initEal config { skipPorts }).Ensures (dpdkWorld F) (Initializing one config.port) {}
      fun r s ↦ ∀ env, r = .ok env → ∃ n : BitVec 16, s = { eal := true, portCount := n } ∧
        env = startedEnvironment skipPorts (if skipPorts then 1 else n) := by
  have hinit : (ifNegative (dpdk (.ealInit (buildEalArgs config.eal))) "rte_eal_init").Ensures
      (dpdkWorld F) (Initializing one config.port) {} fun r s ↦
        r = .ok () → s = { eal := true } := by
    refine ⟨initializing_new one 0 false false, rfl, fun r s hr ↦ ?_⟩
    rw [show s = _ from hr]
    refine Prog.ensures_done ?_ ?_
    · split
      · exact initializing_new one 0 false false
      · exact initializing_new one 0 true false
    · unfold checkNegativeResult
      split
      · nofun
      · exact fun _ ↦ rfl
  refine hinit.andThen (fun _ _ _ _ ↦ nofun) fun _ s _ hs ↦ ?_
  obtain rfl := hs rfl
  have hcount : (dpdk .ethDevCountAvail).Ensures (dpdkWorld F)
      (Initializing one config.port) { eal := true } fun n s ↦
        s = { eal := true, portCount := n } := by
    refine Prog.ensures_perform (initializing_new one 0 true false) rfl fun n s hs ↦ ?_
    obtain rfl : s = { eal := true, portCount := n } := hs
    exact ⟨initializing_new one n true false, rfl⟩
  refine hcount.bind fun (n : BitVec 16) s hinv hs ↦ ?_
  subst hs
  dsimp only
  by_cases hnone : n = 0 ∧ ¬ skipPorts = true
  · rw [if_pos hnone]
    exact Prog.ensures_done hinv nofun
  · rw [if_neg hnone]
    refine Prog.ensures_done hinv ?_
    intro env henv
    cases henv
    refine ⟨n, rfl, ?_⟩
    cases skipPorts <;> rfl

theorem createMempool_ensures (one : ShiftOne) (config : Settings) (n : BitVec 16)
    (env : EnvironmentState) :
    (createMempool config.mempool env).Ensures (dpdkWorld F)
      (Initializing one config.port) { eal := true, portCount := n } fun r s ↦
        r = .ok () → s = { eal := true, portCount := n, pool := true } := by
  refine ⟨initializing_new one n true false, ⟨rfl, rfl⟩, fun r s hs ↦ ?_⟩
  rw [show s = _ from hs]
  cases r with
  | error e => exact Prog.ensures_done (initializing_new one n true false) nofun
  | ok _ => exact Prog.ensures_done (initializing_new one n true true) fun _ ↦ rfl

/-- `init` on a new process. -/
theorem initEnvironment_ensures (one : ShiftOne) (config : Settings) :
    (initEnvironment one config).Ensures (dpdkWorld F) (Initializing one config.port) {}
      fun r s ↦ ∀ env, r = .ok env → InitDone one config env s := by
  refine (initEal_ensures one config _).andThen (fun _ _ _ _ ↦ nofun) fun env s _ hs ↦ ?_
  obtain ⟨n, rfl, rfl⟩ := hs env rfl
  refine (createMempool_ensures one config n _).andThen (fun _ _ _ _ ↦ nofun) fun _ s hinv hs ↦ ?_
  obtain rfl := hs rfl
  cases henabled : config.pcapInjector.enabled with
  | true =>
    refine show (Prog.done (Except.ok
      { startedEnvironment true 1 with initialized := true })).Ensures _ _ _ _ from
      Prog.ensures_done hinv ?_
    intro env henv
    cases henv
    exact {
      eal := rfl
      initialized := rfl
      skipPorts := henabled.symm
      ports := nofun
      skipped := fun _ ↦ ⟨rfl, fun _ ↦ rfl⟩ }
  | false =>
    have hports := @setupPorts_ensures F config.port
      { eal := true, portCount := n, pool := true } one rfl rfl (fun _ ↦ rfl)
      (startedEnvironment false n) {
        skipPorts := rfl
        portCount := rfl
        activePorts := rfl
        macs := List.length_replicate
        infos := List.length_replicate }
    refine (hports.mono (fun _ ↦ OnlyMask.initializing hinv.toNoWorkers)
      fun _ _ _ hr ↦ hr).andThen (fun _ _ _ _ ↦ nofun) fun env s hs hok ↦ ?_
    obtain ⟨⟨ports, rfl, hserve, hfresh⟩, hne, hselects⟩ := hok env rfl
    refine (pollLinks_ensures hs (fun port hport ↦ ?_) _).bind fun _ s' hs' heq ↦ ?_
    · have hlt : port < n := by
        rw [hselects.activePorts] at hport
        exact mem_idsBelow.mp (List.mem_filter.mp hport).1
      have hserving := hserve port hport
      exact ⟨⟨rfl, hlt, congrArg PortState.closed hserving⟩,
        congrArg PortState.started hserving⟩
    · subst heq
      refine Prog.ensures_done hs' ?_
      intro env' henv'
      cases henv'
      exact {
        eal := rfl
        initialized := rfl
        skipPorts := hselects.skipPorts.trans henabled.symm
        ports := fun _ ↦ ⟨hserve, hfresh, hne, hselects.skipPorts, hselects.portCount,
          hselects.activePorts, hselects.macs, hselects.infos⟩
        skipped := fun hskip ↦ absurd (hselects.skipPorts.symm.trans hskip) nofun }

/-! ## Closing the ports -/

/-- Nothing has changed but ports. -/
def OnlyPorts (s s' : Machine) : Prop := ∃ ports, s' = { s with ports }

theorem OnlyPorts.setPort {s' : Machine} (h : OnlyPorts s s') (p : PortState) :
    OnlyPorts s (s'.setPort port p) := by
  obtain ⟨ports, rfl⟩ := h
  exact ⟨Function.update ports port p, rfl⟩

/-- A port after `Cleanup`. -/
def PortState.Down (p : PortState) : Prop := p.started = false ∧ p.closed = true

/-- `rte_eth_dev_close` behind `rte_eth_dev_stop`. -/
theorem devClose_ensures {base : Machine} (hbase : OnlyPorts base s) (hidle : s.running = [])
    (heal : s.eal = true) (hport : port < s.portCount) {p : PortState}
    (hclosed : p.closed = false) :
    (dpdk (.ethDevClose port)).Ensures (dpdkWorld F) (OnlyPorts base) (s.setPort port p)
      fun _ s' ↦ OnlyPort s port s' ∧
        (p.started = false → ¬ F.stopFails port → (s'.ports port).Down) := by
  refine Prog.ensures_perform (hbase.setPort p) ⟨hasPort_setPort heal hport hclosed, hidle⟩
    fun r s' hr ↦ ?_
  obtain ⟨hrefused, -, rfl⟩ := hr
  rw [Machine.ports_setPort_self] at hrefused
  split
  · rename_i hne
    refine ⟨hbase.setPort p, ⟨p, rfl⟩, fun hstopped hfails ↦ ?_⟩
    rw [hstopped] at hrefused
    exact absurd ((hrefused hne).resolve_right nofun) hfails
  · rw [Machine.updatePort_setPort]
    refine ⟨hbase.setPort _, ⟨_, rfl⟩, fun hstopped _ ↦ ?_⟩
    rw [Machine.ports_setPort_self]
    exact ⟨hstopped, rfl⟩

/-- One port of `Cleanup`. -/
theorem closePort_ensures {base : Machine} (hbase : OnlyPorts base s) (hidle : s.running = [])
    (hport : s.HasPort port) (hstarted : (s.ports port).started = true) :
    (dpdk (.ethDevStop port) >>= fun _ ↦ dpdk (.ethDevClose port)).Ensures (dpdkWorld F)
      (OnlyPorts base) s fun _ s' ↦ OnlyPort s port s' ∧
        (¬ F.stopFails port → (s'.ports port).Down) := by
  obtain ⟨heal, hlt, hclosed⟩ := hport
  refine ⟨hbase, ⟨⟨heal, hlt, hclosed⟩, hstarted, hidle⟩, fun r s₁ hr ↦ ?_⟩
  obtain ⟨hrefused, rfl⟩ := hr
  split
  · rename_i hne
    have hclose := @devClose_ensures F s port base hbase hidle heal hlt (s.ports port) hclosed
    rw [Machine.setPort_ports] at hclose
    exact hclose.imp fun _ s' _ hs' ↦ ⟨hs'.1, fun hfails ↦ absurd (hrefused hne) hfails⟩
  · have hclose := @devClose_ensures F s port base hbase hidle heal hlt
      { s.ports port with started := false } hclosed
    exact hclose.imp fun _ s' _ hs' ↦ ⟨hs'.1, hs'.2 rfl⟩

/-- The loop of `Cleanup` takes down every port that its driver gives up. -/
theorem closePorts_ensures {base : Machine} {ports : List (BitVec 16)} (hnodup : ports.Nodup)
    (hbase : OnlyPorts base s) (hidle : s.running = [])
    (hports : ∀ p ∈ ports, s.HasPort p ∧ (s.ports p).started = true) :
    (closePorts ports).Ensures (dpdkWorld F) (OnlyPorts base) s fun _ s' ↦
      (∀ p ∈ ports, ¬ F.stopFails p → (s'.ports p).Down) ∧
        ∀ p ∉ ports, s'.ports p = s.ports p := by
  induction ports generalizing s with
  | nil => exact Prog.ensures_done hbase ⟨nofun, fun _ _ ↦ rfl⟩
  | cons port ports ih =>
      obtain ⟨hnotMem, hnodup⟩ := List.nodup_cons.mp hnodup
      obtain ⟨hport, hstarted⟩ := hports port List.mem_cons_self
      have hassoc : closePorts (port :: ports) =
          (dpdk (.ethDevStop port) >>= fun _ ↦ dpdk (.ethDevClose port)) >>= fun _ ↦
            closePorts ports := rfl
      rw [hassoc]
      refine (closePort_ensures hbase hidle hport hstarted).bind fun _ s₁ hs₁ hdown ↦ ?_
      obtain ⟨⟨p, rfl⟩, hdown⟩ := hdown
      have hother (q : BitVec 16) (hq : q ∈ ports) : q ≠ port := by
        rintro rfl
        exact hnotMem hq
      refine (ih hnodup hs₁ hidle fun q hq ↦ ?_).imp fun _ s' _ hs' ↦ ⟨fun q hq ↦ ?_, fun q hq ↦ ?_⟩
      · obtain ⟨hq', hstarted'⟩ := hports q (List.mem_cons_of_mem _ hq)
        rw [Machine.HasPort, Machine.ports_setPort_of_ne s (hother q hq)]
        exact ⟨hq', hstarted'⟩
      · cases List.mem_cons.mp hq with
        | inl hself =>
            subst hself
            rw [hs'.2 q hnotMem]
            exact hdown
        | inr htail => exact hs'.1 q htail
      · rw [hs'.2 q fun hmem ↦ hq (List.mem_cons_of_mem _ hmem)]
        refine Machine.ports_setPort_of_ne s ?_ p
        rintro rfl
        exact hq List.mem_cons_self

end DpdkSpi
