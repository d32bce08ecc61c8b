import DpdkSpi.Flow.Resize
import DpdkSpi.Reload.Isolation

/-!
# What a reload publishes

All of `Pipeline::MaybeReload`, after `spi_pipeline.cpp` and `dpi_rule_table_manager.hpp`:
the rules, the DPI rules and the capacity of the flow table, which are published one after
the other when nothing has failed before.  The last step may still fail, because the flow
table of the new capacity is only created then; the rules are kept in that case, and so is the
old flow table (`reloadOutcome_maybeReload`).

How DPI rules are compiled does not matter here: a configuration of them is compiled to
anything that has a lookup by name.
-/

namespace DpdkSpi

open Lib

variable {γ δ : Type}

/-! ## DPI rules -/

/-- A compiled set of DPI rules, with the generation that `Swap` counts. -/
structure DpiRuleTable (δ : Type) where
  rules : δ
  generation : BitVec 32 := 0

/-- `DpiRuleTableManager`. -/
structure DpiRuleTableManager (δ : Type) where
  active : Option (DpiRuleTable δ) := none
  retired : Option (DpiRuleTable δ) := none
  prevRetired : Option (DpiRuleTable δ) := none

/-- The generation of the table that follows. -/
def DpiRuleTableManager.nextGen (m : DpiRuleTableManager δ) : BitVec 32 :=
  match m.active with
  | none => 1
  | some old => old.generation + 1

/-- `Swap`; there is no new table when DPI is disabled. -/
def DpiRuleTableManager.swap (m : DpiRuleTableManager δ) (newTable : Option δ) :
    DpiRuleTableManager δ where
  active := newTable.map fun rules ↦ { rules, generation := m.nextGen }
  retired := m.active
  prevRetired := m.retired

/-- `CompileDpiRuleTable`, and `FindByFilterGroup` on what it returns. -/
structure DpiCompiler (γ δ : Type) where
  compileDpiRuleTable : γ → Except String δ
  findByFilterGroup : δ → String → Option (BitVec 32)

/-! ## Configurations -/

/-- The parts of a configuration that a reload looks at. -/
structure PipelineConfig (γ : Type) where
  spi : SpiConfig
  dpiEnabled : Bool
  dpi : γ

/-- The DPI rules of a configuration, if they are enabled. -/
def PipelineConfig.compileDpi (dpi : DpiCompiler γ δ) (config : PipelineConfig γ) :
    Option (Except String δ) :=
  if config.dpiEnabled then some (dpi.compileDpiRuleTable config.dpi) else none

/-- What the links of SPI groups are resolved with. -/
def PipelineConfig.links (dpi : DpiCompiler γ δ) (config : PipelineConfig γ) : DpiCompile :=
  (config.compileDpi dpi).map fun r ↦ r.map dpi.findByFilterGroup

/-! ## The pipeline -/

/-- What the surroundings decide about one call of `MaybeReload`. -/
structure PipelineIo (γ : Type) where
  requested : Bool
  loadConfig : Except String (PipelineConfig γ)
  compile : CompileIo
  forceQuit : Bool
  barrier : BarrierOutcome
  /-- `rte_hash_create` does not return null. -/
  created : Bool
  migration : (newMax : Nat) → FlowTable.MigrationIo newMax

/-- The same for the SPI rules. -/
def PipelineIo.rules (dpi : DpiCompiler γ δ) (io : PipelineIo γ) : ReloadIo where
  requested := io.requested
  loadConfig := io.loadConfig.map PipelineConfig.spi
  compile := io.compile
  dpi := match io.loadConfig with
    | .ok config => config.links dpi
    | .error _ => none
  forceQuit := io.forceQuit
  barrier := io.barrier

/-- What a pipeline publishes to its workers. -/
structure PipelineState (δ : Type) where
  rules : RuleState
  dpi : DpiRuleTableManager δ
  flow : FlowState

/-- The DPI rules that are published: a compilation that fails does not get that far. -/
def PipelineConfig.newDpiRules (dpi : DpiCompiler γ δ) (config : PipelineConfig γ) : Option δ :=
  (config.compileDpi dpi).bind Except.toOption

/-- `MaybeReload`: the new state and the line that is printed at the end. -/
def PipelineState.maybeReload (d : Dpdk) (dpi : DpiCompiler γ δ) (io : PipelineIo γ)
    (s : PipelineState δ) : PipelineState δ × Option String :=
  let rules := DpdkSpi.maybeReload d (io.rules dpi) s.rules
  match io.loadConfig, (beforeSwap d (io.rules dpi) s.rules).1 with
  | .ok config, .ok _ =>
      let newMax := config.spi.maxConcurrentFlows.toNat
      ({ rules := rules.1
         dpi := s.dpi.swap (config.newDpiRules dpi)
         flow := maybeReloadFlowTable s.flow newMax io.created (io.migration newMax) }, rules.2)
  | _, _ => ({ s with rules := rules.1 }, rules.2)

/-- The constructor, in a fresh process. -/
def PipelineState.start (d : Dpdk) (dpi : DpiCompiler γ δ) (io : CompileIo)
    (config : PipelineConfig γ) (created : Bool) : Option (PipelineState δ) :=
  (startPipeline d io config.spi (config.links dpi)).map fun rules ↦
    { rules
      dpi := { active := (config.newDpiRules dpi).map fun rules ↦ { rules } }
      flow :=
        { maxConcurrentFlows := config.spi.maxConcurrentFlows.toNat
          flowTable := FlowTable.new config.spi.maxConcurrentFlows.toNat created
          flowTableResizes := 0 } }

/-- The runs of a pipeline: it starts, and reloads. -/
def pipelineReloads (d : Dpdk) (dpi : DpiCompiler γ δ) :
    System (PipelineState δ) (PipelineIo γ) where
  init s := ∃ io config created, PipelineState.start d dpi io config created = some s
  step s io s' := (s.maybeReload d dpi io).1 = s'

/-! ## Outcomes -/

/-- The active tables of `s'` are those of the configuration, compiled in `s`. -/
structure RulesFrom (d : Dpdk) (dpi : DpiCompiler γ δ) (io : PipelineIo γ)
    (config : PipelineConfig γ) (s s' : PipelineState δ) : Prop where
  spi : ∃ compiled linked, (compileRuleTable d io.compile config.spi s.rules.lib).1 = .ok compiled ∧
    linkDpi (config.links dpi) compiled = .ok linked ∧
    s'.rules.manager.active = some linked.moveConstruct
  dpi : config.compileDpi dpi = s'.dpi.active.map fun t ↦ .ok t.rules

/-- Everything from the new configuration, or everything as it was. -/
def AllOrNothing (d : Dpdk) (dpi : DpiCompiler γ δ) (io : PipelineIo γ) (s : PipelineState δ) :
    Prop :=
  let s' := (s.maybeReload d dpi io).1
  (∃ config, io.loadConfig = .ok config ∧ RulesFrom d dpi io config s s' ∧
      s'.flow.maxConcurrentFlows = config.spi.maxConcurrentFlows.toNat) ∨
    (s'.rules.manager.active = s.rules.manager.active ∧ s'.dpi.active = s.dpi.active ∧
      s'.flow.maxConcurrentFlows = s.flow.maxConcurrentFlows)

/-- How a reload can end. -/
inductive ReloadOutcome (d : Dpdk) (dpi : DpiCompiler γ δ) (io : PipelineIo γ)
    (s s' : PipelineState δ) : Prop
  /-- Nothing is published. -/
  | unchanged (hrules : s'.rules.manager = s.rules.manager) (hdpi : s'.dpi = s.dpi)
      (hflow : s'.flow = s.flow)
  /-- Everything is published. -/
  | published {config : PipelineConfig γ} (hload : io.loadConfig = .ok config)
      (hrules : RulesFrom d dpi io config s s')
      (hflow : s'.flow.maxConcurrentFlows = config.spi.maxConcurrentFlows.toNat)
  /-- The capacity is another one and `rte_hash_create` fails: the rules are published, and the
  flow table is kept. -/
  | flowTableKept {config : PipelineConfig γ} (hload : io.loadConfig = .ok config)
      (hrules : RulesFrom d dpi io config s s')
      (hmax : config.spi.maxConcurrentFlows.toNat ≠ s.flow.maxConcurrentFlows)
      (hcreated : io.created = false) (hflow : s'.flow = s.flow)

/-! ### The rules -/

/-- A table that can be prepared was compiled from the configuration and linked. -/
theorem prepareReload_ok {d : Dpdk} {io : ReloadIo} {lib : AclLib} {table : RuleTable}
    (h : (prepareReload d io lib).1 = .ok table) :
    ∃ config compiled, io.loadConfig = .ok config ∧
      (compileRuleTable d io.compile config lib).1 = .ok compiled ∧
      linkDpi io.dpi compiled = .ok table := by
  unfold prepareReload at h
  split at h
  · split at h
    · cases h
    · rename_i config hload
      split at h
      · cases h
      · rename_i compiled lib' hcompile
        split at h
        · cases h
        · rename_i linked hlink
          split at h
          · cases h
          · obtain rfl := Except.ok.inj h
            exact ⟨config, compiled, hload, by rw [hcompile], hlink⟩
  · cases h

theorem beforeSwap_ok {d : Dpdk} {io : ReloadIo} {s : RuleState} {table : RuleTable}
    (h : (beforeSwap d io s).1 = .ok table) :
    ∃ config compiled, io.loadConfig = .ok config ∧
      (compileRuleTable d io.compile config s.lib).1 = .ok compiled ∧
      linkDpi io.dpi compiled = .ok table := by
  refine prepareReload_ok ?_
  unfold beforeSwap at h
  split at h
  · cases h
  · rename_i table' lib' hprepare
    rw [hprepare]
    split at h
    · cases h
    · cases h
    · split at h
      · cases h
      · exact h

/-- The table is swapped in when there is one, and nothing is swapped otherwise. -/
theorem manager_maybeReload (d : Dpdk) (io : ReloadIo) (s : RuleState) :
    (maybeReload d io s).1.manager =
      match (beforeSwap d io s).1 with
      | .ok table => s.manager.swap table.moveConstruct
      | .error _ => s.manager := by
  unfold maybeReload
  rcases beforeSwap d io s with ⟨_ | table, lib⟩
  · rfl
  · rfl

/-! ### The DPI rules -/

/-- DPI rules that SPI groups were linked to have been compiled. -/
theorem compileDpi_of_linkDpi {dpi : DpiCompiler γ δ} {config : PipelineConfig γ}
    {compiled linked : RuleTable} (h : linkDpi (config.links dpi) compiled = .ok linked) :
    config.compileDpi dpi = (config.newDpiRules dpi).map .ok := by
  unfold PipelineConfig.newDpiRules
  unfold PipelineConfig.links at h
  generalize config.compileDpi dpi = result at h ⊢
  rcases result with _ | (_ | rules)
  · rfl
  · cases h
  · rfl

theorem DpiRuleTableManager.map_rules_swap {ε : Type} (m : DpiRuleTableManager δ)
    (newTable : Option δ) (f : δ → ε) :
    ((m.swap newTable).active.map fun t ↦ f t.rules) = newTable.map f := by
  unfold DpiRuleTableManager.swap
  rw [Option.map_map]
  rfl

/-! ### The flow table -/

/-- What `MaybeReloadFlowTable` can do. -/
theorem maybeReloadFlowTable_cases (s : FlowState) (newMax : Nat) (created : Bool)
    (io : FlowTable.MigrationIo newMax) :
    (maybeReloadFlowTable s newMax created io).maxConcurrentFlows = newMax ∨
      (newMax ≠ s.maxConcurrentFlows ∧ created = false ∧
        maybeReloadFlowTable s newMax created io = s) := by
  unfold maybeReloadFlowTable
  by_cases hmax : newMax = s.maxConcurrentFlows
  · rw [if_pos hmax]
    exact .inl hmax.symm
  · rw [if_neg hmax]
    cases created with
    | true => exact .inl rfl
    | false => exact .inr ⟨hmax, rfl, rfl⟩

/-! ### The reload -/

/-- A reload publishes nothing, or everything, or, when the capacity of the flow table changes
and the new one cannot be created, the rules alone. -/
theorem reloadOutcome_maybeReload (d : Dpdk) (dpi : DpiCompiler γ δ) (io : PipelineIo γ)
    (s : PipelineState δ) : ReloadOutcome d dpi io s (s.maybeReload d dpi io).1 := by
  have hmanager := manager_maybeReload d (io.rules dpi) s.rules
  unfold PipelineState.maybeReload
  dsimp only
  cases hswap : (beforeSwap d (io.rules dpi) s.rules).1 with
  | error line =>
      rw [hswap] at hmanager
      cases io.loadConfig with
      | error e => exact .unchanged hmanager rfl rfl
      | ok config => exact .unchanged hmanager rfl rfl
  | ok table =>
      rw [hswap] at hmanager
      obtain ⟨spi, compiled, hspi, hcompile, hlink⟩ := beforeSwap_ok hswap
      cases hload : io.loadConfig with
      | error e =>
          simp only [PipelineIo.rules, hload] at hspi
          cases hspi
      | ok config =>
          simp only [PipelineIo.rules, hload] at hspi hlink
          obtain rfl : config.spi = spi := Except.ok.inj hspi
          have hrules : ∀ flow, RulesFrom d dpi io config s
              { rules := (DpdkSpi.maybeReload d (io.rules dpi) s.rules).1
                dpi := s.dpi.swap (config.newDpiRules dpi)
                flow } := by
            intro flow
            refine ⟨⟨compiled, table, hcompile, hlink,
              congrArg RuleTableManager.active hmanager⟩, ?_⟩
            rw [compileDpi_of_linkDpi hlink, s.dpi.map_rules_swap]
          rcases maybeReloadFlowTable_cases s.flow config.spi.maxConcurrentFlows.toNat io.created
            (io.migration _) with hflow | ⟨hmax, hcreated, hflow⟩
          · exact .published hload (hrules _) hflow
          · exact .flowTableKept hload (hrules _) hmax hcreated hflow

/-! ### A reload that keeps the flow table -/

/-- No DPI rules at all. -/
def noDpi : DpiCompiler Unit Unit where
  compileDpiRuleTable _ := .ok ()
  findByFilterGroup _ _ := none

/-- A configuration without DPI. -/
def spiOnly (spi : SpiConfig) : PipelineConfig Unit where
  spi
  dpiEnabled := false
  dpi := ()

/-- A reload in which `rte_hash_create` fails and nothing else. -/
def hashlessReload (spi : SpiConfig) : PipelineIo Unit where
  requested := true
  loadConfig := .ok (spiOnly spi)
  compile := webIo
  forceQuit := false
  barrier := .quiesced
  created := false
  migration _ := { clock := fun _ ↦ 0, alloc := fun _ _ ↦ none }

/-- Another group, and room for more flows. -/
def mailConfig : SpiConfig where
  maxConcurrentFlows := 16
  filterGroups :=
    [{ name := "mail", filters := [{ protocol := "tcp", destinationPort := some 25 }] }]

/-- The configuration of the web group with room for eight flows. -/
def smallWebConfig : SpiConfig := { webConfig with maxConcurrentFlows := 8 }

/-- A pipeline that has started and failed to reload once. -/
def afterFailedReload : Option (PipelineState Unit) :=
  (PipelineState.start RuleTable.tcpDpdk noDpi webIo (spiOnly smallWebConfig) true).map fun s ↦
    (s.maybeReload RuleTable.tcpDpdk noDpi (hashlessReload smallWebConfig)).1

/-- The group names of the active table. -/
def PipelineState.activeGroups (s : PipelineState δ) : Option (List String) :=
  s.rules.manager.active.map fun t ↦ t.groups.map CompiledFilterGroup.name

/-- The new rules with the old capacity. -/
theorem not_allOrNothing_mailConfig : ∃ s,
    (pipelineReloads RuleTable.tcpDpdk noDpi).Reach s ∧
      ¬AllOrNothing RuleTable.tcpDpdk noDpi (hashlessReload mailConfig) s := by
  have hrun : (afterFailedReload.map fun s ↦
      (s.activeGroups,
        (s.maybeReload RuleTable.tcpDpdk noDpi (hashlessReload mailConfig)).1.activeGroups,
        (s.maybeReload RuleTable.tcpDpdk noDpi
          (hashlessReload mailConfig)).1.flow.maxConcurrentFlows)) =
      some (some ["web"], some ["mail"], 8) := by decide +kernel
  obtain ⟨s, hs, hvalues⟩ := Option.map_eq_some_iff.mp hrun
  simp only [Prod.mk.injEq] at hvalues
  obtain ⟨hbefore, hafter, hmax⟩ := hvalues
  obtain ⟨start, hstart, rfl⟩ := Option.map_eq_some_iff.mp hs
  have hreach : (pipelineReloads RuleTable.tcpDpdk noDpi).Reach start :=
    .init ⟨webIo, spiOnly smallWebConfig, true, hstart⟩
  refine ⟨_, hreach.step (a := hashlessReload smallWebConfig) rfl, ?_⟩
  rintro (⟨config, hload, -, hcapacity⟩ | ⟨hactive, -, -⟩)
  · obtain rfl := Except.ok.inj hload
    cases hcapacity.symm.trans hmax
  · unfold PipelineState.activeGroups at hbefore hafter
    rw [hactive, hbefore] at hafter
    exact absurd hafter (by decide)

end DpdkSpi
