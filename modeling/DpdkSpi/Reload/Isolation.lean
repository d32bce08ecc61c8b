import DpdkSpi.Rule.Bulk
import DpdkSpi.Rule.Names

/-!
# Reloading the rules

`Pipeline::MaybeReload` as far as the rule tables are concerned, after
`spi_pipeline.cpp` and `spi_rule_table_manager.hpp`: a replacement is compiled while the
active table is in use, and is swapped in when the workers have paused.  A reload that
does not get that far drops its replacement.  How the workers are paused is the subject
of `DpdkSpi.Reload.Barrier`; here the pause either comes about or does not.

The tables share the registry of ACL contexts, and every compilation uses the same
names.  The active table is left alone exactly when no task of the compilation asks for
a name of one of its contexts (`reload_isolated_iff`).
-/

namespace DpdkSpi

open Lib

/-! ## Links to DPI groups -/

/-- `ResolveDpiLinks`; `findByFilterGroup` is the lookup in the DPI table. -/
def resolveDpiLinks (findByFilterGroup : String → Option (BitVec 32)) :
    List CompiledFilterGroup → Except String (List CompiledFilterGroup)
  | [] => .ok []
  | group :: rest =>
      if group.boundDpiName = "" then
        (resolveDpiLinks findByFilterGroup rest).map fun groups ↦ group :: groups
      else
        match findByFilterGroup group.boundDpiName with
        | none =>
            .error ("SPI group '" ++ group.name ++ "' links to DPI group '" ++
              group.boundDpiName ++ "' which was not found in the active DPI rule table (it may " ++
              "have been removed by a SIGUSR1 reload — revert the config or restart the pipeline)")
        | some idx =>
            (resolveDpiLinks findByFilterGroup rest).map fun groups ↦
              { group with boundDpiFilterIndex := idx, boundDpiName := "" } :: groups

/-- The DPI part of a reload: `none` when DPI is disabled, otherwise what
`CompileDpiRuleTable` returns. -/
abbrev DpiCompile := Option (Except String (String → Option (BitVec 32)))

/-- Compile the DPI rules and link the groups of a new table to them. -/
def linkDpi : DpiCompile → RuleTable → Except String RuleTable
  | none, table => .ok table
  | some (.error e), _ => .error ("DPI reload failed: " ++ e)
  | some (.ok findByFilterGroup), table =>
      match resolveDpiLinks findByFilterGroup table.groups with
      | .error e => .error ("Reload failed: " ++ e)
      | .ok groups => .ok { table with groups }

/-! ## The table manager -/

/-- `RuleTableManager`. -/
structure RuleTableManager where
  active : Option RuleTable := none
  retired : Option RuleTable := none
  prevRetired : Option RuleTable := none

/-- `Swap`.  The table that was in `prev_retired_` is destroyed. -/
def RuleTableManager.swap (m : RuleTableManager) (newTable : RuleTable) : RuleTableManager where
  active := some newTable
  retired := m.active
  prevRetired := m.retired

/-- The rule tables of a pipeline and the registry of the contexts they use. -/
structure RuleState where
  lib : AclLib
  manager : RuleTableManager

/-- The tables a manager holds. -/
def RuleTableManager.Holds (m : RuleTableManager) (t : RuleTable) : Prop :=
  m.active = some t ∨ m.retired = some t ∨ m.prevRetired = some t

/-! ## A reload -/

/-- How the wait for the workers ends. -/
inductive BarrierOutcome where
  | quiesced
  | forceQuit
  | timedOut (paused workers : Nat)
deriving DecidableEq, Repr

/-- What the surroundings decide about one call of `MaybeReload`. -/
structure ReloadIo where
  /-- The reload flag was set and no shutdown was requested. -/
  requested : Bool
  loadConfig : Except String SpiConfig
  compile : CompileIo
  dpi : DpiCompile
  /-- A shutdown was requested while the tables were compiled. -/
  forceQuit : Bool
  barrier : BarrierOutcome

/-- `MaybeReload` up to the point where the barrier is set: the table to publish, or the
line that is printed, if one is.  A table that will not be published is destroyed. -/
def prepareReload (d : Dpdk) (io : ReloadIo) (lib : AclLib) :
    Except (Option String) RuleTable × AclLib :=
  if io.requested then
    match io.loadConfig with
    | .error e => (.error (some ("Reload failed: " ++ e)), lib)
    | .ok config =>
        match compileRuleTable d io.compile config lib with
        | (.error e, lib) => (.error (some ("Reload failed: " ++ e)), lib)
        | (.ok table, lib) =>
            match linkDpi io.dpi table with
            | .error e => (.error (some e), destroyTable lib table)
            | .ok table =>
                if io.forceQuit then (.error none, destroyTable lib table) else (.ok table, lib)
  else (.error none, lib)

/-- `MaybeReload` up to the swap. -/
def beforeSwap (d : Dpdk) (io : ReloadIo) (s : RuleState) :
    Except (Option String) RuleTable × AclLib :=
  match prepareReload d io s.lib with
  | (.error line, lib) => (.error line, lib)
  | (.ok table, lib) =>
      match io.barrier with
      | .forceQuit => (.error none, destroyTable lib table)
      | .timedOut paused workers =>
          (.error (some
              s!"Reload cancelled: only {paused}/{workers} workers reached the pause barrier"),
            destroyTable lib table)
      | .quiesced =>
          match s.manager.active with
          | none => (.error (some "Reload failed: no active RuleTable"), destroyTable lib table)
          | some _ => (.ok table, lib)

/-- `MaybeReload`: the new state and the line that is printed. -/
def maybeReload (d : Dpdk) (io : ReloadIo) (s : RuleState) : RuleState × Option String :=
  match beforeSwap d io s with
  | (.error line, lib) => ({ s with lib }, line)
  | (.ok table, lib) =>
      let groupCount := table.groups.length
      let filterCount := (table.groups.map fun g ↦ g.filters.length).sum
      ({ lib := (s.manager.prevRetired.map (destroyTable lib)).getD lib
         manager := s.manager.swap table.moveConstruct },
        some s!"Rules reloaded: {groupCount} groups, {filterCount} filters (atomic table swap)")

/-- The start of a pipeline in a fresh process: compile, link, `Init`. -/
def startPipeline (d : Dpdk) (io : CompileIo) (config : SpiConfig) (dpi : DpiCompile) :
    Option RuleState :=
  match compileRuleTable d io config Registry.empty with
  | (.error _, _) => none
  | (.ok table, lib) =>
      match linkDpi dpi table with
      | .error _ => none
      | .ok table => some { lib, manager := { active := some table.moveConstruct } }

/-- The runs of a pipeline: it starts, and reloads. -/
def reloads (d : Dpdk) : System RuleState ReloadIo where
  init s := ∃ io config dpi, startPipeline d io config dpi = some s
  step s io s' := (maybeReload d io s).1 = s'

/-! ## What a reload does to older contexts -/

section

variable {d : Dpdk} {io : ReloadIo} {s : RuleState} {lib : AclLib} {ctx : Nat}

theorem ownedAclCtxs_linkDpi {dpi : DpiCompile} {table table' : RuleTable}
    (h : linkDpi dpi table = .ok table') : table'.ownedAclCtxs = table.ownedAclCtxs := by
  unfold linkDpi at h
  split at h
  · obtain rfl := Except.ok.inj h
    rfl
  · cases h
  · split at h
    · cases h
    · obtain rfl := Except.ok.inj h
      rfl

/-- The registry behind the compilation of a reload. -/
def compiledLib (d : Dpdk) (io : ReloadIo) (lib : AclLib) : AclLib :=
  match io.requested, io.loadConfig with
  | true, .ok config => (compileRuleTable d io.compile config lib).2
  | _, _ => lib

/-- What a reload has done at some point before it swaps: it has compiled, and it has
either a table with new contexts only, or nothing in hand after freeing new contexts. -/
structure Prepared (d : Dpdk) (io : ReloadIo) (lib : AclLib)
    (r : Except (Option String) RuleTable × AclLib) : Prop where
  freed : ∃ ctxs : List Nat, (∀ ctx ∈ ctxs, lib.next ≤ ctx) ∧
    r.2 = ctxs.foldl rteAclFree (compiledLib d io lib)
  fresh : ∀ table, r.1 = .ok table → r.2 = compiledLib d io lib ∧
    ∀ ctx ∈ table.ownedAclCtxs, lib.next ≤ ctx ∧ ctx < r.2.next

/-- The registry as the compilation leaves it, and no table. -/
theorem Prepared.ofLib {line : Option String} {lib' : AclLib} (h : lib' = compiledLib d io lib) :
    Prepared d io lib (.error line, lib') where
  freed := ⟨[], List.forall_mem_nil _, h⟩
  fresh := fun _ h ↦ by cases h

/-- Dropping the new table. -/
theorem Prepared.drop {table : RuleTable} {lib' : AclLib} (h : Prepared d io lib (.ok table, lib'))
    (line : Option String) : Prepared d io lib (.error line, destroyTable lib' table) where
  freed := by
    obtain ⟨hlib, hfresh⟩ := h.fresh table rfl
    refine ⟨table.ownedAclCtxs, fun ctx hctx ↦ (hfresh ctx hctx).1, ?_⟩
    rw [← hlib]
    rfl
  fresh := fun _ h ↦ by cases h

theorem compileRuleTable_prepared {config : SpiConfig} {table : RuleTable} {lib' : AclLib}
    (hsat : Saturated lib) (hreq : io.requested = true) (hload : io.loadConfig = .ok config)
    (h : compileRuleTable d io.compile config lib = (.ok table, lib')) :
    Prepared d io lib (.ok table, lib') := by
  have hlib : compiledLib d io lib = lib' := by simp only [compiledLib, hreq, hload, h]
  refine ⟨⟨[], List.forall_mem_nil _, hlib.symm⟩, fun table' htable' ↦ ?_⟩
  obtain rfl := Except.ok.inj htable'
  exact ⟨hlib.symm, compileRuleTable_ownedAclCtxs hsat h⟩

theorem Prepared.link {table table' : RuleTable} {lib' : AclLib} {dpi : DpiCompile}
    (h : Prepared d io lib (.ok table, lib')) (hlink : linkDpi dpi table = .ok table') :
    Prepared d io lib (.ok table', lib') where
  freed := h.freed
  fresh := by
    intro table'' htable''
    obtain rfl := Except.ok.inj htable''
    rw [ownedAclCtxs_linkDpi hlink]
    exact h.fresh table rfl

theorem prepareReload_prepared (d : Dpdk) (io : ReloadIo) (hsat : Saturated lib) :
    Prepared d io lib (prepareReload d io lib) := by
  unfold prepareReload
  split
  · rename_i hreq
    split
    · rename_i e hload
      exact .ofLib (by simp only [compiledLib, hreq, hload])
    · rename_i config hload
      split
      · rename_i e lib' hcompile
        exact .ofLib (by simp only [compiledLib, hreq, hload, hcompile])
      · rename_i table lib' hcompile
        have hprep := compileRuleTable_prepared hsat hreq hload hcompile
        split
        · exact hprep.drop _
        · rename_i table' hlink
          split
          · exact (hprep.link hlink).drop _
          · exact hprep.link hlink
  · rename_i hreq
    rw [Bool.not_eq_true] at hreq
    exact .ofLib (by simp only [compiledLib, hreq])

theorem beforeSwap_prepared (d : Dpdk) (io : ReloadIo) (hsat : Saturated s.lib) :
    Prepared d io s.lib (beforeSwap d io s) := by
  have hprep := prepareReload_prepared d io hsat
  unfold beforeSwap
  split
  · rename_i line lib' heq
    rw [heq] at hprep
    exact hprep
  · rename_i table lib' heq
    rw [heq] at hprep
    split
    · exact hprep.drop _
    · exact hprep.drop _
    · split
      · exact hprep.drop _
      · exact hprep

theorem compiledLib_next_le (d : Dpdk) (io : ReloadIo) (lib : AclLib) :
    lib.next ≤ (compiledLib d io lib).next := by
  unfold compiledLib
  split
  · exact (compileRuleTable_vacant d _ _ lib 0).1
  · exact le_rfl

theorem compiledLib_saturated (d : Dpdk) (io : ReloadIo) (hsat : Saturated lib) :
    Saturated (compiledLib d io lib) := by
  unfold compiledLib
  split
  · exact compileRuleTable_saturated d _ _ hsat
  · exact hsat

theorem Prepared.next_le {r : Except (Option String) RuleTable × AclLib}
    (h : Prepared d io lib r) : lib.next ≤ r.2.next := by
  obtain ⟨ctxs, -, hlib⟩ := h.freed
  rw [hlib, (foldl_rteAclFree_vacant ctxs 0 _).1]
  exact compiledLib_next_le d io lib

theorem Prepared.saturated {r : Except (Option String) RuleTable × AclLib}
    (h : Prepared d io lib r) (hsat : Saturated lib) : Saturated r.2 := by
  obtain ⟨ctxs, -, hlib⟩ := h.freed
  rw [hlib]
  exact (compiledLib_saturated d io hsat).foldl_rteAclFree ctxs

/-- Older contexts are what the compilation leaves of them. -/
theorem Prepared.slots {r : Except (Option String) RuleTable × AclLib} (h : Prepared d io lib r)
    (hlt : ctx < lib.next) : r.2.slots ctx = (compiledLib d io lib).slots ctx := by
  obtain ⟨ctxs, hnew, hlib⟩ := h.freed
  rw [hlib, slots_foldl_rteAclFree]
  exact fun hmem ↦ absurd (hnew ctx hmem) (Nat.not_le.mpr hlt)

/-! ## Invariant of the runs -/

/-- Every registered context is full, and the tables in hand know handles that were given
out only. -/
structure RuleState.Valid (s : RuleState) : Prop where
  saturated : Saturated s.lib
  owned : ∀ t, s.manager.Holds t → ∀ ctx ∈ t.ownedAclCtxs, ctx < s.lib.next

theorem maybeReload_valid (d : Dpdk) (io : ReloadIo) (h : s.Valid) :
    (maybeReload d io s).1.Valid := by
  have hprep := beforeSwap_prepared d io h.saturated
  have hnext := hprep.next_le
  have hsat := hprep.saturated h.saturated
  unfold maybeReload
  split
  · rename_i line lib' heq
    rw [heq] at hnext hsat
    exact ⟨hsat, fun t ht ctx hctx ↦ (h.owned t ht ctx hctx).trans_le hnext⟩
  · rename_i table lib' heq
    rw [heq] at hprep hnext hsat
    have hfresh := (hprep.fresh table rfl).2
    have hlib : Saturated ((s.manager.prevRetired.map (destroyTable lib')).getD lib') ∧
        ((s.manager.prevRetired.map (destroyTable lib')).getD lib').next = lib'.next := by
      cases s.manager.prevRetired with
      | none => exact ⟨hsat, rfl⟩
      | some t => exact ⟨hsat.foldl_rteAclFree _, (foldl_rteAclFree_vacant _ 0 lib').1⟩
    refine ⟨hlib.1, fun t ht ctx hctx ↦ ?_⟩
    dsimp only
    rw [hlib.2]
    rcases ht with ht | ht | ht
    · obtain rfl := Option.some.inj ht
      exact (hfresh ctx hctx).2
    · exact (h.owned t (.inl ht) ctx hctx).trans_le hnext
    · exact (h.owned t (.inr (.inl ht)) ctx hctx).trans_le hnext

theorem startPipeline_valid {io : CompileIo} {config : SpiConfig} {dpi : DpiCompile}
    (h : startPipeline d io config dpi = some s) : s.Valid := by
  have hsat := compileRuleTable_saturated d io config saturated_empty
  unfold startPipeline at h
  split at h
  · cases h
  · rename_i table lib hcompile
    rw [hcompile] at hsat
    split at h
    · cases h
    · rename_i table' hlink
      obtain rfl := Option.some.inj h
      refine ⟨hsat, ?_⟩
      rintro t (ht | ht | ht) ctx hctx
      · obtain rfl := Option.some.inj ht
        change ctx ∈ table'.ownedAclCtxs at hctx
        rw [ownedAclCtxs_linkDpi hlink] at hctx
        exact (compileRuleTable_ownedAclCtxs saturated_empty hcompile ctx hctx).2
      · cases ht
      · cases ht

theorem reach_valid (h : (reloads d).Reach s) : s.Valid := by
  refine System.Reach.invariant (I := RuleState.Valid) ?_ ?_ h
  · rintro s ⟨io, config, dpi, hstart⟩
    exact startPipeline_valid hstart
  · rintro s io s' hvalid rfl
    exact maybeReload_valid d io hvalid

/-! ## Isolation -/

/-- The reload does not disturb the active table before it swaps, and what it swaps in
does not depend on the tables it retires. -/
structure Isolated (d : Dpdk) (io : ReloadIo) (s : RuleState) : Prop where
  /-- No context of the active table is changed or freed before the swap. -/
  untouched : ∀ t, s.manager.active = some t → ∀ ctx ∈ t.ownedAclCtxs,
    (beforeSwap d io s).2.slots ctx = s.lib.slots ctx
  /-- Until then the active table answers every packet as before. -/
  sameMatch : ∀ t, s.manager.active = some t → ∀ algorithm packet,
    t.matchPacket { d with aclClassify := classifyIn algorithm (beforeSwap d io s).2 } packet =
      t.matchPacket { d with aclClassify := classifyIn algorithm s.lib } packet
  /-- After the swap, destroying tables that were retired frees no context of the new
  one. -/
  survives : ∀ table, (beforeSwap d io s).1 = .ok table →
    ∀ new, (maybeReload d io s).1.manager.active = some new → ∀ ctx ∈ new.ownedAclCtxs,
      (maybeReload d io s).1.lib.slots ctx = (beforeSwap d io s).2.slots ctx ∧
        ∀ old, (maybeReload d io s).1.manager.retired = some old → ∀ lib,
          (destroyTable lib old).slots ctx = lib.slots ctx

/-- A task of the reload's compilation asks for a name under which a context of the
active table is registered. -/
def Collides (io : ReloadIo) (s : RuleState) : Prop :=
  io.requested = true ∧ ∃ config, io.loadConfig = .ok config ∧
    ∃ t, s.manager.active = some t ∧ ∃ ctx ∈ t.ownedAclCtxs,
      ∃ spec ∈ compileTasks io.compile config s.lib,
        (io.compile.chunk spec.chunkId).affinity = none ∧
          s.lib.named (chunkName spec.chunkId) = some ctx

/-- A table answers the same with two registries that agree on its contexts. -/
theorem matchPacket_congr {t : RuleTable} {lib' : AclLib}
    (h : ∀ ctx ∈ t.ownedAclCtxs, lib'.slots ctx = lib.slots ctx)
    (algorithm : List AclRule → AclInputData → BitVec 32) (packet : PacketMetadata) :
    t.matchPacket { d with aclClassify := classifyIn algorithm lib' } packet =
      t.matchPacket { d with aclClassify := classifyIn algorithm lib } packet := by
  have hloop : ∀ chunks : List AclChunk, (∀ chunk ∈ chunks, ∀ ctx, chunk.ctx = some ctx →
      lib'.slots ctx = lib.slots ctx) →
      t.matchLoop { d with aclClassify := classifyIn algorithm lib' } packet chunks =
        t.matchLoop { d with aclClassify := classifyIn algorithm lib } packet chunks := by
    intro chunks hchunks
    induction chunks with
    | nil => rfl
    | cons chunk chunks ih =>
        obtain ⟨hchunk, hrest⟩ := List.forall_mem_cons.mp hchunks
        have hclassify : chunk.ctx.bind (classifyIn algorithm lib') =
            chunk.ctx.bind (classifyIn algorithm lib) := by
          cases hctx : chunk.ctx with
          | none => rfl
          | some ctx =>
              rw [Option.bind_some, Option.bind_some, classifyIn, classifyIn,
                Registry.find_congr (hchunk ctx hctx)]
        rw [RuleTable.matchLoop, RuleTable.matchLoop, hclassify, ih hrest]
  rw [RuleTable.matchPacket_eq_matchLoop, RuleTable.matchPacket_eq_matchLoop]
  refine hloop _ fun chunk hchunk ctx hctx ↦ h ctx ?_
  exact List.mem_filterMap.mpr ⟨chunk, hchunk, hctx⟩

/-- A collision costs the active table a context. -/
theorem beforeSwap_slots_of_collides (hvalid : s.Valid) (hcollides : Collides io s) :
    ∃ t, s.manager.active = some t ∧ ∃ ctx ∈ t.ownedAclCtxs,
      (beforeSwap d io s).2.slots ctx ≠ s.lib.slots ctx := by
  obtain ⟨hreq, config, hload, t, ht, ctx, hctx, spec, hspec, haff, hnamed⟩ := hcollides
  refine ⟨t, ht, ctx, hctx, ?_⟩
  obtain ⟨c, hc⟩ := Registry.named_eq_some_iff.mp hnamed
  have hlib : compiledLib d io s.lib = (compileRuleTable d io.compile config s.lib).2 := by
    simp only [compiledLib, hreq, hload]
  rw [(beforeSwap_prepared d io hvalid.saturated).slots (s.lib.lt_next _ _ hc), hlib,
    compileRuleTable_slots d _ _ hvalid.saturated hc, if_pos ⟨spec, hspec, haff, rfl⟩, hc]
  exact (Option.some_ne_none _).symm

/-- Without a collision every context of the active table stays as it is. -/
theorem beforeSwap_slots_of_not_collides (hvalid : s.Valid) (hnot : ¬ Collides io s)
    {t : RuleTable} (ht : s.manager.active = some t) (hctx : ctx ∈ t.ownedAclCtxs) :
    (beforeSwap d io s).2.slots ctx = s.lib.slots ctx := by
  have hlt := hvalid.owned t (.inl ht) ctx hctx
  rw [(beforeSwap_prepared d io hvalid.saturated).slots hlt, compiledLib]
  split
  · rename_i config hreq hload
    cases hslot : s.lib.slots ctx with
    | none => exact (compileRuleTable_vacant d _ _ s.lib ctx).2 hlt hslot
    | some e =>
        obtain ⟨name, c⟩ := e
        rw [compileRuleTable_slots d _ _ hvalid.saturated hslot, if_neg]
        rintro ⟨spec, hspec, haff, rfl⟩
        exact hnot ⟨hreq, config, hload, t, ht, ctx, hctx, spec, hspec, haff,
          Registry.named_eq_some_iff.mpr ⟨c, hslot⟩⟩
  · rfl

/-- What is swapped in is independent of the tables retired before. -/
theorem swapped_survives (hvalid : s.Valid) {table : RuleTable}
    (hok : (beforeSwap d io s).1 = .ok table) {new : RuleTable}
    (hnew : (maybeReload d io s).1.manager.active = some new) {ctx : Nat}
    (hctx : ctx ∈ new.ownedAclCtxs) :
    (maybeReload d io s).1.lib.slots ctx = (beforeSwap d io s).2.slots ctx ∧
      ∀ old, (maybeReload d io s).1.manager.retired = some old → ∀ lib,
        (destroyTable lib old).slots ctx = lib.slots ctx := by
  have hprep := beforeSwap_prepared d io hvalid.saturated
  cases hswap : beforeSwap d io s with
  | mk r lib' =>
  rw [hswap] at hok hprep
  obtain rfl : r = .ok table := hok
  simp only [maybeReload, hswap] at hnew ⊢
  obtain rfl := Option.some.inj hnew
  have hge := ((hprep.fresh table rfl).2 ctx hctx).1
  have hother : ∀ t, s.manager.Holds t → ctx ∉ t.ownedAclCtxs :=
    fun t ht hmem ↦ absurd (hvalid.owned t ht ctx hmem) (Nat.not_lt.mpr hge)
  refine ⟨?_, fun old hold lib ↦ slots_foldl_rteAclFree (hother old (.inl hold))⟩
  cases hprev : s.manager.prevRetired with
  | none => rfl
  | some t => exact slots_foldl_rteAclFree (hother t (.inr (.inr hprev)))

/-- **When a reload is isolated from the active table.**  In every state the pipeline
reaches, a reload leaves the active table alone exactly when none of the tasks its
compilation starts asks for the name of a context of that table. -/
theorem reload_isolated_iff (h : (reloads d).Reach s) (io : ReloadIo) :
    Isolated d io s ↔ ¬ Collides io s := by
  have hvalid := reach_valid h
  constructor
  · intro hiso hcollides
    obtain ⟨t, ht, ctx, hctx, hne⟩ := beforeSwap_slots_of_collides (d := d) hvalid hcollides
    exact hne (hiso.untouched t ht ctx hctx)
  · intro hnot
    have huntouched : ∀ t, s.manager.active = some t → ∀ ctx ∈ t.ownedAclCtxs,
        (beforeSwap d io s).2.slots ctx = s.lib.slots ctx :=
      fun t ht ctx hctx ↦ beforeSwap_slots_of_not_collides hvalid hnot ht hctx
    exact
      { untouched := huntouched
        sameMatch := fun t ht algorithm packet ↦
          matchPacket_congr (huntouched t ht) algorithm packet
        survives := fun table hok new hnew ctx hctx ↦ swapped_survives hvalid hok hnew hctx }

end

/-- One group, of the TCP packets to port 80. -/
def webConfig : SpiConfig where
  filterGroups :=
    [{ name := "web", filters := [{ protocol := "tcp", destinationPort := some 80 }] }]

/-- A machine on which nothing fails. -/
def webIo : CompileIo := .untroubled (fun _ ↦ none) 4

/-- A reload that finds the configuration as `loadConfig` and the workers quiescent. -/
def webReload (loadConfig : Except String SpiConfig) : ReloadIo where
  requested := true
  loadConfig
  compile := webIo
  dpi := none
  forceQuit := false
  barrier := .quiesced

theorem startPipeline_web :
    (startPipeline RuleTable.tcpDpdk webIo webConfig none).isSome = true := by
  decide +kernel

/-- A pipeline behind its first reload, of the configuration it runs with. -/
def afterWebReload : Option RuleState :=
  (startPipeline RuleTable.tcpDpdk webIo webConfig none).map fun s ↦
    (maybeReload RuleTable.tcpDpdk (webReload (.ok webConfig)) s).1

/-- The first reload fails and frees the name of its context, so that the second one compiles
beside the active table. -/
theorem reload_isolated_secondReload : ∃ s, afterWebReload = some s ∧
    (beforeSwap RuleTable.tcpDpdk (webReload (.ok webConfig)) s).1.isOk = true ∧
      Isolated RuleTable.tcpDpdk (webReload (.ok webConfig)) s := by
  have hrun : (afterWebReload.map fun s ↦
      (s.manager.active.map RuleTable.ownedAclCtxs, (s.lib.slots 0).isSome,
        (beforeSwap RuleTable.tcpDpdk (webReload (.ok webConfig)) s).1.isOk)) =
      some (some [0], false, true) := by decide +kernel
  obtain ⟨s, hs, hvalues⟩ := Option.map_eq_some_iff.mp hrun
  obtain ⟨howned, hfreed, hcompiles⟩ : s.manager.active.map RuleTable.ownedAclCtxs = some [0] ∧
      (s.lib.slots 0).isSome = false ∧
        (beforeSwap RuleTable.tcpDpdk (webReload (.ok webConfig)) s).1.isOk = true := by
    simpa only [Prod.mk.injEq] using hvalues
  obtain ⟨start, hstart, rfl⟩ := Option.map_eq_some_iff.mp hs
  have hreach : (reloads RuleTable.tcpDpdk).Reach start := .init ⟨webIo, webConfig, none, hstart⟩
  refine ⟨_, hs, hcompiles,
    (reload_isolated_iff (hreach.step (a := webReload (.ok webConfig)) rfl) _).mpr ?_⟩
  rintro ⟨-, config, -, t, ht, ctx, hctx, spec, -, -, hnamed⟩
  obtain ⟨c, hc⟩ := Registry.named_eq_some_iff.mp hnamed
  rw [ht, Option.map_some, Option.some.injEq] at howned
  rw [howned] at hctx
  obtain rfl := List.mem_singleton.mp hctx
  rw [hc] at hfreed
  cases hfreed

/-- Reloading the configuration the pipeline runs with takes the context of the active
table away. -/
theorem reload_same_config_not_isolated : ∃ s,
    startPipeline RuleTable.tcpDpdk webIo webConfig none = some s ∧
      ¬ Isolated RuleTable.tcpDpdk (webReload (.ok webConfig)) s := by
  obtain ⟨s, hs⟩ := Option.isSome_iff_exists.mp startPipeline_web
  have hrun : ((startPipeline RuleTable.tcpDpdk webIo webConfig none).map fun s ↦
      (s.manager.active.map RuleTable.ownedAclCtxs, (s.lib.slots 0).isSome,
        ((beforeSwap RuleTable.tcpDpdk (webReload (.ok webConfig)) s).2.slots 0).isSome)) =
      some (some [0], true, false) := by decide +kernel
  rw [hs, Option.map_some, Option.some.injEq, Prod.mk.injEq, Prod.mk.injEq] at hrun
  obtain ⟨howned, hbefore, hafter⟩ := hrun
  obtain ⟨t, ht, hctxs⟩ := Option.map_eq_some_iff.mp howned
  refine ⟨s, hs, fun hiso ↦ ?_⟩
  rw [hiso.untouched t ht 0 (by rw [hctxs]; exact List.mem_singleton_self 0), hbefore] at hafter
  cases hafter

end DpdkSpi
