import DpdkSpi.Lib.System
import DpdkSpi.Rule.Compile

/-!
# What a compilation does to the ACL contexts

A chunk task works on one context: the one registered under the chunk's name, or a new
one.  It ends with the context built, or freed, or (when it does not get that far)
untouched (`compileChunk_cases`).  Between compilations every registered context is
full, so that a task which is handed an existing context cannot succeed; a compilation
that succeeds has therefore built all its contexts itself (`compileRuleTable_built`).
-/

namespace DpdkSpi

open Lib

variable {lib lib' : AclLib} {groups : List CompiledFilterGroup}

/-! ## Single calls -/

theorem slots_rteAclAddRules {ctx : Nat} {rules : List AclRule} {name : String} {c : AclCtx}
    (hctx : lib.slots ctx = some (name, c)) (h : rteAclAddRules lib ctx rules = .ok lib') :
    rules.all validPriority = true ∧ c.rules.length + rules.length ≤ c.maxRuleNum ∧
      lib'.next = lib.next ∧
      lib'.slots = Function.update lib.slots ctx
        (some (name, { c with rules := c.rules ++ rules })) := by
  have hfind : lib.find ctx = some c := Registry.find_eq_some_iff.mpr ⟨name, hctx⟩
  rw [rteAclAddRules, hfind] at h
  dsimp only at h
  split at h
  · rename_i hall
    split at h
    · cases h
    · rename_i hle
      obtain rfl := Except.ok.inj h
      exact ⟨hall, Nat.not_lt.mp hle, rfl, by simp [hctx]⟩
  · cases h

theorem slots_rteAclBuild {ctx : Nat} {name : String} {c : AclCtx}
    (hctx : lib.slots ctx = some (name, c)) :
    (rteAclBuild lib ctx).slots =
      Function.update lib.slots ctx (some (name, { c with trie := some c.rules })) := by
  simp [rteAclBuild, hctx]

/-- The context `rte_acl_create` returns: a registered one, or a new and empty one. -/
theorem rteAclCreate_ok {name : String} {maxRuleNum ctx : Nat} {failure : Option String}
    (h : rteAclCreate lib name maxRuleNum failure = .ok (ctx, lib')) :
    (∃ c, lib.slots ctx = some (name, c) ∧ lib' = lib) ∨
      (lib.named name = none ∧ ctx = lib.next ∧ lib'.next = lib.next + 1 ∧
        lib'.slots = Function.update lib.slots ctx (some (name, { maxRuleNum }))) := by
  unfold rteAclCreate at h
  split at h
  · rename_i ctx' hnamed
    obtain ⟨rfl, rfl⟩ := Prod.mk.inj (Except.ok.inj h)
    obtain ⟨c, hc⟩ := Registry.named_eq_some_iff.mp hnamed
    exact .inl ⟨c, hc, rfl⟩
  · rename_i hnamed
    split at h
    · cases h
    · obtain ⟨rfl, rfl⟩ := Prod.mk.inj (Except.ok.inj h)
      exact .inr ⟨hnamed, rfl, rfl, rfl⟩

/-! ## One task -/

/-- The handle a task works on: the one of its name, or the next new one. -/
def taskCtx (lib : AclLib) (chunkId : Nat) : Nat := (lib.named (chunkName chunkId)).getD lib.next

/-- What a task can do to the contexts. -/
inductive TaskEffect (groups : List CompiledFilterGroup) (spec : ChunkTaskSpec) (lib : AclLib) :
    Except String AclChunk → AclLib → Prop
  /-- It ends before it has a context. -/
  | none (e : String) : TaskEffect groups spec lib (.error e) lib
  /-- It fails and frees its context. -/
  | freed (e : String) (lib' : AclLib) :
      lib'.slots = Function.update lib.slots (taskCtx lib spec.chunkId) Option.none →
      lib.next ≤ lib'.next → TaskEffect groups spec lib (.error e) lib'
  /-- It builds its context, with the rules of the chunk behind those that were there. -/
  | built (c : AclCtx) (lib' : AclLib) :
      (lib.slots (taskCtx lib spec.chunkId) = some (chunkName spec.chunkId, c) ∨
        lib.named (chunkName spec.chunkId) = Option.none ∧
          c = { maxRuleNum := (chunkRules groups spec).length }) →
      c.rules.length + (chunkRules groups spec).length ≤ c.maxRuleNum →
      (chunkRules groups spec).all validPriority = true →
      lib'.slots = Function.update lib.slots (taskCtx lib spec.chunkId)
        (some (chunkName spec.chunkId, { c with
          rules := c.rules ++ chunkRules groups spec
          trie := some (c.rules ++ chunkRules groups spec) })) →
      lib.next ≤ lib'.next → taskCtx lib spec.chunkId < lib'.next →
      TaskEffect groups spec lib
        (.ok { ctx := some (taskCtx lib spec.chunkId), startGroupIndex := spec.startGroupIndex
               groupCount := spec.chunkCount }) lib'

/-- **What a task does.** -/
theorem compileChunk_cases (io : ChunkIo) (algorithm : AclClassifyAlg)
    (groups : List CompiledFilterGroup) (spec : ChunkTaskSpec) (lib : AclLib) :
    TaskEffect groups spec lib (compileChunk io algorithm groups spec lib).1
      (compileChunk io algorithm groups spec lib).2 := by
  unfold compileChunk
  split
  · exact .none _
  · split
    · exact .none _
    · rename_i ctx lib₁ hcreate
      -- the context there is after the call, whose ever it was before
      obtain ⟨c, hc, hctx, hslots, hnext, horigin⟩ : ∃ c,
          lib₁.slots ctx = some (chunkName spec.chunkId, c) ∧ ctx = taskCtx lib spec.chunkId ∧
          (∀ x, Function.update lib₁.slots ctx x = Function.update lib.slots ctx x) ∧
          lib.next ≤ lib₁.next ∧
          (lib.slots ctx = some (chunkName spec.chunkId, c) ∨
            lib.named (chunkName spec.chunkId) = none ∧
              c = { maxRuleNum := (chunkRules groups spec).length }) := by
        rcases rteAclCreate_ok hcreate with ⟨c, hc, rfl⟩ | ⟨hnamed, rfl, hnext, hslots⟩
        · refine ⟨c, hc, ?_, fun _ ↦ rfl, le_rfl, .inl hc⟩
          rw [taskCtx, Registry.named_eq_some_iff.mpr ⟨c, hc⟩, Option.getD_some]
        · refine ⟨{ maxRuleNum := (chunkRules groups spec).length },
            by rw [hslots, Function.update_self], ?_, fun x ↦ ?_, by omega, .inr ⟨hnamed, rfl⟩⟩
          · rw [taskCtx, hnamed, Option.getD_none]
          · rw [hslots, Function.update_idem]
      subst hctx
      split
      · refine .freed _ _ ?_ hnext
        rw [rteAclFree, Registry.slots_remove, hslots]
      · rename_i lib₂ hadd
        obtain ⟨hall, hroom, hnext₂, hslots₂⟩ := slots_rteAclAddRules hc hadd
        have hlt : taskCtx lib spec.chunkId < lib₂.next :=
          lib₂.lt_next _ _ (by rw [hslots₂, Function.update_self])
        split
        · refine .freed _ _ ?_ ?_
          · rw [rteAclFree, Registry.slots_remove, hslots₂, Function.update_idem, hslots]
          · rw [rteAclFree, Registry.next_remove, hnext₂]
            exact hnext
        · split
          · refine .freed _ _ ?_ ?_
            · rw [rteAclFree, Registry.slots_remove, slots_rteAclBuild (by
                rw [hslots₂, Function.update_self]), Function.update_idem, hslots₂,
                Function.update_idem, hslots]
            · rw [rteAclFree, Registry.next_remove, rteAclBuild, Registry.next_modify, hnext₂]
              exact hnext
          · refine .built c _ horigin hroom hall ?_ ?_ ?_
            · rw [slots_rteAclBuild (by rw [hslots₂, Function.update_self]), hslots₂,
                Function.update_idem, hslots]
            · rw [rteAclBuild, Registry.next_modify, hnext₂]
              exact hnext
            · rw [rteAclBuild, Registry.next_modify]
              exact hlt

/-! ## Full contexts -/

/-- Every registered context has as many rules as it can hold. -/
def Saturated (lib : AclLib) : Prop :=
  ∀ ctx name c, lib.slots ctx = some (name, c) → c.maxRuleNum ≤ c.rules.length

theorem saturated_empty : Saturated (Registry.empty : AclLib) := by
  intro ctx name c h
  cases h

/-- Changing one slot keeps the registry saturated when that slot is full or free. -/
theorem Saturated.update (hsat : Saturated lib) {ctx : Nat} {x : Option (String × AclCtx)}
    (hslots : lib'.slots = Function.update lib.slots ctx x)
    (hx : ∀ name c, x = some (name, c) → c.maxRuleNum ≤ c.rules.length) : Saturated lib' := by
  intro i name c h
  rw [hslots] at h
  by_cases hi : i = ctx
  · rw [hi, Function.update_self] at h
    exact hx name c h
  · rw [Function.update_of_ne hi] at h
    exact hsat i name c h

theorem Saturated.rteAclFree (hsat : Saturated lib) (ctx : Nat) :
    Saturated (rteAclFree lib ctx) :=
  hsat.update (Registry.slots_remove lib ctx) fun name c h ↦ by cases h

theorem Saturated.foldl_rteAclFree (hsat : Saturated lib) (ctxs : List Nat) :
    Saturated (ctxs.foldl DpdkSpi.rteAclFree lib) := by
  induction ctxs generalizing lib with
  | nil => exact hsat
  | cons ctx ctxs ih => exact ih (hsat.rteAclFree ctx)

theorem TaskEffect.saturated {spec : ChunkTaskSpec} {r : Except String AclChunk}
    (h : TaskEffect groups spec lib r lib') (hsat : Saturated lib) : Saturated lib' := by
  cases h with
  | none e => exact hsat
  | freed e lib' hslots _ => exact hsat.update hslots fun name c h ↦ by cases h
  | built c lib' horigin hroom hall hslots _ _ =>
      refine hsat.update hslots fun name' c' h ↦ ?_
      obtain ⟨rfl, rfl⟩ := Prod.mk.inj (Option.some.inj h)
      rw [List.length_append]
      rcases horigin with hold | ⟨-, rfl⟩
      · exact (hsat _ _ _ hold).trans (Nat.le_add_right _ _)
      · exact Nat.le_add_left _ _

theorem runTasks_saturated (io : Nat → ChunkIo) (algorithm : AclClassifyAlg)
    (groups : List CompiledFilterGroup) (specs : List ChunkTaskSpec) (hsat : Saturated lib) :
    Saturated (runTasks io algorithm groups specs lib).2 := by
  induction specs generalizing lib with
  | nil => exact hsat
  | cons spec specs ih => exact ih ((compileChunk_cases _ _ _ _ _).saturated hsat)

theorem compileBatches_saturated (io : Nat → ChunkIo) (algorithm : AclClassifyAlg)
    (groups : List CompiledFilterGroup) (bs : List (List ChunkTaskSpec)) (chunks : List AclChunk)
    (hsat : Saturated lib) : Saturated (compileBatches io algorithm groups bs chunks lib).2 := by
  induction bs generalizing lib chunks with
  | nil => exact hsat
  | cons batch bs ih =>
      rw [compileBatches]
      have hbatch := runTasks_saturated io algorithm groups batch hsat
      split
      · exact hbatch.foldl_rteAclFree _
      · exact ih _ hbatch

/-- A compilation, successful or not, leaves only full contexts behind. -/
theorem compileRuleTable_saturated (d : Dpdk) (io : CompileIo) (config : SpiConfig)
    (hsat : Saturated lib) : Saturated (compileRuleTable d io config lib).2 := by
  unfold compileRuleTable
  split
  · exact hsat
  · dsimp only
    split
    · exact compileBatches_saturated _ _ _ _ _ hsat
    · exact compileBatches_saturated _ _ _ _ _ hsat

/-! ## Successful compilations -/

/-- The chunk has a context in which exactly the rules of its groups are built. -/
structure ChunkBuilt (lib : AclLib) (groups : List CompiledFilterGroup) (spec : ChunkTaskSpec)
    (chunk : AclChunk) : Prop where
  trie_eq : ∃ ctx, chunk.ctx = some ctx ∧
    (lib.find ctx).bind AclCtx.trie = some (chunkRules groups spec)
  valid : (chunkRules groups spec).all validPriority = true

theorem ChunkBuilt.mono {spec : ChunkTaskSpec} {chunk : AclChunk}
    (h : ChunkBuilt lib groups spec chunk)
    (hkeep : ∀ ctx < lib.next, lib'.slots ctx = lib.slots ctx) :
    ChunkBuilt lib' groups spec chunk := by
  obtain ⟨ctx, hctx, htrie⟩ := h.trie_eq
  obtain ⟨c, hfind, -⟩ := Option.bind_eq_some_iff.mp htrie
  obtain ⟨name, hslot⟩ := Registry.find_eq_some_iff.mp hfind
  refine ⟨⟨ctx, hctx, ?_⟩, h.valid⟩
  rw [Registry.find_congr (hkeep ctx (lib.lt_next ctx _ hslot))]
  exact htrie

/-- Every built chunk is that of a task. -/
theorem exists_spec_of_mem {specs : List ChunkTaskSpec} {chunks : List AclChunk}
    (h : List.Forall₂ (ChunkBuilt lib groups) specs chunks) {chunk : AclChunk}
    (hchunk : chunk ∈ chunks) : ∃ spec ∈ specs, ChunkBuilt lib groups spec chunk := by
  induction h with
  | nil => exact absurd hchunk List.not_mem_nil
  | @cons spec head specs chunks hbuilt _ ih =>
      rcases List.mem_cons.mp hchunk with rfl | hmem
      · exact ⟨spec, List.mem_cons_self, hbuilt⟩
      · obtain ⟨spec', hspec', hbuilt'⟩ := ih hmem
        exact ⟨spec', List.mem_cons_of_mem _ hspec', hbuilt'⟩

/-- Built chunks have registered contexts. -/
theorem chunkBuilt_lt_next {specs : List ChunkTaskSpec} {chunks : List AclChunk}
    (h : List.Forall₂ (ChunkBuilt lib groups) specs chunks) :
    ∀ chunk ∈ chunks, ∀ ctx, chunk.ctx = some ctx → ctx < lib.next := by
  intro chunk hchunk ctx hctx
  obtain ⟨spec, -, hbuilt⟩ := exists_spec_of_mem h hchunk
  obtain ⟨ctx', hctx', htrie⟩ := hbuilt.trie_eq
  obtain ⟨c, hfind, -⟩ := Option.bind_eq_some_iff.mp htrie
  obtain ⟨name, hslot⟩ := Registry.find_eq_some_iff.mp hfind
  obtain rfl : ctx' = ctx := Option.some.inj (hctx'.symm.trans hctx)
  exact lib.lt_next _ _ hslot

/-- In a saturated registry a task that succeeds has built a new context. -/
theorem TaskEffect.ok_fresh {spec : ChunkTaskSpec} {chunk : AclChunk}
    (h : TaskEffect groups spec lib (.ok chunk) lib') (hsat : Saturated lib)
    (hrules : chunkRules groups spec ≠ []) :
    chunk.ctx = some lib.next ∧ lib.next < lib'.next ∧
      (∀ ctx < lib.next, lib'.slots ctx = lib.slots ctx) ∧ ChunkBuilt lib' groups spec chunk := by
  have hpos : 0 < (chunkRules groups spec).length := List.length_pos_iff.mpr hrules
  cases h with
  | built c lib' horigin hroom hall hslots hnext hlt =>
      rcases horigin with hold | ⟨hnamed, rfl⟩
      · -- an existing context has no room left
        have hfull := hsat _ _ _ hold
        omega
      · have hctx : taskCtx lib spec.chunkId = lib.next := by
          rw [taskCtx, hnamed, Option.getD_none]
        rw [hctx] at hslots hlt ⊢
        refine ⟨rfl, hlt, fun ctx hlt' ↦ ?_, ⟨⟨lib.next, rfl, ?_⟩, hall⟩⟩
        · rw [hslots, Function.update_of_ne (Nat.ne_of_lt hlt')]
        · rw [Registry.find, hslots, Function.update_self]
          rfl

/-- The tasks of a batch that is collected without failure. -/
theorem runTasks_ok {io : Nat → ChunkIo} {algorithm : AclClassifyAlg}
    {specs : List ChunkTaskSpec} (hsat : Saturated lib)
    (hrules : ∀ spec ∈ specs, chunkRules groups spec ≠ []) {chunks chunks' : List AclChunk}
    (h : collectChunks (runTasks io algorithm groups specs lib).1 chunks = .ok chunks') :
    lib.next ≤ (runTasks io algorithm groups specs lib).2.next ∧
      (∀ ctx < lib.next,
        (runTasks io algorithm groups specs lib).2.slots ctx = lib.slots ctx) ∧
      ∃ new, chunks' = chunks ++ new ∧
        (∀ chunk ∈ new, ∀ ctx, chunk.ctx = some ctx → lib.next ≤ ctx) ∧
        List.Forall₂ (ChunkBuilt (runTasks io algorithm groups specs lib).2 groups) specs new := by
  induction specs generalizing lib chunks with
  | nil =>
      obtain rfl := Except.ok.inj h
      exact ⟨le_rfl, fun _ _ ↦ rfl, [], by simp, by simp, .nil⟩
  | cons spec specs ih =>
      have heffect := compileChunk_cases (io spec.chunkId) algorithm groups spec lib
      rw [runTasks] at h ⊢
      dsimp only at h ⊢
      generalize hr : compileChunk (io spec.chunkId) algorithm groups spec lib = r at h heffect ⊢
      obtain ⟨result, lib₁⟩ := r
      cases result with
      | error e => cases h
      | ok chunk =>
          obtain ⟨hctx, hnext, hkeep, hbuilt⟩ :=
            heffect.ok_fresh hsat (hrules spec List.mem_cons_self)
          obtain ⟨hnext', hkeep', new, hnew, hids, hall⟩ := ih (heffect.saturated hsat)
            (fun spec' hmem ↦ hrules spec' (List.mem_cons_of_mem _ hmem)) h
          dsimp only at hnext hkeep hbuilt hnext' hkeep' hids hall ⊢
          refine ⟨by omega, fun ctx hlt ↦ ?_, chunk :: new, ?_, ?_, .cons ?_ hall⟩
          · rw [hkeep' ctx (by omega), hkeep ctx hlt]
          · rw [hnew, List.append_assoc, List.singleton_append]
          · intro c hc ctx hcctx
            rcases List.mem_cons.mp hc with rfl | hc
            · exact (Option.some.inj (hctx.symm.trans hcctx)).le
            · exact hnext.le.trans (hids c hc ctx hcctx)
          · exact hbuilt.mono hkeep'

/-- The batches of a compilation that succeeds. -/
theorem compileBatches_ok {io : Nat → ChunkIo} {algorithm : AclClassifyAlg}
    {bs : List (List ChunkTaskSpec)} (hsat : Saturated lib)
    (hrules : ∀ batch ∈ bs, ∀ spec ∈ batch, chunkRules groups spec ≠ [])
    {chunks chunks' : List AclChunk}
    (h : (compileBatches io algorithm groups bs chunks lib).1 = .ok chunks') :
    lib.next ≤ (compileBatches io algorithm groups bs chunks lib).2.next ∧
      (∀ ctx < lib.next,
        (compileBatches io algorithm groups bs chunks lib).2.slots ctx = lib.slots ctx) ∧
      ∃ new, chunks' = chunks ++ new ∧
        (∀ chunk ∈ new, ∀ ctx, chunk.ctx = some ctx → lib.next ≤ ctx) ∧
        List.Forall₂ (ChunkBuilt (compileBatches io algorithm groups bs chunks lib).2 groups)
          bs.flatten new := by
  induction bs generalizing lib chunks with
  | nil =>
      obtain rfl := Except.ok.inj h
      exact ⟨le_rfl, fun _ _ ↦ rfl, [], by simp, by simp, .nil⟩
  | cons batch bs ih =>
      rw [compileBatches] at h ⊢
      cases hcollect : collectChunks (runTasks io algorithm groups batch lib).1 chunks with
      | error e =>
          simp only [hcollect] at h
          cases h
      | ok collected =>
          simp only [hcollect] at h ⊢
          obtain ⟨hnext, hkeep, new, rfl, hids, hall⟩ :=
            runTasks_ok hsat (hrules batch List.mem_cons_self) hcollect
          obtain ⟨hnext', hkeep', new', rfl, hids', hall'⟩ :=
            ih (runTasks_saturated io algorithm groups batch hsat)
              (fun b hb ↦ hrules b (List.mem_cons_of_mem _ hb)) h
          refine ⟨by omega, fun ctx hlt ↦ ?_, new ++ new', by rw [List.append_assoc], ?_, ?_⟩
          · rw [hkeep' ctx (by omega), hkeep ctx hlt]
          · intro chunk hc ctx hctx
            rcases List.mem_append.mp hc with hc | hc
            · exact hids chunk hc ctx hctx
            · exact hnext.trans (hids' chunk hc ctx hctx)
          · rw [List.flatten_cons]
            -- later batches leave the contexts of this one alone
            exact List.rel_append (hall.imp fun _ _ hbuilt ↦ hbuilt.mono hkeep') hall'

theorem mem_taskSpecs {spec : ChunkTaskSpec} (h : spec ∈ taskSpecs groups) :
    chunkRules groups spec ≠ [] := by
  obtain ⟨i, hi, rfl⟩ := List.mem_mapIdx.mp h
  have hmem := List.getElem_mem hi
  rw [List.mem_filter, Bool.not_eq_true', List.isEmpty_eq_false_iff] at hmem
  exact hmem.2

/-- **A compilation that succeeds** has prepared the groups of its table, and has built
a new context for each chunk of them that has a rule, without touching an old one. -/
theorem compileRuleTable_built {d : Dpdk} {io : CompileIo} {config : SpiConfig}
    (hsat : Saturated lib) {table : RuleTable}
    (h : compileRuleTable d io config lib = (.ok table, lib')) :
    ∃ algorithm groups, prepareGroups io config = .ok (algorithm, groups) ∧
      table.groups = groups ∧
      List.Forall₂ (ChunkBuilt lib' groups) (taskSpecs groups) table.aclChunks ∧
      (∀ ctx ∈ table.ownedAclCtxs, lib.next ≤ ctx) ∧
      ∀ ctx < lib.next, lib'.slots ctx = lib.slots ctx := by
  unfold compileRuleTable at h
  split at h
  · cases h
  · rename_i algorithm groups hprepare
    generalize hthreads : clampThreads config.maxAclBuildThreads io.cpuCount = threads at h
    have hpos : 1 ≤ threads := by
      rw [← hthreads]
      exact one_le_clampThreads _ _
    dsimp only at h
    split at h
    · cases h
    · rename_i chunks hchunks
      obtain ⟨htable, rfl⟩ := Prod.mk.inj h
      obtain rfl := Except.ok.inj htable
      have hflat := flatten_batches hpos (taskSpecs groups).length (taskSpecs groups) le_rfl
      have hrules : ∀ batch ∈ batches threads (taskSpecs groups).length (taskSpecs groups),
          ∀ spec ∈ batch, chunkRules groups spec ≠ [] := by
        intro batch hb spec hs
        refine mem_taskSpecs ?_
        rw [← hflat]
        exact List.mem_flatten_of_mem hb hs
      obtain ⟨-, hkeep, new, hnew, hids, hall⟩ := compileBatches_ok hsat hrules hchunks
      rw [List.nil_append] at hnew
      rw [hflat] at hall
      subst hnew
      refine ⟨algorithm, groups, hprepare, rfl, hall, fun ctx hctx ↦ ?_, hkeep⟩
      obtain ⟨chunk, hc, hcctx⟩ := List.mem_filterMap.mp hctx
      exact hids chunk hc ctx hcctx

/-- The contexts of a compiled table are registered, under handles that were not given
out before. -/
theorem compileRuleTable_ownedAclCtxs {d : Dpdk} {io : CompileIo} {config : SpiConfig}
    (hsat : Saturated lib) {table : RuleTable}
    (h : compileRuleTable d io config lib = (.ok table, lib')) :
    ∀ ctx ∈ table.ownedAclCtxs, lib.next ≤ ctx ∧ ctx < lib'.next := by
  obtain ⟨_, _, -, -, hbuilt, hids, -⟩ := compileRuleTable_built hsat h
  intro ctx hctx
  obtain ⟨chunk, hchunk, hcctx⟩ := List.mem_filterMap.mp hctx
  exact ⟨hids ctx hctx, chunkBuilt_lt_next hbuilt chunk hchunk ctx hcctx⟩

/-! ## Reachable registries -/

/-- An operation on the registry: a compilation, or the destruction of a table. -/
inductive AclOp where
  | compile (d : Dpdk) (io : CompileIo) (config : SpiConfig)
  | destroy (table : RuleTable)

/-- The registry after an operation. -/
def aclApply (lib : AclLib) : AclOp → AclLib
  | .compile d io config => (compileRuleTable d io config lib).2
  | .destroy table => destroyTable lib table

/-- The runs of the process as far as the registry is concerned. -/
def aclRuns : System AclLib AclOp := System.ofFun Registry.empty aclApply

theorem reach_saturated (h : aclRuns.Reach lib) : Saturated lib := by
  refine System.Reach.invariant (I := Saturated) ?_ ?_ h
  · rintro lib rfl
    exact saturated_empty
  · rintro lib op lib' hsat rfl
    cases op with
    | compile d io config => exact compileRuleTable_saturated d io config hsat
    | destroy table => exact hsat.foldl_rteAclFree _

end DpdkSpi
