import DpdkSpi.Rule.Contexts

/-!
# Which contexts a compilation touches

A chunk task asks for the context of its own name and works on what it is given.  When
a context of that name is registered already, from whatever table, the task cannot add
its rules to it, fails and frees it.  This file says exactly which of the contexts that
are registered before a compilation are gone behind it (`compileRuleTable_slots`): those
with the name of a task that was started and got past its affinity call.
-/

namespace DpdkSpi

open Lib

variable {lib lib' : AclLib} {groups : List CompiledFilterGroup} {ctx : Nat} {name : String}
  {c : AclCtx}

theorem chunkName_injective {a b : Nat} (h : chunkName a = chunkName b) : a = b := by
  have hlist : (chunkName a).toList = (chunkName b).toList := by rw [h]
  simp only [chunkName, toString, String.toList_append, Nat.toList_repr] at hlist
  have hdigits := List.append_cancel_left hlist
  rw [← Nat.ofDigitChars_ten_toDigits (n := a), hdigits, Nat.ofDigitChars_ten_toDigits]

/-! ## The handle of a task -/

/-- A task works on a context of its own name or on a new handle. -/
theorem taskCtx_cases (lib : AclLib) (chunkId : Nat) :
    (∃ c, lib.slots (taskCtx lib chunkId) = some (chunkName chunkId, c)) ∨
      taskCtx lib chunkId = lib.next := by
  cases hnamed : lib.named (chunkName chunkId) with
  | none => exact .inr (by rw [taskCtx, hnamed, Option.getD_none])
  | some i =>
      rw [taskCtx, hnamed, Option.getD_some]
      exact .inl (Registry.named_eq_some_iff.mp hnamed)

theorem slots_next (lib : AclLib) : lib.slots lib.next = none := by
  cases h : lib.slots lib.next with
  | none => rfl
  | some e => exact absurd (lib.lt_next _ e h) (Nat.lt_irrefl _)

/-- A task leaves contexts of other names alone, and handles that were given up. -/
theorem ne_taskCtx {chunkId : Nat} (hlt : ctx < lib.next)
    (h : ∀ c, lib.slots ctx ≠ some (chunkName chunkId, c)) : ctx ≠ taskCtx lib chunkId := by
  rintro rfl
  rcases taskCtx_cases lib chunkId with ⟨c, hc⟩ | hnext
  · exact h c hc
  · exact absurd hnext (Nat.ne_of_lt hlt)

theorem TaskEffect.slots_of_ne {spec : ChunkTaskSpec} {r : Except String AclChunk}
    (h : TaskEffect groups spec lib r lib') (hne : ctx ≠ taskCtx lib spec.chunkId) :
    lib'.slots ctx = lib.slots ctx := by
  cases h with
  | none e => rfl
  | freed e lib' hslots _ => rw [hslots, Function.update_of_ne hne]
  | built c lib' _ _ _ hslots _ _ => rw [hslots, Function.update_of_ne hne]

theorem TaskEffect.next_le {spec : ChunkTaskSpec} {r : Except String AclChunk}
    (h : TaskEffect groups spec lib r lib') : lib.next ≤ lib'.next := by
  cases h with
  | none e => exact le_rfl
  | freed e lib' _ hnext => exact hnext
  | built c lib' _ _ _ _ hnext _ => exact hnext

/-- Other names keep their handles. -/
theorem TaskEffect.named_of_ne {spec : ChunkTaskSpec} {r : Except String AclChunk}
    (h : TaskEffect groups spec lib r lib') (hne : chunkName spec.chunkId ≠ name) :
    lib'.named name = lib.named name := by
  refine Registry.named_congr fun id ↦ ?_
  by_cases hid : id = taskCtx lib spec.chunkId
  · -- the slot of the task has its name, or none, before and after
    have hbefore : ¬ ∃ o, lib.slots id = some (name, o) := by
      rintro ⟨o, ho⟩
      rcases taskCtx_cases lib spec.chunkId with ⟨c, hc⟩ | hnext
      · rw [hid, hc, Option.some.injEq, Prod.mk.injEq] at ho
        exact hne ho.1
      · rw [hid, hnext, slots_next] at ho
        cases ho
    have hafter : ¬ ∃ o, lib'.slots id = some (name, o) := by
      cases h with
      | none e => exact hbefore
      | freed e lib' hslots _ => simp [hslots, hid]
      | built c lib' _ _ _ hslots _ _ => simp [hslots, hid, hne]
    exact iff_of_false hafter hbefore
  · rw [h.slots_of_ne hid]

/-! ## One task -/

/-- Whether the task of a chunk will succeed: its name is free and nothing else is in
its way. -/
def taskSucceeds (io : ChunkIo) (algorithm : AclClassifyAlg) (groups : List CompiledFilterGroup)
    (spec : ChunkTaskSpec) (lib : AclLib) : Bool :=
  io.affinity.isNone && (lib.named (chunkName spec.chunkId)).isNone && io.create.isNone &&
    (chunkRules groups spec).all validPriority && io.build.isNone &&
    (applyAclClassifyAlgorithm algorithm io.classifier).isNone

/-- A full context takes no further rule. -/
theorem rteAclAddRules_full {rules : List AclRule} (hctx : lib.slots ctx = some (name, c))
    (hfull : c.maxRuleNum ≤ c.rules.length) (hrules : rules ≠ []) :
    ∃ code, rteAclAddRules lib ctx rules = .error code := by
  have hpos : 0 < rules.length := List.length_pos_iff.mpr hrules
  rw [rteAclAddRules, Registry.find_eq_some_iff.mpr ⟨name, hctx⟩]
  dsimp only
  split
  · rw [if_pos (by omega)]
    exact ⟨12, rfl⟩
  · exact ⟨22, rfl⟩

/-- A task whose name is taken in a registry of full contexts frees the context of that
name. -/
theorem compileChunk_taken {io : ChunkIo} (algorithm : AclClassifyAlg) {spec : ChunkTaskSpec}
    (hsat : Saturated lib) (hrules : chunkRules groups spec ≠ []) (haff : io.affinity = none)
    (hctx : lib.slots ctx = some (chunkName spec.chunkId, c)) :
    ∃ e, compileChunk io algorithm groups spec lib = (.error e, rteAclFree lib ctx) := by
  have hcreate : rteAclCreate lib (chunkName spec.chunkId) (chunkRules groups spec).length
      io.create = .ok (ctx, lib) := by
    unfold rteAclCreate
    split
    · rename_i ctx' hnamed
      rw [Registry.named_eq_some_iff.mpr ⟨c, hctx⟩, Option.some.injEq] at hnamed
      rw [hnamed]
    · rename_i hnamed
      exact absurd hctx (Registry.named_eq_none_iff.mp hnamed ctx c)
  obtain ⟨code, hadd⟩ := rteAclAddRules_full hctx (hsat _ _ _ hctx) hrules
  rw [compileChunk, haff]
  simp only [hcreate, hadd]
  exact ⟨_, rfl⟩

/-- **A registered context behind a task**: gone if the task got past its affinity call
and has its name, unchanged otherwise. -/
theorem compileChunk_slots (io : ChunkIo) (algorithm : AclClassifyAlg) {spec : ChunkTaskSpec}
    (hsat : Saturated lib) (hrules : chunkRules groups spec ≠ [])
    (hctx : lib.slots ctx = some (name, c)) :
    (compileChunk io algorithm groups spec lib).2.slots ctx =
      if io.affinity = none ∧ chunkName spec.chunkId = name then none else some (name, c) := by
  split
  · rename_i h
    obtain ⟨haff, rfl⟩ := h
    obtain ⟨e, he⟩ := compileChunk_taken algorithm hsat hrules haff hctx
    rw [he, rteAclFree, Registry.slots_remove, Function.update_self]
  · rename_i h
    cases haff : io.affinity with
    | some reason =>
        rw [compileChunk, haff]
        exact hctx
    | none =>
        have hname : chunkName spec.chunkId ≠ name := fun hn ↦ h ⟨haff, hn⟩
        have hne : ctx ≠ taskCtx lib spec.chunkId := by
          refine ne_taskCtx (lib.lt_next _ _ hctx) fun c' hc' ↦ hname ?_
          rw [hctx, Option.some.injEq, Prod.mk.injEq] at hc'
          exact hc'.1.symm
        rw [(compileChunk_cases io algorithm groups spec lib).slots_of_ne hne, hctx]

/-- A handle that was given up stays so. -/
theorem compileChunk_vacant (io : ChunkIo) (algorithm : AclClassifyAlg) (spec : ChunkTaskSpec)
    (hlt : ctx < lib.next) (hctx : lib.slots ctx = none) :
    (compileChunk io algorithm groups spec lib).2.slots ctx = none := by
  have hne : ctx ≠ taskCtx lib spec.chunkId := ne_taskCtx hlt fun c hc ↦ by
    rw [hctx] at hc
    cases hc
  rw [(compileChunk_cases io algorithm groups spec lib).slots_of_ne hne, hctx]

theorem rteAclCreate_free {maxRuleNum : Nat} {failure : Option String}
    (hnamed : lib.named name = none) : rteAclCreate lib name maxRuleNum failure =
      match failure with
      | some reason => .error reason
      | none => .ok (lib.next, lib.register name { maxRuleNum } hnamed) := by
  unfold rteAclCreate
  split
  · rename_i ctx hsome
    rw [hnamed] at hsome
    cases hsome
  · rfl

/-- A new context takes the rules it was created for, unless a priority is bad. -/
theorem rteAclAddRules_new {rules : List AclRule} (hnamed : lib.named name = none) :
    rteAclAddRules (lib.register name { maxRuleNum := rules.length } hnamed) lib.next rules =
      if rules.all validPriority then
        .ok ((lib.register name { maxRuleNum := rules.length } hnamed).modify lib.next
          fun c ↦ { c with rules := c.rules ++ rules })
      else .error 22 := by
  have hfind : (lib.register name { maxRuleNum := rules.length } hnamed).find lib.next =
      some { maxRuleNum := rules.length } := by simp [Registry.find]
  rw [rteAclAddRules, hfind]
  simp

theorem compileChunk_ok_iff {io : ChunkIo} {algorithm : AclClassifyAlg} {spec : ChunkTaskSpec}
    (hsat : Saturated lib) (hrules : chunkRules groups spec ≠ []) :
    (∃ chunk, (compileChunk io algorithm groups spec lib).1 = .ok chunk) ↔
      taskSucceeds io algorithm groups spec lib = true := by
  cases haff : io.affinity with
  | some reason => simp [compileChunk, taskSucceeds, haff]
  | none =>
      cases hnamed : lib.named (chunkName spec.chunkId) with
      | some ctx =>
          obtain ⟨c, hc⟩ := Registry.named_eq_some_iff.mp hnamed
          obtain ⟨e, he⟩ := compileChunk_taken algorithm hsat hrules haff hc
          simp [taskSucceeds, he, hnamed]
      | none =>
          rw [compileChunk, taskSucceeds, haff, rteAclCreate_free hnamed, hnamed]
          cases hcreate : io.create with
          | some reason => simp
          | none =>
              simp only [rteAclAddRules_new hnamed]
              cases hvalid : (chunkRules groups spec).all validPriority with
              | false => simp
              | true =>
                  cases hbuild : io.build with
                  | some code => simp
                  | none =>
                      cases hclass : applyAclClassifyAlgorithm algorithm io.classifier <;> simp

/-! ## The tasks of a batch -/

/-- Some task of the list gets past its affinity call and has the name. -/
def Hits (io : Nat → ChunkIo) (specs : List ChunkTaskSpec) (name : String) : Prop :=
  ∃ spec ∈ specs, (io spec.chunkId).affinity = none ∧ chunkName spec.chunkId = name

instance (io : Nat → ChunkIo) (specs : List ChunkTaskSpec) (name : String) :
    Decidable (Hits io specs name) :=
  inferInstanceAs (Decidable (∃ spec ∈ specs, _))

theorem hits_cons {io : Nat → ChunkIo} {spec : ChunkTaskSpec} {specs : List ChunkTaskSpec} :
    Hits io (spec :: specs) name ↔
      ((io spec.chunkId).affinity = none ∧ chunkName spec.chunkId = name) ∨ Hits io specs name := by
  simp [Hits]

theorem hits_append {io : Nat → ChunkIo} {specs specs' : List ChunkTaskSpec} :
    Hits io (specs ++ specs') name ↔ Hits io specs name ∨ Hits io specs' name := by
  simp only [Hits, List.mem_append, or_and_right, exists_or]

section Batch

variable {io : Nat → ChunkIo} {algorithm : AclClassifyAlg}

theorem runTasks_vacant (io : Nat → ChunkIo) (algorithm : AclClassifyAlg)
    (specs : List ChunkTaskSpec) (hlt : ctx < lib.next) (hctx : lib.slots ctx = none) :
    (runTasks io algorithm groups specs lib).2.slots ctx = none := by
  induction specs generalizing lib with
  | nil => exact hctx
  | cons spec specs ih =>
      rw [runTasks]
      exact ih (hlt.trans_le (compileChunk_cases _ _ _ _ _).next_le)
        (compileChunk_vacant _ _ _ hlt hctx)

/-- A registered context behind a batch. -/
theorem runTasks_slots (io : Nat → ChunkIo) (algorithm : AclClassifyAlg)
    {specs : List ChunkTaskSpec} (hsat : Saturated lib)
    (hrules : ∀ spec ∈ specs, chunkRules groups spec ≠ [])
    (hctx : lib.slots ctx = some (name, c)) :
    (runTasks io algorithm groups specs lib).2.slots ctx =
      if Hits io specs name then none else some (name, c) := by
  induction specs generalizing lib with
  | nil =>
      rw [if_neg (by simp [Hits])]
      exact hctx
  | cons spec specs ih =>
      obtain ⟨hrule, hrest⟩ := List.forall_mem_cons.mp hrules
      have hslots := compileChunk_slots (io spec.chunkId) algorithm hsat hrule hctx
      have heffect := compileChunk_cases (io spec.chunkId) algorithm groups spec lib
      rw [runTasks]
      by_cases hit : (io spec.chunkId).affinity = none ∧ chunkName spec.chunkId = name
      · rw [if_pos hit] at hslots
        rw [if_pos (hits_cons.mpr (.inl hit))]
        exact runTasks_vacant _ _ _ ((lib.lt_next _ _ hctx).trans_le heffect.next_le) hslots
      · rw [if_neg hit] at hslots
        have hiff : Hits io (spec :: specs) name ↔ Hits io specs name := by
          rw [hits_cons, or_iff_right hit]
        simp only [hiff]
        exact ih (heffect.saturated hsat) hrest hslots

/-- Names of other chunks keep their handles. -/
theorem runTasks_named {specs : List ChunkTaskSpec}
    (hne : ∀ spec ∈ specs, chunkName spec.chunkId ≠ name) :
    (runTasks io algorithm groups specs lib).2.named name = lib.named name := by
  induction specs generalizing lib with
  | nil => rfl
  | cons spec specs ih =>
      obtain ⟨hspec, hrest⟩ := List.forall_mem_cons.mp hne
      rw [runTasks]
      exact (ih hrest).trans ((compileChunk_cases _ _ _ _ _).named_of_ne hspec)

/-- Whether a task succeeds depends on the registry through its name only. -/
theorem taskSucceeds_congr {spec : ChunkTaskSpec} {io : ChunkIo}
    (h : lib'.named (chunkName spec.chunkId) = lib.named (chunkName spec.chunkId)) :
    taskSucceeds io algorithm groups spec lib' = taskSucceeds io algorithm groups spec lib := by
  rw [taskSucceeds, taskSucceeds, h]

/-- A batch of different chunks succeeds when each task would succeed on its own. -/
theorem runTasks_all_ok_iff {specs : List ChunkTaskSpec} (hsat : Saturated lib)
    (hrules : ∀ spec ∈ specs, chunkRules groups spec ≠ [])
    (hids : (specs.map ChunkTaskSpec.chunkId).Nodup) :
    (∀ r ∈ (runTasks io algorithm groups specs lib).1, ∃ chunk, r = .ok chunk) ↔
      (specs.all fun spec ↦ taskSucceeds (io spec.chunkId) algorithm groups spec lib) = true := by
  induction specs generalizing lib with
  | nil => simp [runTasks]
  | cons spec specs ih =>
      obtain ⟨hrule, hrest⟩ := List.forall_mem_cons.mp hrules
      rw [List.map_cons, List.nodup_cons] at hids
      have heffect := compileChunk_cases (io spec.chunkId) algorithm groups spec lib
      have hsame : ∀ spec' ∈ specs, taskSucceeds (io spec'.chunkId) algorithm groups spec'
          (compileChunk (io spec.chunkId) algorithm groups spec lib).2 =
            taskSucceeds (io spec'.chunkId) algorithm groups spec' lib := by
        intro spec' hmem
        refine taskSucceeds_congr (heffect.named_of_ne fun hname ↦ hids.1 ?_)
        rw [chunkName_injective hname]
        exact List.mem_map_of_mem hmem
      rw [runTasks, List.forall_mem_cons, compileChunk_ok_iff hsat hrule,
        ih (heffect.saturated hsat) hrest hids.2, List.all_cons, Bool.and_eq_true]
      refine and_congr Iff.rfl ?_
      simp only [List.all_eq_true]
      exact forall₂_congr fun spec' hmem ↦ by rw [hsame spec' hmem]

theorem collectChunks_ok_iff {results : List (Except String AclChunk)} {chunks : List AclChunk} :
    (∃ chunks', collectChunks results chunks = .ok chunks') ↔
      ∀ r ∈ results, ∃ chunk, r = .ok chunk := by
  induction results generalizing chunks with
  | nil => simp [collectChunks]
  | cons r results ih =>
      cases r with
      | error e => simp [collectChunks]
      | ok chunk =>
          rw [collectChunks, ih, List.forall_mem_cons, and_iff_right ⟨chunk, rfl⟩]

/-- The chunks in hand when the collection ends early. -/
theorem mem_collected {results : List (Except String AclChunk)} {chunks collected : List AclChunk}
    {e : String} (h : collectChunks results chunks = .error (e, collected)) {chunk : AclChunk}
    (hmem : chunk ∈ collected) : chunk ∈ chunks ∨ .ok chunk ∈ results := by
  induction results generalizing chunks with
  | nil => cases h
  | cons r results ih =>
      cases r with
      | error e' =>
          obtain ⟨-, rfl⟩ := Prod.mk.inj (Except.error.inj h)
          exact .inl hmem
      | ok chunk' =>
          rcases ih h with hc | hr
          · rcases List.mem_append.mp hc with hc | hc
            · exact .inl hc
            · rw [List.mem_singleton.mp hc]
              exact .inr List.mem_cons_self
          · exact .inr (List.mem_cons_of_mem _ hr)

/-- Every chunk a batch builds has a new context. -/
theorem runTasks_ok_new {specs : List ChunkTaskSpec} (hsat : Saturated lib)
    (hrules : ∀ spec ∈ specs, chunkRules groups spec ≠ []) {chunk : AclChunk}
    (h : .ok chunk ∈ (runTasks io algorithm groups specs lib).1) :
    ∃ ctx, chunk.ctx = some ctx ∧ lib.next ≤ ctx := by
  induction specs generalizing lib with
  | nil => cases h
  | cons spec specs ih =>
      obtain ⟨hrule, hrest⟩ := List.forall_mem_cons.mp hrules
      have heffect := compileChunk_cases (io spec.chunkId) algorithm groups spec lib
      rw [runTasks, List.mem_cons] at h
      rcases h with h | h
      · rw [← h] at heffect
        exact ⟨lib.next, (heffect.ok_fresh hsat hrule).1, le_rfl⟩
      · obtain ⟨ctx, hctx, hle⟩ := ih (heffect.saturated hsat) hrest h
        exact ⟨ctx, hctx, heffect.next_le.trans hle⟩

theorem runTasks_next_le (io : Nat → ChunkIo) (algorithm : AclClassifyAlg)
    (groups : List CompiledFilterGroup) (specs : List ChunkTaskSpec) (lib : AclLib) :
    lib.next ≤ (runTasks io algorithm groups specs lib).2.next := by
  induction specs generalizing lib with
  | nil => exact le_rfl
  | cons spec specs ih =>
      rw [runTasks]
      exact (compileChunk_cases _ _ _ _ _).next_le.trans (ih _)

/-- Freeing other contexts. -/
theorem slots_foldl_rteAclFree {ctxs : List Nat} (h : ctx ∉ ctxs) :
    (ctxs.foldl rteAclFree lib).slots ctx = lib.slots ctx := by
  induction ctxs generalizing lib with
  | nil => rfl
  | cons i ctxs ih =>
      rw [List.mem_cons, not_or] at h
      rw [List.foldl_cons, ih h.2, rteAclFree, Registry.slots_remove, Function.update_of_ne h.1]

/-- Freeing contexts gives out no handle, and gives none back that was given up. -/
theorem foldl_rteAclFree_vacant (ctxs : List Nat) (ctx : Nat) (lib : AclLib) :
    (ctxs.foldl rteAclFree lib).next = lib.next ∧
      (lib.slots ctx = none → (ctxs.foldl rteAclFree lib).slots ctx = none) := by
  induction ctxs generalizing lib with
  | nil => exact ⟨rfl, id⟩
  | cons i ctxs ih =>
      obtain ⟨hnext, hslots⟩ := ih (rteAclFree lib i)
      rw [List.foldl_cons]
      refine ⟨hnext, fun hctx ↦ hslots ?_⟩
      rw [rteAclFree, Registry.slots_remove]
      by_cases hi : ctx = i
      · rw [hi, Function.update_self]
      · rw [Function.update_of_ne hi, hctx]

end Batch

/-! ## Whole compilations -/

/-- The tasks that are started: batch after batch, up to the first one in which a task
will not succeed. -/
def startedTasks (io : Nat → ChunkIo) (algorithm : AclClassifyAlg)
    (groups : List CompiledFilterGroup) (lib : AclLib) :
    List (List ChunkTaskSpec) → List ChunkTaskSpec
  | [] => []
  | batch :: rest =>
      batch ++
        if batch.all fun spec ↦ taskSucceeds (io spec.chunkId) algorithm groups spec lib then
          startedTasks io algorithm groups lib rest
        else []

section Batches

variable {io : Nat → ChunkIo} {algorithm : AclClassifyAlg}

theorem startedTasks_congr {bs : List (List ChunkTaskSpec)}
    (h : ∀ spec ∈ bs.flatten,
      lib'.named (chunkName spec.chunkId) = lib.named (chunkName spec.chunkId)) :
    startedTasks io algorithm groups lib' bs = startedTasks io algorithm groups lib bs := by
  induction bs with
  | nil => rfl
  | cons batch bs ih =>
      rw [List.flatten_cons, List.forall_mem_append] at h
      have hall : (batch.all fun spec ↦
            taskSucceeds (io spec.chunkId) algorithm groups spec lib') =
          batch.all fun spec ↦ taskSucceeds (io spec.chunkId) algorithm groups spec lib := by
        rw [Bool.eq_iff_iff, List.all_eq_true, List.all_eq_true]
        exact forall₂_congr fun spec hmem ↦ by rw [taskSucceeds_congr (h.1 spec hmem)]
      rw [startedTasks, startedTasks, hall, ih h.2]

/-- A batch leaves the names of the later tasks as they were. -/
theorem runTasks_named_of_nodup {batch rest : List ChunkTaskSpec}
    (hids : ((batch ++ rest).map ChunkTaskSpec.chunkId).Nodup) {spec : ChunkTaskSpec}
    (hspec : spec ∈ rest) :
    (runTasks io algorithm groups batch lib).2.named (chunkName spec.chunkId) =
      lib.named (chunkName spec.chunkId) := by
  rw [List.map_append, List.nodup_append] at hids
  refine runTasks_named fun spec' hspec' hname ↦ ?_
  exact hids.2.2 _ (List.mem_map_of_mem hspec') _ (List.mem_map_of_mem hspec)
    (chunkName_injective hname)

/-- What the clean-up behind a failed batch frees does not include an older context. -/
theorem notMem_collected {batch : List ChunkTaskSpec} {chunks collected : List AclChunk}
    {e : String} (hsat : Saturated lib) (hrules : ∀ spec ∈ batch, chunkRules groups spec ≠ [])
    (hchunks : ∀ chunk ∈ chunks, chunk.ctx ≠ some ctx) (hlt : ctx < lib.next)
    (hcollect : collectChunks (runTasks io algorithm groups batch lib).1 chunks =
      .error (e, collected)) : ctx ∉ collected.filterMap AclChunk.ctx := by
  rw [List.mem_filterMap]
  rintro ⟨chunk, hmem, hc⟩
  rcases mem_collected hcollect hmem with hold | hnew
  · exact hchunks chunk hold hc
  · obtain ⟨i, hi, hle⟩ := runTasks_ok_new hsat hrules hnew
    rw [hc, Option.some.injEq] at hi
    exact absurd (hi ▸ hle) (Nat.not_le.mpr hlt)

/-- A registered context behind the batches. -/
theorem compileBatches_slots (io : Nat → ChunkIo) (algorithm : AclClassifyAlg)
    {bs : List (List ChunkTaskSpec)} {chunks : List AclChunk} (hsat : Saturated lib)
    (hrules : ∀ spec ∈ bs.flatten, chunkRules groups spec ≠ [])
    (hids : (bs.flatten.map ChunkTaskSpec.chunkId).Nodup)
    (hchunks : ∀ chunk ∈ chunks, chunk.ctx ≠ some ctx) (hctx : lib.slots ctx = some (name, c)) :
    (compileBatches io algorithm groups bs chunks lib).2.slots ctx =
      if Hits io (startedTasks io algorithm groups lib bs) name then none else some (name, c) := by
  induction bs generalizing lib chunks with
  | nil =>
      rw [if_neg (by simp [Hits, startedTasks])]
      exact hctx
  | cons batch bs ih =>
      rw [List.flatten_cons, List.forall_mem_append] at hrules
      rw [List.flatten_cons] at hids
      have hids' := hids
      rw [List.map_append, List.nodup_append] at hids'
      have hlt := lib.lt_next _ _ hctx
      have hslots := runTasks_slots io algorithm hsat hrules.1 hctx
      have hok : (∃ chunks', collectChunks (runTasks io algorithm groups batch lib).1 chunks =
          .ok chunks') ↔ _ := collectChunks_ok_iff.trans
            (runTasks_all_ok_iff hsat hrules.1 hids'.1)
      rw [compileBatches, startedTasks]
      cases hcollect : collectChunks (runTasks io algorithm groups batch lib).1 chunks with
      | ok chunks' =>
          have hall := hok.mp ⟨chunks', hcollect⟩
          obtain ⟨-, hkeep, new, rfl, hnew, -⟩ := runTasks_ok hsat hrules.1 hcollect
          have hctx' := (hkeep ctx hlt).trans hctx
          -- a batch that succeeds hits no registered context
          have hmiss : ¬ Hits io batch name := by
            intro hhit
            rw [hctx', if_pos hhit] at hslots
            cases hslots
          have hchunks' : ∀ chunk ∈ chunks ++ new, chunk.ctx ≠ some ctx := by
            rw [List.forall_mem_append]
            exact ⟨hchunks, fun chunk hmem hc ↦ absurd (hnew chunk hmem ctx hc)
              (Nat.not_le.mpr hlt)⟩
          dsimp only
          rw [if_pos hall, ih (runTasks_saturated io algorithm groups batch hsat) hrules.2 hids'.2.1
            hchunks' hctx', startedTasks_congr fun spec hspec ↦ runTasks_named_of_nodup hids hspec]
          simp only [hits_append, or_iff_right hmiss]
      | error failure =>
          obtain ⟨e, collected⟩ := failure
          have hall : ¬ (batch.all fun spec ↦
              taskSucceeds (io spec.chunkId) algorithm groups spec lib) = true := by
            rw [← hok]
            rintro ⟨chunks', hc⟩
            rw [hcollect] at hc
            cases hc
          dsimp only
          rw [if_neg hall, List.append_nil, freeChunks,
            slots_foldl_rteAclFree (notMem_collected hsat hrules.1 hchunks hlt hcollect)]
          exact hslots

/-- Handles that were given up stay so, and no handle is given out twice. -/
theorem compileBatches_vacant (io : Nat → ChunkIo) (algorithm : AclClassifyAlg)
    (bs : List (List ChunkTaskSpec)) (chunks : List AclChunk) (lib : AclLib) :
    lib.next ≤ (compileBatches io algorithm groups bs chunks lib).2.next ∧
      (ctx < lib.next → lib.slots ctx = none →
        (compileBatches io algorithm groups bs chunks lib).2.slots ctx = none) := by
  induction bs generalizing lib chunks with
  | nil => exact ⟨le_rfl, fun _ h ↦ h⟩
  | cons batch bs ih =>
      have hnext := runTasks_next_le io algorithm groups batch lib
      rw [compileBatches]
      split
      · obtain ⟨hfree, hslots⟩ := foldl_rteAclFree_vacant _ ctx
          (runTasks io algorithm groups batch lib).2
        exact ⟨hnext.trans_eq hfree.symm,
          fun hlt hctx ↦ hslots (runTasks_vacant _ _ _ hlt hctx)⟩
      · obtain ⟨hle, hslots⟩ := ih _ (runTasks io algorithm groups batch lib).2
        exact ⟨hnext.trans hle,
          fun hlt hctx ↦ hslots (hlt.trans_le hnext) (runTasks_vacant _ _ _ hlt hctx)⟩

end Batches

theorem taskSpecs_ids_nodup (groups : List CompiledFilterGroup) :
    ((taskSpecs groups).map ChunkTaskSpec.chunkId).Nodup := by
  have hids : (taskSpecs groups).map ChunkTaskSpec.chunkId =
      List.range (taskSpecs groups).length := by
    refine List.ext_getElem (by simp) fun i h₁ h₂ ↦ ?_
    simp [taskSpecs]
  rw [hids]
  exact List.nodup_range

/-- The tasks a compilation starts. -/
def compileTasks (io : CompileIo) (config : SpiConfig) (lib : AclLib) : List ChunkTaskSpec :=
  match prepareGroups io config with
  | .error _ => []
  | .ok (algorithm, groups) =>
      startedTasks io.chunk algorithm groups lib
        (batches (clampThreads config.maxAclBuildThreads io.cpuCount) (taskSpecs groups).length
          (taskSpecs groups))

/-- The registry behind a compilation is the one behind its batches. -/
theorem compileRuleTable_snd (d : Dpdk) {io : CompileIo} {config : SpiConfig}
    {algorithm : AclClassifyAlg} (h : prepareGroups io config = .ok (algorithm, groups)) :
    (compileRuleTable d io config lib).2 = (compileBatches io.chunk algorithm groups
      (batches (clampThreads config.maxAclBuildThreads io.cpuCount) (taskSpecs groups).length
        (taskSpecs groups)) [] lib).2 := by
  unfold compileRuleTable
  rw [h]
  dsimp only
  split
  · rfl
  · rfl

/-- **A registered context behind a compilation**, successful or not. -/
theorem compileRuleTable_slots (d : Dpdk) (io : CompileIo) (config : SpiConfig)
    (hsat : Saturated lib) (hctx : lib.slots ctx = some (name, c)) :
    (compileRuleTable d io config lib).2.slots ctx =
      if Hits io.chunk (compileTasks io config lib) name then none else some (name, c) := by
  cases hprepare : prepareGroups io config with
  | error e =>
      have htasks : compileTasks io config lib = [] := by rw [compileTasks, hprepare]
      rw [compileRuleTable, hprepare, htasks, if_neg (by simp [Hits])]
      exact hctx
  | ok prepared =>
      obtain ⟨algorithm, groups⟩ := prepared
      have htasks : compileTasks io config lib = startedTasks io.chunk algorithm groups lib
          (batches (clampThreads config.maxAclBuildThreads io.cpuCount) (taskSpecs groups).length
            (taskSpecs groups)) := by rw [compileTasks, hprepare]
      have hflat := flatten_batches (one_le_clampThreads config.maxAclBuildThreads io.cpuCount)
        (taskSpecs groups).length (taskSpecs groups) le_rfl
      rw [compileRuleTable_snd d hprepare, htasks]
      refine compileBatches_slots io.chunk algorithm hsat ?_ ?_ ?_ hctx
      · rw [hflat]
        exact fun spec hspec ↦ mem_taskSpecs hspec
      · rw [hflat]
        exact taskSpecs_ids_nodup groups
      · exact List.forall_mem_nil _

/-- A handle that was given up before a compilation is not used by it. -/
theorem compileRuleTable_vacant (d : Dpdk) (io : CompileIo) (config : SpiConfig) (lib : AclLib)
    (ctx : Nat) :
    lib.next ≤ (compileRuleTable d io config lib).2.next ∧
      (ctx < lib.next → lib.slots ctx = none →
        (compileRuleTable d io config lib).2.slots ctx = none) := by
  cases hprepare : prepareGroups io config with
  | error e =>
      rw [compileRuleTable, hprepare]
      exact ⟨le_rfl, fun _ h ↦ h⟩
  | ok prepared =>
      rw [compileRuleTable_snd d hprepare]
      exact compileBatches_vacant _ _ _ _ lib

end DpdkSpi
