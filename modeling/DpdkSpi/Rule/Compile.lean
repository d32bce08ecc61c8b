import Mathlib.Data.List.Sort
import DpdkSpi.Lib.Registry
import DpdkSpi.Rule.Parse
import DpdkSpi.Rule.Table

/-!
# Compiling a rule table

`CompileRuleTable`, after `spi_rule_engine.cpp`: parse the groups, sort them by
precedence, cut them into chunks of 256 groups and build one ACL context per chunk that
has a rule.  Contexts live in the ACL library's registry, by name; the names are
`spi_chunk_0`, `spi_chunk_1` and so on in every compilation.

The tasks of a batch run concurrently in the source.  They work on contexts with
different names, so that running them one after the other does the same.  What the
environment decides (affinity, memory, the order of groups of equal precedence) is in
`CompileIo`.
-/

namespace DpdkSpi

open Lib

/-! ## The ACL library -/

/-- A registered ACL context. -/
structure AclCtx where
  maxRuleNum : Nat
  /-- The rules added so far. -/
  rules : List AclRule := []
  /-- The rules of the last build, which classification uses. -/
  trie : Option (List AclRule) := none
deriving DecidableEq, Repr

/-- The ACL contexts of the process. -/
abbrev AclLib := Registry String AclCtx

/-- `rte_acl_create`: the context registered under the name, or a new one.  `failure` is
the reason why a new one cannot be had. -/
def rteAclCreate (lib : AclLib) (name : String) (maxRuleNum : Nat) (failure : Option String) :
    Except String (Nat × AclLib) :=
  match h : lib.named name with
  | some ctx => .ok (ctx, lib)
  | none =>
      match failure with
      | some reason => .error reason
      | none => .ok (lib.next, lib.register name { maxRuleNum } h)

/-- Whether `rte_acl_add_rules` takes a priority. -/
def validPriority (r : AclRule) : Bool := 0 ≤ r.priority && r.priority ≤ rteAclMaxPriority.toNat

/-- `rte_acl_add_rules`: `EINVAL` for a bad priority, `ENOMEM` beyond `max_rule_num`. -/
def rteAclAddRules (lib : AclLib) (ctx : Nat) (rules : List AclRule) : Except Nat AclLib :=
  match lib.find ctx with
  | none => .error 22
  | some c =>
      if rules.all validPriority then
        if c.maxRuleNum < c.rules.length + rules.length then .error 12
        else .ok (lib.modify ctx fun c ↦ { c with rules := c.rules ++ rules })
      else .error 22

/-- `rte_acl_build`. -/
def rteAclBuild (lib : AclLib) (ctx : Nat) : AclLib :=
  lib.modify ctx fun c ↦ { c with trie := some c.rules }

/-- `rte_acl_free`: the context and its name are gone; a handle that is not registered
is ignored. -/
def rteAclFree (lib : AclLib) (ctx : Nat) : AclLib := lib.remove ctx

/-- Free every context of a list of chunks. -/
def freeChunks (lib : AclLib) (chunks : List AclChunk) : AclLib :=
  (chunks.filterMap AclChunk.ctx).foldl rteAclFree lib

/-- What the destructor of a table does to the registry. -/
def destroyTable (lib : AclLib) (t : RuleTable) : AclLib := t.ownedAclCtxs.foldl rteAclFree lib

/-- `rte_acl_classify` with the contexts of a library: `algorithm` is what the library
does with the rules of a build.  A context that is gone or was never built has no
answer. -/
def classifyIn (algorithm : List AclRule → AclInputData → BitVec 32) (lib : AclLib) (ctx : Nat) :
    Option (AclInputData → BitVec 32) :=
  ((lib.find ctx).bind AclCtx.trie).map algorithm

/-! ## The environment -/

/-- What can go wrong in the task of one chunk, with the reasons or codes reported. -/
structure ChunkIo where
  affinity : Option String := none
  create : Option String := none
  build : Option Nat := none
  classifier : Option Nat := none
deriving DecidableEq, Repr

/-- The environment of one compilation.  `std::ranges::sort` is not stable: any
permutation that is sorted by precedence may come out. -/
structure CompileIo where
  inetPton : InetPton
  /-- `CPU_COUNT` of the compilation CPU set. -/
  cpuCount : Nat
  parseAffinity : Nat → Option String
  sort : List CompiledFilterGroup → List CompiledFilterGroup
  sort_perm : ∀ l, (sort l).Perm l
  sort_sorted : ∀ l, (sort l).Pairwise fun a b ↦ a.precedence ≤ b.precedence
  chunk : Nat → ChunkIo
  /-- What `rte_fib_create` returns. -/
  fibCtx : Option Nat
  /-- What `rte_member_create` returns. -/
  memberCtx : Option Nat

/-- A machine with `cpuCount` processors where nothing fails and the sort is stable. -/
def CompileIo.untroubled (inetPton : InetPton) (cpuCount : Nat) : CompileIo where
  inetPton
  cpuCount
  parseAffinity := fun _ ↦ none
  sort := List.insertionSort fun a b ↦ a.precedence ≤ b.precedence
  sort_perm := fun l ↦ List.perm_insertionSort _ l
  sort_sorted := fun l ↦ by
    have : Std.Total fun a b : CompiledFilterGroup ↦ a.precedence ≤ b.precedence :=
      ⟨fun a b ↦ BitVec.le_total a.precedence b.precedence⟩
    have : IsTrans CompiledFilterGroup fun a b ↦ a.precedence ≤ b.precedence :=
      ⟨fun _ _ _ hab hbc ↦ BitVec.le_trans hab hbc⟩
    exact List.pairwise_insertionSort _ l
  chunk := fun _ ↦ {}
  fibCtx := none
  memberCtx := none

/-! ## Chunks -/

/-- `kAclMaxCategoriesChunk`. -/
def kAclMaxCategoriesChunk : Nat := 256

/-- One task: which groups it covers and the number in its context's name. -/
structure ChunkTaskSpec where
  startGroupIndex : Nat
  chunkCount : Nat
  chunkId : Nat
deriving DecidableEq, Repr

/-- The rules of the groups from `start` on, as `compile_chunk_fn` lays them out. -/
def rulesFrom (groups : List CompiledFilterGroup) (start count : Nat) : List AclRule :=
  (List.range count).flatMap fun cat ↦
    match groups[start + cat]? with
    | none => []
    | some group => group.filters.mapIdx fun f filter ↦
        buildAclRule filter (BitVec.ofNat 32 (start + cat)) (BitVec.ofNat 32 f) group.precedence

/-- The rules of a chunk. -/
def chunkRules (groups : List CompiledFilterGroup) (spec : ChunkTaskSpec) : List AclRule :=
  rulesFrom groups spec.startGroupIndex spec.chunkCount

/-- The index ranges of the chunks, empty ones included: start and number of groups. -/
def chunkRanges (groups : List CompiledFilterGroup) : List (Nat × Nat) :=
  (List.range ((groups.length + (kAclMaxCategoriesChunk - 1)) / kAclMaxCategoriesChunk)).map
    fun k ↦ (k * kAclMaxCategoriesChunk,
      min kAclMaxCategoriesChunk (groups.length - k * kAclMaxCategoriesChunk))

/-- `task_specs`: the chunks that have a rule, numbered in order. -/
def taskSpecs (groups : List CompiledFilterGroup) : List ChunkTaskSpec :=
  ((chunkRanges groups).filter fun r ↦ !(rulesFrom groups r.1 r.2).isEmpty).mapIdx fun id r ↦
    { startGroupIndex := r.1, chunkCount := r.2, chunkId := id }

/-- The name of the context of a chunk. -/
def chunkName (chunkId : Nat) : String := s!"spi_chunk_{chunkId}"

/-- `ApplyAclClassifyAlgorithm`: the error, if there is one. -/
def applyAclClassifyAlgorithm (algorithm : AclClassifyAlg) (failure : Option Nat) : Option String :=
  if algorithm = .default then none
  else failure.map fun code ↦ s!"rte_acl_set_ctx_classify({algorithm.code}) failed: {code}"

/-- `compile_chunk_fn`.  Every failure behind `rte_acl_create` frees the context it
returned. -/
def compileChunk (io : ChunkIo) (algorithm : AclClassifyAlg) (groups : List CompiledFilterGroup)
    (spec : ChunkTaskSpec) (lib : AclLib) : Except String AclChunk × AclLib :=
  match io.affinity with
  | some reason => (.error (affinityError reason), lib)
  | none =>
      match rteAclCreate lib (chunkName spec.chunkId) (chunkRules groups spec).length io.create with
      | .error reason =>
          (.error (s!"rte_acl_create failed for chunk {spec.chunkId}: " ++ reason), lib)
      | .ok (ctx, lib) =>
          match rteAclAddRules lib ctx (chunkRules groups spec) with
          | .error code =>
              (.error s!"rte_acl_add_rules failed for chunk {spec.chunkId}: {code}",
                rteAclFree lib ctx)
          | .ok lib =>
              match io.build with
              | some code =>
                  (.error s!"rte_acl_build failed for chunk {spec.chunkId}: {code}",
                    rteAclFree lib ctx)
              | none =>
                  match applyAclClassifyAlgorithm algorithm io.classifier with
                  | some reason =>
                      (.error (s!"ACL classifier setup failed for chunk {spec.chunkId}: " ++
                        reason), rteAclFree (rteAclBuild lib ctx) ctx)
                  | none =>
                      (.ok { ctx := some ctx, startGroupIndex := spec.startGroupIndex
                             groupCount := spec.chunkCount }, rteAclBuild lib ctx)

/-- The tasks of a batch, each run to its end. -/
def runTasks (io : Nat → ChunkIo) (algorithm : AclClassifyAlg) (groups : List CompiledFilterGroup) :
    List ChunkTaskSpec → AclLib → List (Except String AclChunk) × AclLib
  | [], lib => ([], lib)
  | spec :: rest, lib =>
      let r := compileChunk (io spec.chunkId) algorithm groups spec lib
      let rs := runTasks io algorithm groups rest r.2
      (r.1 :: rs.1, rs.2)

/-- Collecting the results of a batch, in order, behind the chunks there are already.
The first failure ends it, with the chunks collected so far. -/
def collectChunks : List (Except String AclChunk) → List AclChunk →
    Except (String × List AclChunk) (List AclChunk)
  | [], chunks => .ok chunks
  | .error e :: _, chunks => .error (e, chunks)
  | .ok chunk :: rest, chunks => collectChunks rest (chunks ++ [chunk])

/-- The loop over the batches.  A failure frees the chunks collected so far; contexts
that later tasks of the failing batch have built stay registered. -/
def compileBatches (io : Nat → ChunkIo) (algorithm : AclClassifyAlg)
    (groups : List CompiledFilterGroup) :
    List (List ChunkTaskSpec) → List AclChunk → AclLib → Except String (List AclChunk) × AclLib
  | [], chunks, lib => (.ok chunks, lib)
  | batch :: rest, chunks, lib =>
      let results := runTasks io algorithm groups batch lib
      match collectChunks results.1 chunks with
      | .error (e, collected) => (.error e, freeChunks results.2 collected)
      | .ok chunks => compileBatches io algorithm groups rest chunks results.2

/-- Cut a list into batches of `n`; `fuel` bounds their number. -/
def batches {α : Type} (n : Nat) : (fuel : Nat) → List α → List (List α)
  | 0, _ => []
  | _ + 1, [] => []
  | fuel + 1, l => l.take n :: batches n fuel (l.drop n)

theorem flatten_batches {α : Type} {n : Nat} (hn : 1 ≤ n) (fuel : Nat) (l : List α)
    (h : l.length ≤ fuel) : (batches n fuel l).flatten = l := by
  induction fuel generalizing l with
  | zero =>
      obtain rfl : l = [] := List.eq_nil_of_length_eq_zero (by omega)
      rfl
  | succ fuel ih =>
      cases l with
      | nil => rfl
      | cons a l =>
          rw [List.length_cons] at h
          rw [batches, List.flatten_cons, ih, List.take_append_drop]
          · rw [List.length_drop, List.length_cons]
            omega
          · intro h
            cases h

/-! ## The compiler -/

/-- `ParseAclClassifyAlgorithm`. -/
def parseAclClassifyAlgorithm (algorithm : String) : Except String AclClassifyAlg :=
  if algorithm = "default" then .ok .default
  else if algorithm = "scalar" then .ok .scalar
  else if algorithm = "sse" then .ok .sse
  else if algorithm = "avx2" then .ok .avx2
  else if algorithm = "neon" then .ok .neon
  else if algorithm = "altivec" then .ok .altivec
  else if algorithm = "avx512x16" then .ok .avx512x16
  else if algorithm = "avx512x32" then .ok .avx512x32
  else .error ("unsupported SPI ACL classify algorithm '" ++ algorithm ++ "'")

/-- `std::clamp(n, 1, max(1, cpus))`. -/
def clampThreads (n cpus : Nat) : Nat := max 1 (min n (max 1 cpus))

theorem one_le_clampThreads (n cpus : Nat) : 1 ≤ clampThreads n cpus := le_max_left _ _

/-- Number the groups by their position. -/
def setCategories (groups : List CompiledFilterGroup) : List CompiledFilterGroup :=
  groups.mapIdx fun i g ↦ { g with categoryIndex := BitVec.ofNat 32 i }

/-- `total_member_keys`: exact destinations, and the addresses of small blocks. -/
def totalMemberKeys (groups : List CompiledFilterGroup) : Nat :=
  (groups.map fun g ↦ (g.filters.map fun f ↦
    if f.matchDestinationIp then 1
    else if f.matchDestinationCidr ∧ 20 ≤ f.destinationPrefixLength then
      2 ^ (32 - f.destinationPrefixLength.toNat)
    else 0).sum).sum

/-- The largest value of `std::size_t`, in MiB. -/
def kMaxBuildMiB : Nat := (2 ^ 64 - 1) / 2 ^ 20

/-- The groups of a compilation before any context is built: parsed, sorted and
numbered. -/
def prepareGroups (io : CompileIo) (config : SpiConfig) :
    Except String (AclClassifyAlg × List CompiledFilterGroup) :=
  match parseAclClassifyAlgorithm config.aclClassifyAlgorithm with
  | .error e => .error e
  | .ok algorithm =>
      if kMaxBuildMiB < config.aclBuildMaxSizeMb then
        .error "spi.acl_build_max_size_mb is too large"
      else
        match parseGroups io.inetPton config.filterGroups
            (clampThreads config.maxCompilationThreads io.cpuCount) io.parseAffinity with
        | .error e => .error e
        | .ok groups =>
            let groups := setCategories (io.sort groups)
            if (groups.map fun g ↦ g.filters.length).sum = 0 then
              .error "No SPI rules found in config"
            else .ok (algorithm, groups)

/-- `CompileRuleTable`.  The finished table is moved into the result. -/
def compileRuleTable (d : Dpdk) (io : CompileIo) (config : SpiConfig) (lib : AclLib) :
    Except String RuleTable × AclLib :=
  match prepareGroups io config with
  | .error e => (.error e, lib)
  | .ok (algorithm, groups) =>
      let specs := taskSpecs groups
      let threads := clampThreads config.maxAclBuildThreads io.cpuCount
      let built := compileBatches io.chunk algorithm groups (batches threads specs.length specs) []
        lib
      match built.1 with
      | .error e => (.error e, built.2)
      | .ok chunks =>
          let precedenceOrder := (List.range groups.length).map (BitVec.ofNat 32)
          let memberCtx := if 0 < totalMemberKeys groups then io.memberCtx else none
          (.ok (RuleTable.moveConstruct (RuleTable.ofChunks d groups chunks precedenceOrder
            io.fibCtx memberCtx (config.aclBuildMaxSizeMb * 2 ^ 20) algorithm)), built.2)

end DpdkSpi
