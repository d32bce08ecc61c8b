import DpdkSpi.Rule.Bulk
import DpdkSpi.Rule.Tss

/-!
# Moving a rule table

Every published table has been moved at least once.  The two moves carry the groups,
the chunks and the contexts over; the tuple-space index and the wildcard flag stay
behind: a move-constructed table starts with an empty index and without wildcards, and
a move-assigned one keeps those of the table it replaces.  This file says when that
cannot be noticed (`move_sameBehaviour_iff`).
-/

namespace DpdkSpi.RuleTable

open Lib

variable {t t' : RuleTable} {d : Dpdk} {groups : List CompiledFilterGroup}

/-! ## Tables there can be -/

/-- A table as one of the two constructors builds it. -/
inductive Constructed (d : Dpdk) : RuleTable → Prop
  | ofChunks (groups : List CompiledFilterGroup) (aclChunks : List AclChunk)
      (precedenceOrder : List (BitVec 32)) (fibCtx memberCtx : Option Nat)
      (aclBuildMaxSize : Nat) (aclClassifyAlgorithm : AclClassifyAlg) :
      Constructed d (ofChunks d groups aclChunks precedenceOrder fibCtx memberCtx
        aclBuildMaxSize aclClassifyAlgorithm)
  | ofAclCtx (groups : List CompiledFilterGroup) (aclCtx : Option Nat)
      (precedenceOrder : List (BitVec 32)) :
      Constructed d (ofAclCtx d groups aclCtx precedenceOrder)

/-- A table that constructors and moves lead to, with the groups its index was built
from: its own for a constructed table, none for a move-constructed one. -/
inductive Obtained (d : Dpdk) : RuleTable → List CompiledFilterGroup → Prop
  | constructed {t : RuleTable} : Constructed d t → Obtained d t t.groups
  | moveConstruct {t : RuleTable} {gs : List CompiledFilterGroup} :
      Obtained d t gs → Obtained d (moveConstruct t) []
  | moveAssign {self other : RuleTable} {gs gs' : List CompiledFilterGroup} :
      Obtained d self gs → Obtained d other gs' → Obtained d (moveAssign self other) gs
  | movedFrom {t : RuleTable} {gs : List CompiledFilterGroup} :
      Obtained d t gs → Obtained d (movedFrom t) gs

theorem Constructed.tssOf (h : Constructed d t) : TssOf d t t.groups := by
  cases h with
  | ofChunks gs chunks order fib member size alg => exact tssOf_build d rfl
  | ofAclCtx gs ctx order => exact tssOf_build d rfl

/-- The index a move construction starts with is that of no groups. -/
theorem tssOf_moveConstruct (d : Dpdk) (t : RuleTable) : TssOf d (moveConstruct t) [] :=
  TssIndex.holds_fresh d.hashCrc rfl rfl

theorem Obtained.tssOf (h : Obtained d t groups) : TssOf d t groups := by
  induction h with
  | constructed hc => exact hc.tssOf
  | moveConstruct _ _ => exact tssOf_moveConstruct d _
  | moveAssign _ _ ih _ => exact ih
  | movedFrom _ ih => exact ih

/-! ## Behaviour -/

/-- Two tables answer alike, to every packet, burst and key. -/
structure SameBehaviour (d : Dpdk) (t t' : RuleTable) : Prop where
  matchPacket_eq : ∀ packet, t'.matchPacket d packet = t.matchPacket d packet
  matchBulk_eq : ∀ packets results, t'.matchBulk d packets results = t.matchBulk d packets results
  probeTss_eq : ∀ key, t'.probeTss d key = t.probeTss d key
  memberFilterBulk_eq : ∀ packets skipAcl,
    t'.memberFilterBulk d packets skipAcl = t.memberFilterBulk d packets skipAcl

/-- No packet that the table matches is marked as one that may skip the ACL. -/
def NoFalseSkip (d : Dpdk) (t : RuleTable) : Prop :=
  ∀ (packets : List PacketMetadata) (i : Nat) packet, packets[i]? = some packet →
    (t.memberFilterBulk d packets (List.replicate packets.length false))[i]? = some true →
      (t.matchPacket d packet).matched = false

theorem SameBehaviour.noFalseSkip (h : SameBehaviour d t t') (hskip : NoFalseSkip d t) :
    NoFalseSkip d t' := by
  intro packets i packet hget hmark
  rw [h.memberFilterBulk_eq] at hmark
  rw [h.matchPacket_eq]
  exact hskip packets i packet hget hmark

/-- The members that classification reads. -/
structure SameAcl (t t' : RuleTable) : Prop where
  groups_eq : t'.groups = t.groups
  aclChunks_eq : t'.aclChunks = t.aclChunks
  aclCtx_eq : t'.aclCtx = t.aclCtx

theorem SameAcl.decode_eq (h : SameAcl t t') (packet : PacketMetadata) :
    t'.decode packet = t.decode packet := by
  funext userdata
  simp only [decode, h.groups_eq]

theorem SameAcl.matchLoop_eq (h : SameAcl t t') (packet : PacketMetadata)
    (chunks : List AclChunk) : t'.matchLoop d packet chunks = t.matchLoop d packet chunks := by
  induction chunks with
  | nil => rfl
  | cons chunk rest ih => simp only [matchLoop, h.decode_eq, ih]

theorem SameAcl.matchPacket_eq (h : SameAcl t t') (packet : PacketMetadata) :
    t'.matchPacket d packet = t.matchPacket d packet := by
  rw [matchPacket_eq_matchLoop, matchPacket_eq_matchLoop, h.aclChunks_eq, h.matchLoop_eq]

theorem SameAcl.matchBulk_eq (h : SameAcl t t') (packets : List PacketMetadata)
    (results : List ClassificationResult) :
    t'.matchBulk d packets results = t.matchBulk d packets results := by
  have hstep : t'.bulkStep = t.bulkStep := by
    funext classify p
    simp only [bulkStep, h.decode_eq]
  have hloop : ∀ chunks ps, t'.bulkLoop d chunks ps = t.bulkLoop d chunks ps := by
    intro chunks
    induction chunks with
    | nil => intro ps; rfl
    | cons chunk rest ih =>
        intro ps
        simp only [bulkLoop, hstep, ih]
  have hno : t'.hasNoAcl = t.hasNoAcl := by
    rw [hasNoAcl, hasNoAcl, h.aclChunks_eq, h.aclCtx_eq]
  simp only [matchBulk, hno, h.aclChunks_eq, hloop]

/-! ## When two indices answer alike -/

theorem ne_kNoTssHit_of_mem {e : FlowKey × BitVec 32} (he : e ∈ tssEntries groups) :
    e.2 ≠ kNoTssHit := by
  simp only [tssEntries, List.mem_flatMap, List.mem_filterMap, tssEntry] at he
  obtain ⟨group, -, filter, -, hite⟩ := he
  split at hite
  · rename_i hcond
    obtain rfl := Option.some.inj hite
    exact hcond.2
  · cases hite

theorem firstValue_ne_kNoTssHit {key : FlowKey} {c : BitVec 32}
    (h : Slots.firstValue ((tssEntries groups).take kTssCapacity) key = some c) :
    c ≠ kNoTssHit := by
  obtain ⟨e, he, rfl⟩ := Option.map_eq_some_iff.mp h
  exact ne_kNoTssHit_of_mem (List.mem_of_mem_take (List.mem_of_find?_eq_some he))

/-- The index answers: the first 128 entries, looked up by key. -/
def indexed (groups : List CompiledFilterGroup) (key : FlowKey) : Option (BitVec 32) :=
  Slots.firstValue ((tssEntries groups).take kTssCapacity) key

/-- Two probes agree when the two indices have the same entry for the key. -/
theorem probeTss_eq_iff {gs gs' : List CompiledFilterGroup} (h : TssOf d t gs)
    (h' : TssOf d t' gs') (key : FlowKey) :
    t'.probeTss d key = t.probeTss d key ↔ indexed gs' key = indexed gs key := by
  rw [h.probeTss_eq, h'.probeTss_eq, indexed, indexed]
  constructor
  · intro heq
    cases hv : Slots.firstValue ((tssEntries gs).take kTssCapacity) key with
    | none =>
        cases hv' : Slots.firstValue ((tssEntries gs').take kTssCapacity) key with
        | none => rfl
        | some c' =>
            rw [hv, hv'] at heq
            exact absurd heq (firstValue_ne_kNoTssHit hv')
    | some c =>
        cases hv' : Slots.firstValue ((tssEntries gs').take kTssCapacity) key with
        | none =>
            rw [hv, hv'] at heq
            exact absurd heq.symm (firstValue_ne_kNoTssHit hv)
        | some c' =>
            rw [hv, hv'] at heq
            exact congrArg some heq
  · intro heq
    rw [heq]

/-- The index of no groups answers as that of `gs` when `gs` has no entry. -/
theorem indexed_nil_eq_iff (gs : List CompiledFilterGroup) :
    (∀ key, indexed [] key = indexed gs key) ↔ tssEntries gs = [] := by
  have hnil : tssEntries [] = [] := rfl
  constructor
  · intro h
    cases hes : tssEntries gs with
    | nil => rfl
    | cons e es =>
        have hkey := h e.1
        simp [indexed, hes, hnil, kTssCapacity, Slots.firstValue_cons] at hkey
  · intro h key
    simp [indexed, h, hnil]

/-! ## When two pre-filters answer alike -/

/-- The set has an entry for every packet, so that nothing is ever skipped. -/
def HitsAll (d : Dpdk) (memberCtx : Nat) : Prop :=
  ∀ packet, memberSetId d memberCtx packet ≠ rteMemberNoMatch

theorem markSkips_of_hitsAll {memberCtx : Nat} (h : HitsAll d memberCtx)
    (packets : List PacketMetadata) (skips : List Bool) :
    markSkips d memberCtx packets skips = skips := by
  induction packets generalizing skips with
  | nil => rfl
  | cons packet packets ih =>
      cases skips with
      | nil => rfl
      | cons skip skips => rw [markSkips, if_neg (h packet), ih]

/-- Marking changes nothing exactly when every packet has an entry. -/
theorem markSkips_eq_iff {memberCtx : Nat} :
    (∀ (packets : List PacketMetadata) skipAcl,
        markSkips d memberCtx (packets.take kBulkWidth) skipAcl = skipAcl) ↔
      HitsAll d memberCtx := by
  constructor
  · intro h packet hmiss
    have hone := h [packet] [false]
    simp [kBulkWidth, markSkips, hmiss] at hone
  · intro h packets skipAcl
    exact markSkips_of_hitsAll h _ skipAcl

theorem memberFilterBulk_eq_iff (hmember : t'.memberCtx = t.memberCtx) :
    (∀ packets skipAcl, t'.memberFilterBulk d packets skipAcl =
        t.memberFilterBulk d packets skipAcl) ↔
      t'.hasWildcardIpRules = t.hasWildcardIpRules ∨
        ∀ memberCtx, t.memberCtx = some memberCtx → HitsAll d memberCtx := by
  cases hctx : t.memberCtx with
  | none =>
      rw [hctx] at hmember
      refine iff_of_true (fun packets skipAcl ↦ ?_) (.inr fun _ h ↦ by cases h)
      simp only [memberFilterBulk, hmember, hctx]
  | some memberCtx =>
      rw [hctx] at hmember
      simp only [memberFilterBulk, hmember, hctx, Option.some.injEq, forall_eq']
      cases hw : t.hasWildcardIpRules <;> cases hw' : t'.hasWildcardIpRules
      · simp
      · simp only [if_true, Bool.false_eq_true, if_false, Bool.true_eq_false, false_or]
        rw [← markSkips_eq_iff]
        exact ⟨fun h packets skipAcl ↦ (h packets skipAcl).symm,
          fun h packets skipAcl ↦ (h packets skipAcl).symm⟩
      · simp only [if_true, Bool.false_eq_true, if_false, false_or]
        exact markSkips_eq_iff
      · simp

/-! ## Moves -/

/-- A move that carries classification and the member set over is invisible when the
indices and the flags agree. -/
theorem sameBehaviour_iff {gs gs' : List CompiledFilterGroup} (h : TssOf d t gs)
    (h' : TssOf d t' gs') (hacl : SameAcl t t') (hmember : t'.memberCtx = t.memberCtx) :
    SameBehaviour d t t' ↔
      (∀ key, indexed gs' key = indexed gs key) ∧
        (anyWildcardIpRule gs' = anyWildcardIpRule gs ∨
          ∀ memberCtx, t.memberCtx = some memberCtx → HitsAll d memberCtx) := by
  have hprobe : (∀ key, t'.probeTss d key = t.probeTss d key) ↔
      ∀ key, indexed gs' key = indexed gs key := forall_congr' (probeTss_eq_iff h h')
  have hfilter := memberFilterBulk_eq_iff (d := d) hmember
  rw [h.wildcard_eq, h'.wildcard_eq] at hfilter
  rw [← hprobe, ← hfilter]
  constructor
  · intro hsame
    exact ⟨hsame.probeTss_eq, hsame.memberFilterBulk_eq⟩
  · rintro ⟨hp, hf⟩
    exact ⟨hacl.matchPacket_eq, hacl.matchBulk_eq, hp, hf⟩

/-- **When a move cannot be noticed.**  Move construction: no filter is indexed, and
there is no wildcard filter unless every packet is in the member set.  Move assignment:
the index the destination keeps has the same entries for every key, and its wildcard
flag is the same, unless every packet is in the member set.  A move that cannot be
noticed makes the pre-filter skip no packet it did not skip before. -/
theorem move_sameBehaviour_iff (ht : Constructed d t) :
    (SameBehaviour d t (moveConstruct t) ↔
        tssEntries t.groups = [] ∧ (anyWildcardIpRule t.groups = false ∨
          ∀ memberCtx, t.memberCtx = some memberCtx → HitsAll d memberCtx)) ∧
      (∀ dest gs, Obtained d dest gs →
        (SameBehaviour d t (moveAssign dest t) ↔
          (∀ key, indexed gs key = indexed t.groups key) ∧
            (anyWildcardIpRule gs = anyWildcardIpRule t.groups ∨
              ∀ memberCtx, t.memberCtx = some memberCtx → HitsAll d memberCtx))) ∧
      ∀ t', SameBehaviour d t t' → NoFalseSkip d t → NoFalseSkip d t' := by
  refine ⟨?_, fun dest gs hdest ↦ ?_, fun t' hsame ↦ hsame.noFalseSkip⟩
  · rw [sameBehaviour_iff ht.tssOf (tssOf_moveConstruct d t) ⟨rfl, rfl, rfl⟩ rfl,
      indexed_nil_eq_iff]
    exact and_congr_right fun _ ↦ or_congr_left eq_comm
  · have hkeep : TssOf d (moveAssign dest t) gs := hdest.tssOf
    exact sameBehaviour_iff ht.tssOf hkeep ⟨rfl, rfl, rfl⟩ rfl

/-- A table with one catch-all group and no member set survives a move construction. -/
theorem move_sameBehaviour_catchAll :
    Constructed tcpDpdk (ofAclCtx tcpDpdk tcpTable.groups (some 0) [0]) ∧
      SameBehaviour tcpDpdk (ofAclCtx tcpDpdk tcpTable.groups (some 0) [0])
        (moveConstruct (ofAclCtx tcpDpdk tcpTable.groups (some 0) [0])) := by
  have hbuilt : Constructed tcpDpdk (ofAclCtx tcpDpdk tcpTable.groups (some 0) [0]) :=
    .ofAclCtx _ _ _
  refine ⟨hbuilt, (move_sameBehaviour_iff hbuilt).1.mpr ⟨rfl, .inr fun memberCtx h ↦ ?_⟩⟩
  cases h

/-! ## Mixed destinations -/

/-- Two groups: TCP to one address, and TCP to anywhere. -/
def mixedGroups : List CompiledFilterGroup :=
  [{ name := "host"
     filters := [{ protocol := .kTcp, matchDestinationIp := true,
                   destinationIpAddress := 0x0A000001 }] },
   { name := "any", filters := [{ protocol := .kTcp }], categoryIndex := 1 }]

/-- The libraries as the compiler leaves them for these groups: the context holds both
rules, and the member set the one exact destination. -/
def mixedDpdk : Dpdk where
  aclClassify := fun _ ↦ some fun input ↦
    if input.protocol ≠ kIpProtoTcp then 0
    else if rteBeToCpu32 input.dstIpBe = 0x0A000001 then encodeUserdata 0 0
    else encodeUserdata 1 0
  memberLookup := fun _ key ↦
    if key = ⟨rteCpuToBe32 0x0A000001, 0, kIpProtoTcp⟩ then 1 else rteMemberNoMatch
  hashCrc := fun _ ↦ 0

/-- The table the constructor builds from these groups. -/
def mixedTable : RuleTable :=
  ofChunks mixedDpdk mixedGroups [{ ctx := some 0, groupCount := 2 }] [0, 1] none (some 0) 0
    .default

/-- Before the move the pre-filter skips nothing, because of the wildcard group; the
move-constructed table has forgotten that group and skips a packet that it matches. -/
theorem mixedTable_move_noticed :
    Constructed mixedDpdk mixedTable ∧ NoFalseSkip mixedDpdk mixedTable ∧
      ¬ NoFalseSkip mixedDpdk (moveConstruct mixedTable) ∧
      ¬ SameBehaviour mixedDpdk mixedTable (moveConstruct mixedTable) := by
  have hbefore : NoFalseSkip mixedDpdk mixedTable := by
    intro packets i packet _ hmark
    have hsame : mixedTable.memberFilterBulk mixedDpdk packets
        (List.replicate packets.length false) = List.replicate packets.length false := rfl
    rw [hsame, List.getElem?_replicate] at hmark
    split at hmark <;> cases hmark
  have hafter : ¬ NoFalseSkip mixedDpdk (moveConstruct mixedTable) := by
    intro h
    have hmatched := h [{}] 0 {} rfl (by decide)
    revert hmatched
    decide
  exact ⟨.ofChunks _ _ _ _ _ _ _, hbefore, hafter, fun hsame ↦ hafter (hsame.noFalseSkip hbefore)⟩

end DpdkSpi.RuleTable
