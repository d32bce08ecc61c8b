import DpdkSpi.Rule.Move
import DpdkSpi.Rule.Report

/-!
# The shortcut and the ACL

`ClassifyPacket` asks the tuple-space index before the ACL, and takes a hit for the result.
The index has the fields of a filter as they are configured, in host order and in the
direction of the filter; the key of a packet has them in network order, in the order of the
addresses.  So a hit says little about the packet: it agrees with the ACL exactly when the
rules that the library may report are of groups like the one of the hit (`tssAgrees_iff`).
-/

namespace DpdkSpi.RuleTable

open Lib

variable {t : RuleTable} {d : Dpdk} {lib : AclLib} {packet : PacketMetadata}

/-! ## What a chunk may answer -/

/-- What rules may come to for a packet. -/
def chunkAnswers (t : RuleTable) (packet : PacketMetadata) :
    Option (List AclRule) → Set (Option ClassificationResult)
  | none => {none}
  | some rules =>
      {a | (a = none ∧ ∀ r ∈ rules, ¬ r.Matches (aclInput packet)) ∨
        ∃ r, Reportable rules (aclInput packet) r ∧ a = t.decode packet r.userdata}

/-- What rules come to for a packet, with a library that is given. -/
def chunkAnswer (t : RuleTable) (packet : PacketMetadata)
    (algorithm : List AclRule → AclInputData → BitVec 32) (rules : Option (List AclRule)) :
    Option ClassificationResult :=
  rules.bind fun rules ↦ t.decode packet (algorithm rules (aclInput packet))

theorem chunkAnswers_eq (t : RuleTable) (packet : PacketMetadata) :
    t.chunkAnswers packet = reports (t.decode packet) (aclInput packet) := by
  funext rules
  cases rules with
  | none => rfl
  | some rules => rfl

/-- 0 stands for no rule. -/
theorem decode_zero (t : RuleTable) (packet : PacketMetadata) : t.decode packet 0 = none := rfl

theorem chunkAnswers_nonempty (t : RuleTable) (packet : PacketMetadata)
    (rules : Option (List AclRule)) : (t.chunkAnswers packet rules).Nonempty := by
  rw [chunkAnswers_eq]
  exact reports_nonempty _ _ rules

/-- A library that keeps its promise gives one of these answers. -/
theorem chunkAnswer_mem {algorithm : List AclRule → AclInputData → BitVec 32}
    (halg : ClassifySpec algorithm) (rules : Option (List AclRule)) :
    t.chunkAnswer packet algorithm rules ∈ t.chunkAnswers packet rules := by
  rw [chunkAnswers_eq]
  exact report_mem (t.decode_zero packet) halg rules

/-- Whatever answers are picked, there is a library that gives them. -/
theorem exists_algorithm {σ : Option (List AclRule) → Option ClassificationResult}
    (hσ : ∀ rules, σ rules ∈ t.chunkAnswers packet rules) :
    ∃ algorithm, ClassifySpec algorithm ∧ t.chunkAnswer packet algorithm = σ := by
  rw [chunkAnswers_eq] at hσ
  exact exists_algorithm_of (t.decode_zero packet) hσ

/-- `Match` asks the chunks in turn. -/
theorem matchLoop_eq_findSome? (t : RuleTable) (packet : PacketMetadata) (d : Dpdk) (lib : AclLib)
    (algorithm : List AclRule → AclInputData → BitVec 32) (chunks : List AclChunk) :
    t.matchLoop { d with aclClassify := classifyIn algorithm lib } packet chunks =
      ((chunks.map (builtRules lib)).findSome? (t.chunkAnswer packet algorithm)).getD {} := by
  induction chunks with
  | nil => rfl
  | cons chunk chunks ih =>
      rw [matchLoop, classifyIn_eq, List.map_cons, List.findSome?_cons]
      cases hrules : builtRules lib chunk with
      | none => exact ih
      | some rules =>
          rw [Option.map_some, chunkAnswer, Option.bind_some]
          dsimp only
          cases hdec : t.decode packet (algorithm rules (aclInput packet)) with
          | none => exact ih
          | some result => rfl

/-! ## Agreement -/

/-- Two results are for groups that look the same.  The label, which belongs to a filter, is
left out. -/
structure SameGroup (r r' : ClassificationResult) : Prop where
  groupName : r.groupName = r'.groupName
  groupPrecedence : r.groupPrecedence = r'.groupPrecedence
  action : r.action = r'.action
  l7Required : r.l7Required = r'.l7Required
  boundDpiFilterIndex : r.boundDpiFilterIndex = r'.boundDpiFilterIndex

/-- A hit of the index for a packet agrees with the ACL. -/
def TssAgrees (t : RuleTable) (d : Dpdk) (packet : PacketMetadata) : Prop :=
  let g := t.probeTss d (makeCanonicalFromMetadata packet)
  g ≠ kNoTssHit →
    (t.matchPacket d packet).matched = true ∧
      SameGroup (t.resultForCategory g) (t.matchPacket d packet)

/-- The ACL is sure to report a filter whose result is as `Q` says: in some chunk a rule
matches, and every rule that the library may report there is of such a filter; and no rule
that it may report in a chunk before is of a filter that fits the packet and is otherwise. -/
def AclSettles (t : RuleTable) (lib : AclLib) (packet : PacketMetadata)
    (Q : ClassificationResult → Prop) : Prop :=
  ∃ before chunk after, t.aclChunks = before ++ chunk :: after ∧
    (∃ rules, builtRules lib chunk = some rules ∧ (∃ r ∈ rules, r.Matches (aclInput packet)) ∧
      ∀ r, Reportable rules (aclInput packet) r →
        ∃ result, t.decode packet r.userdata = some result ∧ Q result) ∧
    ∀ c ∈ before, ∀ rules, builtRules lib c = some rules →
      ∀ r, Reportable rules (aclInput packet) r →
        ∀ result, t.decode packet r.userdata = some result → Q result

theorem aclSettles_iff {Q : ClassificationResult → Prop} :
    t.AclSettles lib packet Q ↔
      Settles (t.chunkAnswers packet) Q (t.aclChunks.map (builtRules lib)) := by
  constructor
  · rintro ⟨before, chunk, after, hchunks, ⟨rules, hrules, ⟨m, hm, hmatch⟩, hsure⟩, hbefore⟩
    refine ⟨before.map (builtRules lib), builtRules lib chunk, after.map (builtRules lib), ?_, ?_,
      ?_⟩
    · rw [hchunks, List.map_append, List.map_cons]
    · rw [hrules]
      rintro a (⟨-, hno⟩ | ⟨r, hr, rfl⟩)
      · exact absurd hmatch (hno m hm)
      · exact hsure r hr
    · intro rules' hmem result hresult
      obtain ⟨c, hc, rfl⟩ := List.mem_map.mp hmem
      cases hrules' : builtRules lib c with
      | none =>
          rw [hrules'] at hresult
          cases hresult
      | some rules' =>
          rw [hrules'] at hresult
          rcases hresult with ⟨hnone, -⟩ | ⟨r, hr, hdec⟩
          · cases hnone
          · exact hbefore c hc rules' hrules' r hr result hdec.symm
  · rintro ⟨before', rules?, after', hmap, hsure, hbefore⟩
    obtain ⟨before, rest, hchunks, rfl, hrest⟩ := List.map_eq_append_iff.mp hmap
    obtain ⟨chunk, after, rfl, rfl, -⟩ := List.map_eq_cons_iff.mp hrest
    refine ⟨before, chunk, after, hchunks, ?_, ?_⟩
    · cases hrules : builtRules lib chunk with
      | none =>
          rw [hrules] at hsure
          obtain ⟨r, hr, -⟩ := hsure none rfl
          cases hr
      | some rules =>
          rw [hrules] at hsure
          refine ⟨rules, rfl, ?_, fun r hr ↦ hsure _ (.inr ⟨r, hr, rfl⟩)⟩
          by_contra hno
          obtain ⟨r, hr, -⟩ := hsure none (.inl ⟨rfl, fun r hr hmatch ↦ hno ⟨r, hr, hmatch⟩⟩)
          cases hr
    · intro c hc rules hrules r hr result hdec
      refine hbefore (builtRules lib c) (List.mem_map_of_mem hc) result ?_
      rw [hrules]
      exact .inr ⟨r, hr, hdec.symm⟩

/-- What `Match` is sure to report, whatever rule the library prefers. -/
theorem forall_matchPacket_iff {Q : ClassificationResult → Prop} (d : Dpdk) :
    (∀ algorithm, ClassifySpec algorithm →
        (t.matchPacket { d with aclClassify := classifyIn algorithm lib } packet).matched = true ∧
          Q (t.matchPacket { d with aclClassify := classifyIn algorithm lib } packet)) ↔
      t.AclSettles lib packet Q := by
  have hreports : ∀ algorithm : List AclRule → AclInputData → BitVec 32,
      ((t.matchPacket { d with aclClassify := classifyIn algorithm lib } packet).matched = true ∧
          Q (t.matchPacket { d with aclClassify := classifyIn algorithm lib } packet)) ↔
        ∃ result, (t.aclChunks.map (builtRules lib)).findSome? (t.chunkAnswer packet algorithm) =
          some result ∧ Q result := by
    intro algorithm
    rw [matchPacket_eq_matchLoop, matchLoop_eq_findSome?]
    cases hfound :
        (t.aclChunks.map (builtRules lib)).findSome? (t.chunkAnswer packet algorithm) with
    | none =>
        refine iff_of_false (fun h ↦ ?_) (fun h ↦ ?_)
        · cases h.1
        · obtain ⟨result, hresult, -⟩ := h
          cases hresult
    | some result =>
        obtain ⟨rules?, -, hanswer⟩ := List.exists_of_findSome?_eq_some hfound
        obtain ⟨rules, -, hdec⟩ := Option.bind_eq_some_iff.mp hanswer
        rw [Option.getD_some]
        constructor
        · intro h
          exact ⟨result, rfl, h.2⟩
        · rintro ⟨result', hresult, hq⟩
          cases hresult
          exact ⟨matched_of_decode hdec, hq⟩
  rw [aclSettles_iff, ← forall_findSome?_iff (t.chunkAnswers_nonempty packet)]
  constructor
  · intro h σ hσ
    obtain ⟨algorithm, halg, rfl⟩ := exists_algorithm hσ
    exact (hreports algorithm).mp (h algorithm halg)
  · intro h algorithm halg
    exact (hreports algorithm).mpr (h _ (chunkAnswer_mem halg))

/-- **When a hit of the index agrees with the ACL**, whatever rule the library prefers among
those of the highest priority: when the first filter whose fields are the key of the packet
is of a group that looks like those of the rules. -/
theorem tssAgrees_iff (ht : Constructed d t) (lib : AclLib) (packet : PacketMetadata) :
    (∀ algorithm, ClassifySpec algorithm →
        t.TssAgrees { d with aclClassify := classifyIn algorithm lib } packet) ↔
      ∀ g, indexed t.groups (makeCanonicalFromMetadata packet) = some g →
        t.AclSettles lib packet (SameGroup (t.resultForCategory g)) := by
  have hprobe : ∀ algorithm, t.probeTss { d with aclClassify := classifyIn algorithm lib }
      (makeCanonicalFromMetadata packet) =
        (indexed t.groups (makeCanonicalFromMetadata packet)).getD kNoTssHit :=
    fun _ ↦ ht.tssOf.probeTss_eq (makeCanonicalFromMetadata packet)
  cases hentry : indexed t.groups (makeCanonicalFromMetadata packet) with
  | none =>
      refine iff_of_true (fun algorithm _ hhit ↦ ?_) (fun g hg ↦ ?_)
      · rw [hprobe, hentry] at hhit
        exact absurd rfl hhit
      · cases hg
  | some g =>
      have hhit : g ≠ kNoTssHit := firstValue_ne_kNoTssHit hentry
      have hagrees : ∀ algorithm,
          t.TssAgrees { d with aclClassify := classifyIn algorithm lib } packet ↔
            (t.matchPacket { d with aclClassify := classifyIn algorithm lib } packet).matched =
                true ∧
              SameGroup (t.resultForCategory g)
                (t.matchPacket { d with aclClassify := classifyIn algorithm lib } packet) := by
        intro algorithm
        unfold TssAgrees
        rw [hprobe, hentry, Option.getD_some]
        exact ⟨fun h ↦ h hhit, fun h _ ↦ h⟩
      simp only [hagrees, Option.some.injEq, forall_eq']
      exact forall_matchPacket_iff d

/-! ### One filter -/

/-- A group with one filter that fixes the whole 5-tuple. -/
def pairGroups (src dst : BitVec 32) (port : BitVec 16) : List CompiledFilterGroup :=
  [{ name := "pair"
     precedence := 10
     action := .kDrop
     filters := [{ protocol := .kTcp, matchSourceIp := true, sourceIpAddress := src,
                   matchDestinationIp := true, destinationIpAddress := dst,
                   matchSourcePort := true, sourcePort := port,
                   matchDestinationPort := true, destinationPort := port }] }]

/-- The ACL library with the rules of some groups in its first context. -/
def libOf (groups : List CompiledFilterGroup) : AclLib :=
  Registry.register Registry.empty (chunkName 0)
    { maxRuleNum := 1, rules := rulesFrom groups 0 groups.length
      trie := some (rulesFrom groups 0 groups.length) } rfl

/-- The table that the constructor builds from them. -/
def pairTable (groups : List CompiledFilterGroup) : RuleTable :=
  ofChunks tcpDpdk groups [{ ctx := some 0, groupCount := groups.length }] [0] none none 0 .default

/-- A TCP packet, with addresses and ports as they stand in its bytes. -/
def pairPacket (src dst : BitVec 32) (port : BitVec 16) : PacketMetadata where
  sourceIpBe := src
  destinationIpBe := dst
  sourcePortBe := port
  destinationPortBe := port

/-- The filter 1.1.1.1:257 to 2.2.2.2:257 reads the same in both byte orders, and is found
for the packets it is for. -/
theorem tssAgrees_palindrome :
    (pairTable (pairGroups 0x01010101 0x02020202 0x0101)).probeTss tcpDpdk
        (makeCanonicalFromMetadata (pairPacket 0x01010101 0x02020202 0x0101)) = 0 ∧
      ∀ algorithm, ClassifySpec algorithm →
        (pairTable (pairGroups 0x01010101 0x02020202 0x0101)).TssAgrees
          { tcpDpdk with
            aclClassify := classifyIn algorithm (libOf (pairGroups 0x01010101 0x02020202 0x0101)) }
          (pairPacket 0x01010101 0x02020202 0x0101) := by
  refine ⟨by decide +kernel, (tssAgrees_iff (.ofChunks _ _ _ _ _ _ _) _ _).mpr fun g hg ↦ ?_⟩
  have hentry : indexed (pairTable (pairGroups 0x01010101 0x02020202 0x0101)).groups
      (makeCanonicalFromMetadata (pairPacket 0x01010101 0x02020202 0x0101)) = some 0 := by
    decide +kernel
  obtain rfl := Option.some.inj (hentry.symm.trans hg)
  refine ⟨[], _, [], rfl, ⟨_, rfl, ?_, fun r hr ↦ ?_⟩, fun c hc ↦ ?_⟩
  · exact ⟨_, List.mem_cons_self, by decide⟩
  · obtain rfl := List.mem_singleton.mp hr.1
    refine ⟨_, rfl, ?_⟩
    constructor <;> decide +kernel
  · cases hc

/-- The filter 10.0.0.1:80 to 10.0.0.2:80 is found for the packets from 1.0.0.10:20480 to
2.0.0.10:20480, which no rule matches. -/
theorem swapped_tuple_hits :
    Constructed tcpDpdk (pairTable (pairGroups 0x0A000001 0x0A000002 80)) ∧
      ClassifySpec linearClassify ∧
      (pairTable (pairGroups 0x0A000001 0x0A000002 80)).probeTss tcpDpdk
        (makeCanonicalFromMetadata (pairPacket 0x0A000001 0x0A000002 80)) = 0 ∧
      ((pairTable (pairGroups 0x0A000001 0x0A000002 80)).matchPacket
        { tcpDpdk with
          aclClassify := classifyIn linearClassify (libOf (pairGroups 0x0A000001 0x0A000002 80)) }
        (pairPacket 0x0A000001 0x0A000002 80)).matched = false ∧
      ¬ (pairTable (pairGroups 0x0A000001 0x0A000002 80)).TssAgrees
        { tcpDpdk with
          aclClassify := classifyIn linearClassify (libOf (pairGroups 0x0A000001 0x0A000002 80)) }
        (pairPacket 0x0A000001 0x0A000002 80) := by
  have hprobe : (pairTable (pairGroups 0x0A000001 0x0A000002 80)).probeTss tcpDpdk
      (makeCanonicalFromMetadata (pairPacket 0x0A000001 0x0A000002 80)) = 0 := by decide +kernel
  have hmatch : ((pairTable (pairGroups 0x0A000001 0x0A000002 80)).matchPacket
      { tcpDpdk with
        aclClassify := classifyIn linearClassify (libOf (pairGroups 0x0A000001 0x0A000002 80)) }
      (pairPacket 0x0A000001 0x0A000002 80)).matched = false := by decide +kernel
  refine ⟨.ofChunks _ _ _ _ _ _ _, linearClassify_spec, hprobe, hmatch, fun h ↦ ?_⟩
  have hhit := (h (by change RuleTable.probeTss _ tcpDpdk _ ≠ _; rw [hprobe]; decide)).1
  rw [hmatch] at hhit
  cases hhit

end DpdkSpi.RuleTable
