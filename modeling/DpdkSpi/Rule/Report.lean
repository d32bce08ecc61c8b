import DpdkSpi.Lib.Choice
import DpdkSpi.Rule.Precedence

/-!
# What the ACL library may report

`rte_acl_classify` promises a rule of the highest priority among those that match, and no more:
among rules of one priority it may report any.  What a caller makes of the userdata is a decoding,
where 0 stands for no rule.  The answers that may come out of a context are the decoded rules that
may be reported; whatever answers one picks, there is a library that keeps its promise and gives
them (`exists_algorithm_of`).
-/

namespace DpdkSpi.RuleTable

open Lib

/-- The rules that are built in the context of a chunk. -/
def builtRules (lib : AclLib) (chunk : AclChunk) : Option (List AclRule) :=
  (chunk.ctx.bind lib.find).bind AclCtx.trie

/-- The library may report the rule: it matches, and none that matches has a higher
priority. -/
def Reportable (rules : List AclRule) (input : AclInputData) (r : AclRule) : Prop :=
  r ∈ rules ∧ r.Matches input ∧ ∀ r' ∈ rules, r'.Matches input → r'.priority ≤ r.priority

section Decoding

variable {β : Type} {decode : BitVec 32 → Option β} {input : AclInputData}

/-- What rules may come to for an input. -/
def reports (decode : BitVec 32 → Option β) (input : AclInputData) :
    Option (List AclRule) → Set (Option β)
  | none => {none}
  | some rules =>
      {a | (a = none ∧ ∀ r ∈ rules, ¬ r.Matches input) ∨
        ∃ r, Reportable rules input r ∧ a = decode r.userdata}

/-- What rules come to for an input, with a library that is given. -/
def report (decode : BitVec 32 → Option β) (input : AclInputData)
    (algorithm : List AclRule → AclInputData → BitVec 32) (rules : Option (List AclRule)) :
    Option β :=
  rules.bind fun rules ↦ decode (algorithm rules input)

theorem reports_nonempty (decode : BitVec 32 → Option β) (input : AclInputData)
    (rules : Option (List AclRule)) : (reports decode input rules).Nonempty := by
  cases rules with
  | none => exact ⟨none, rfl⟩
  | some rules =>
      by_cases hex : ∃ r ∈ rules, r.Matches input
      · obtain ⟨r, hr, hmatch, hbest, -⟩ := (linearClassify_spec rules input).2 hex
        exact ⟨_, .inr ⟨r, ⟨hr, hmatch, hbest⟩, rfl⟩⟩
      · exact ⟨none, .inl ⟨rfl, fun r hr hmatch ↦ hex ⟨r, hr, hmatch⟩⟩⟩

/-- A library that keeps its promise gives one of these answers. -/
theorem report_mem (hzero : decode 0 = none) {algorithm : List AclRule → AclInputData → BitVec 32}
    (halg : ClassifySpec algorithm) (rules : Option (List AclRule)) :
    report decode input algorithm rules ∈ reports decode input rules := by
  cases rules with
  | none => rfl
  | some rules =>
      by_cases hex : ∃ r ∈ rules, r.Matches input
      · obtain ⟨r, hr, hmatch, hbest, hanswer⟩ := (halg rules input).2 hex
        refine .inr ⟨r, ⟨hr, hmatch, hbest⟩, ?_⟩
        rw [report, Option.bind_some, hanswer]
      · have hno : ∀ r ∈ rules, ¬ r.Matches input := fun r hr hmatch ↦ hex ⟨r, hr, hmatch⟩
        refine .inl ⟨?_, hno⟩
        rw [report, Option.bind_some, (halg rules input).1 hno, hzero]

/-- Whatever answers are picked, there is a library that gives them. -/
theorem exists_algorithm_of (hzero : decode 0 = none) {σ : Option (List AclRule) → Option β}
    (hσ : ∀ rules, σ rules ∈ reports decode input rules) :
    ∃ algorithm, ClassifySpec algorithm ∧ report decode input algorithm = σ := by
  have hpick : ∀ rules : List AclRule, ∃ userdata : BitVec 32,
      decode userdata = σ (some rules) ∧
        ((∀ r ∈ rules, ¬ r.Matches input) → userdata = 0) ∧
        ((∃ r ∈ rules, r.Matches input) →
          ∃ r, Reportable rules input r ∧ userdata = r.userdata) := by
    intro rules
    rcases hσ (some rules) with ⟨hnone, hno⟩ | ⟨r, hr, hanswer⟩
    · refine ⟨0, hzero.trans hnone.symm, fun _ ↦ rfl, ?_⟩
      rintro ⟨r, hr, hmatch⟩
      exact absurd hmatch (hno r hr)
    · exact ⟨r.userdata, hanswer.symm, fun hno ↦ absurd hr.2.1 (hno r hr.1), fun _ ↦ ⟨r, hr, rfl⟩⟩
  choose pick hdecode hno hex using hpick
  refine ⟨fun rules input' ↦ if input' = input then pick rules
    else linearClassify rules input', fun rules input' ↦ ?_, funext fun rules ↦ ?_⟩
  · by_cases hinput : input' = input
    · subst hinput
      simp only [if_true]
      refine ⟨hno rules, fun h ↦ ?_⟩
      obtain ⟨r, ⟨hr, hmatch, hbest⟩, huser⟩ := hex rules h
      exact ⟨r, hr, hmatch, hbest, huser⟩
    · simp only [if_neg hinput]
      exact linearClassify_spec rules input'
  · cases rules with
    | none => exact (hσ none).symm
    | some rules =>
        rw [report, Option.bind_some, if_pos rfl]
        exact hdecode rules

/-- The classification in the context of a chunk is that of its rules. -/
theorem classifyIn_eq (algorithm : List AclRule → AclInputData → BitVec 32) (lib : AclLib)
    (chunk : AclChunk) :
    chunk.ctx.bind (classifyIn algorithm lib) = (builtRules lib chunk).map algorithm := by
  unfold builtRules classifyIn
  cases chunk.ctx with
  | none => rfl
  | some ctx => rfl

end Decoding

end DpdkSpi.RuleTable
