import DpdkSpi.Dpi.Match

/-!
# Patterns are literal

The expressions that `CompileDpiRuleTable` hands to the pattern library find what the patterns
say: an exact pattern finds itself, `*.d` finds `d` and what ends with a dot and `d`, and `*`
finds everything, without regard to the case of ASCII letters.  No byte of a pattern keeps a
meaning as a metacharacter, and none gets one from the backslashes of `EscapeRegex`.
-/

namespace DpdkSpi

open Lib Regex

/-- An expression that finds what a pattern says.  Hostnames do not have newlines, before which
`$` would hold too. -/
structure Literal (pattern : List (BitVec 8)) (e : HsExpression) : Prop where
  catchAll : pattern = catchAllPattern → ∀ subject, e.Finds subject
  suffix : ∀ domain, pattern = suffixMark ++ domain → ∀ subject, ascii '\n' ∉ subject →
    (e.Finds subject ↔ sameIgnoringCase domain subject = true ∨
      ∃ before behind, subject = before ++ ascii '.' :: behind ∧
        sameIgnoringCase domain behind = true)
  exact : pattern ≠ catchAllPattern → ¬ suffixMark <+: pattern → ∀ subject, ascii '\n' ∉ subject →
    (e.Finds subject ↔ sameIgnoringCase pattern subject = true)

/-! ## What patterns say -/

theorem patternMatches_catchAll (hostname : List (BitVec 8)) :
    patternMatches catchAllPattern hostname = true := by
  rw [patternMatches, if_pos rfl]

theorem patternMatches_suffix (domain hostname : List (BitVec 8)) :
    patternMatches (suffixMark ++ domain) hostname = true ↔
      sameIgnoringCase domain hostname = true ∨
        ∃ before behind, hostname = before ++ ascii '.' :: behind ∧
          sameIgnoringCase domain behind = true := by
  have hcatch : suffixMark ++ domain ≠ catchAllPattern := by
    intro h
    cases h
  have hprefix : suffixMark.isPrefixOf (suffixMark ++ domain) = true :=
    List.isPrefixOf_iff_prefix.mpr (List.prefix_append _ _)
  have hdrop : (suffixMark ++ domain).drop 2 = domain := rfl
  rw [patternMatches, if_neg hcatch, if_pos hprefix, hdrop, underDomain_iff]
  constructor
  · rintro ⟨u, w, x, rfl, ⟨rfl, rfl⟩ | rfl, hx⟩
    · exact .inl hx
    · exact .inr ⟨u, x, by simp, hx⟩
  · rintro (h | ⟨before, behind, rfl, h⟩)
    · exact ⟨[], [], hostname, rfl, .inl ⟨rfl, rfl⟩, h⟩
    · exact ⟨before, [ascii '.'], behind, by simp, .inr rfl, h⟩

theorem patternMatches_exact {pattern : List (BitVec 8)} (hcatch : pattern ≠ catchAllPattern)
    (hsuffix : ¬ suffixMark <+: pattern) (hostname : List (BitVec 8)) :
    patternMatches pattern hostname = sameIgnoringCase pattern hostname := by
  have hprefix : ¬ suffixMark.isPrefixOf pattern = true :=
    fun h ↦ hsuffix (List.isPrefixOf_iff_prefix.mp h)
  rw [patternMatches, if_neg hcatch, if_neg hprefix]

/-! ## What the expressions find -/

/-- The expression of a pattern without zero bytes is literal. -/
theorem literal_compiled {c : DpiFilterConfig} (h : 0 ∉ c.hostnamePattern) (id : Nat) :
    Literal c.hostnamePattern
      { pattern := cStr (regexOf (compileDpiFilter c))
        flags := { caseless := true, dotAll := true, allowEmpty := true }
        id := id } where
  catchAll := by
    intro hcatch subject
    rw [finds_compiled h, filterMatches, List.any_eq_true, hcatch]
    exact ⟨subject, mem_readings.mpr (.inl rfl), patternMatches_catchAll subject⟩
  suffix := by
    intro domain hdomain subject hnewline
    rw [finds_compiled h, filterMatches_of_noNewline hnewline, hdomain, patternMatches_suffix]
  exact := by
    intro hcatch hsuffix subject hnewline
    rw [finds_compiled h, filterMatches_of_noNewline hnewline,
      patternMatches_exact hcatch hsuffix]

/-- **The expressions of an accepted list are literal**: those that its database is compiled
from, at the positions of the filters. -/
theorem compiledExpressions_literal {hs : Hyperscan} {sorts : DpiSorts} {config : DpiConfig}
    {t : DpiRules} (h : compileDpiRuleTable hs sorts config = .ok t) {c : DpiFilterConfig}
    (hc : c ∈ config.filters) (hzero : 0 ∉ c.hostnamePattern) :
    ∃ db, t.hsDb = some db ∧ hs.compileMulti (hsExpressions (registered sorts config)) = .ok db ∧
      compileDpiFilter c ∈ registered sorts config ∧
      ∀ i : Nat, (registered sorts config)[i]? = some (compileDpiFilter c) →
        ∃ e, (hsExpressions (registered sorts config))[i]? = some e ∧
          Literal c.hostnamePattern e := by
  obtain ⟨hsDb, rfl, ⟨-, hempty⟩ | ⟨db, rfl, hdb⟩⟩ := compileDpiRuleTable_ok h
  · rw [hempty] at hc
    cases hc
  · refine ⟨db, DpiRules.ofFilters_hsDb _ _ _, hdb, mem_registered.mpr ⟨c, hc, rfl⟩, ?_⟩
    intro i hi
    rw [hsExpressions, List.getElem?_mapIdx, hi]
    exact ⟨_, rfl, literal_compiled hzero i⟩

/-- The pattern `a+b.c`, which is not an expression for `ab.c` or `a+bxc`. -/
def plusConfig : DpiConfig where
  enabled := true
  filters := [{ hostnamePattern := hostBytes ['a', '+', 'b', '.', 'c'], filterGroup := "fg_l7_a" }]

theorem compiledExpressions_literal_plus : ∃ e : HsExpression,
    e.Finds (hostBytes ['A', '+', 'b', '.', 'C']) ∧ ¬ e.Finds (hostBytes ['a', 'b', '.', 'c']) ∧
      ¬ e.Finds (hostBytes ['a', '+', 'b', 'x', 'c']) := by
  obtain ⟨t, ht⟩ := compile_reportingFirst plusConfig 0 plainSorts (by decide) (by decide)
  obtain ⟨db, -, -, -, hliteral⟩ := compiledExpressions_literal ht List.mem_cons_self (by decide)
  obtain ⟨e, -, he⟩ := hliteral 0 rfl
  have hexact := he.exact (by decide) (by decide)
  refine ⟨e, (hexact _ (by decide)).mpr (by decide), ?_, ?_⟩
  · rw [hexact _ (by decide)]
    decide
  · rw [hexact _ (by decide)]
    decide

end DpdkSpi
