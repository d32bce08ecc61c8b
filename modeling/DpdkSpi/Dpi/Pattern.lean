import Mathlib.Data.List.TakeWhile
import DpdkSpi.Config
import DpdkSpi.Lib.Regex

/-!
# Hostname patterns

How `CompileDpiRuleTable` turns a hostname pattern into a regular expression, after
`dpi_rule_engine.cpp`, and what that expression matches.

The text is read back with the concrete syntax of `Lib.Regex`, so that the escapes are part of
the result: the expression of a pattern is found in a hostname exactly when the pattern
matches it, or it without a final newline (`finds_regexTree`).  A pattern with a zero byte
ends there as a C string, inside a group that is then never closed (`unclosed_of_zero`).
-/

namespace DpdkSpi

open Lib Regex

/-! ## Filters -/

/-- `CompiledDpiFilter`.  The pattern is the first `hostname_pattern_length` bytes of its
array. -/
structure CompiledDpiFilter where
  hostnamePattern : List (BitVec 8) := []
  isSuffixMatch : Bool := false
  isCatchAll : Bool := false
  filterGroup : String := ""
  priority : BitVec 32 := 100
  label : String := ""
deriving DecidableEq, Repr

/-- The bytes of a hostname. -/
def hostBytes (s : List Char) : List (BitVec 8) := s.map ascii

/-- The pattern of a catch-all. -/
def catchAllPattern : List (BitVec 8) := [ascii '*']

/-- What the pattern of a suffix match starts with. -/
def suffixMark : List (BitVec 8) := [ascii '*', ascii '.']

/-- What a C string holds of some bytes. -/
def cStr (text : List (BitVec 8)) : List (BitVec 8) := text.takeWhile (· ≠ 0)

/-- `strncpy` into an array of zeros that is long enough, up to the length of the source. -/
def strncpy (text : List (BitVec 8)) : List (BitVec 8) :=
  cStr text ++ List.replicate (text.length - (cStr text).length) 0

/-- The body of the first loop of `CompileDpiRuleTable`. -/
def compileDpiFilter (config : DpiFilterConfig) : CompiledDpiFilter where
  hostnamePattern := strncpy config.hostnamePattern
  isSuffixMatch := suffixMark.isPrefixOf config.hostnamePattern
  isCatchAll := config.hostnamePattern = catchAllPattern
  filterGroup := config.filterGroup
  priority := config.priority
  label := config.label

theorem strncpy_of_noZero {text : List (BitVec 8)} (h : 0 ∉ text) : strncpy text = text := by
  have hall : cStr text = text := by
    refine List.takeWhile_eq_self_iff.mpr fun c hc ↦ ?_
    simpa using fun hzero : c = 0 ↦ h (hzero ▸ hc)
  rw [strncpy, hall, Nat.sub_self, List.replicate_zero, List.append_nil]

theorem zero_mem_strncpy {text : List (BitVec 8)} (h : 0 ∈ text) : 0 ∈ strncpy text := by
  have hlt : (cStr text).length < text.length := by
    refine lt_of_le_of_ne (List.takeWhile_prefix _).length_le fun heq ↦ ?_
    have hall := (List.takeWhile_prefix (fun c : BitVec 8 ↦ decide (c ≠ 0))).eq_of_length heq
    simpa using List.takeWhile_eq_self_iff.mp hall 0 h
  rw [strncpy, List.mem_append]
  exact .inr (List.mem_replicate.mpr ⟨by omega, rfl⟩)

/-! ## The text of an expression -/

/-- The characters that `EscapeRegex` puts a backslash before. -/
def isMetacharacter (c : BitVec 8) : Bool :=
  c ∈ ['.', '\\', '+', '*', '?', '[', '^', ']', '$', '(', ')', '\x7b', '\x7d', '=', '!', '<',
    '>', '|', ':'].map ascii

/-- `EscapeRegex`. -/
def escapeRegex : List (BitVec 8) → List (BitVec 8)
  | [] => []
  | c :: str =>
      if isMetacharacter c then ascii '\\' :: c :: escapeRegex str else c :: escapeRegex str

/-- What an exact match starts with. -/
def exactStart : List (BitVec 8) := ['^', '('].map ascii

/-- What a suffix match starts with. -/
def suffixStart : List (BitVec 8) := ['(', '^', '|', '\\', '.', ')', '('].map ascii

/-- What both end with. -/
def regexEnd : List (BitVec 8) := [')', '$'].map ascii

/-- The expression of a filter. -/
def regexOf (f : CompiledDpiFilter) : List (BitVec 8) :=
  if f.isCatchAll then ['.', '*'].map ascii
  else if f.isSuffixMatch then
    let domain := if 2 ≤ f.hostnamePattern.length then f.hostnamePattern.drop 2
      else f.hostnamePattern
    suffixStart ++ escapeRegex domain ++ regexEnd
  else exactStart ++ escapeRegex f.hostnamePattern ++ regexEnd

/-! ## Reading it back -/

theorem isAlnum_of_isMetacharacter {c : BitVec 8} (hc : isMetacharacter c = true) :
    isAlnum c = false := by
  have hmem := of_decide_eq_true hc
  have hnot : (!isAlnum c) = true := by
    refine (List.all_eq_true (p := fun d ↦ !isAlnum d)).mp ?_ c hmem
    decide
  simpa using hnot

theorem token_of_not_isMetacharacter {c : BitVec 8} (hc : isMetacharacter c = false) :
    c ≠ ascii '\\' ∧ token c = some (.lit c) := by
  have hmem := of_decide_eq_false hc
  simp only [List.map_cons, List.mem_cons, not_or] at hmem
  simp [token, hmem]

/-- Escaped bytes are literals. -/
theorem lex_escapeRegex (str text : List (BitVec 8)) :
    lex (escapeRegex str ++ text) = (lex text).map (str.map .lit ++ ·) := by
  induction str with
  | nil => simp [escapeRegex]
  | cons c str ih =>
      by_cases hc : isMetacharacter c = true
      · rw [escapeRegex, if_pos hc, List.cons_append, List.cons_append,
          lex_escaped (isAlnum_of_isMetacharacter hc), ih, Option.map_map]
        rfl
      · obtain ⟨hne, htoken⟩ := token_of_not_isMetacharacter (Bool.eq_false_iff.mpr hc)
        rw [escapeRegex, if_neg hc, List.cons_append, lex_of_token hne htoken, ih, Option.map_map]
        rfl

/-- A group of literals. -/
def literal (str : List (BitVec 8)) : Regex (BitVec 8) := seqAll (str.map .char)

/-- `^(p)$`. -/
def exactRegex (p : List (BitVec 8)) : Regex (BitVec 8) := seqAll [.bol, literal p, .eol]

/-- `(^|\.)(d)$`. -/
def suffixRegex (d : List (BitVec 8)) : Regex (BitVec 8) :=
  seqAll [.alt (seqAll [.bol]) (literal [ascii '.']), literal d, .eol]

/-- The expression of a filter as a tree. -/
def regexTree (f : CompiledDpiFilter) : Regex (BitVec 8) :=
  if f.isCatchAll then seqAll [.star .any]
  else if f.isSuffixMatch then
    suffixRegex (if 2 ≤ f.hostnamePattern.length then f.hostnamePattern.drop 2
      else f.hostnamePattern)
  else exactRegex f.hostnamePattern

theorem lex_exactStart (text : List (BitVec 8)) :
    lex (exactStart ++ text) = (lex text).map ([.caret, .open] ++ ·) := by
  change lex (ascii '^' :: ascii '(' :: text) = _
  rw [lex_of_token (t := .caret) (by decide) rfl, lex_of_token (t := .open) (by decide) rfl,
    Option.map_map]
  rfl

theorem lex_suffixStart (text : List (BitVec 8)) :
    lex (suffixStart ++ text) =
      (lex text).map ([.open, .caret, .bar, .lit (ascii '.'), .close, .open] ++ ·) := by
  change lex (ascii '(' :: ascii '^' :: ascii '|' :: ascii '\\' :: ascii '.' :: ascii ')' ::
    ascii '(' :: text) = _
  rw [lex_of_token (t := .open) (by decide) rfl, lex_of_token (t := .caret) (by decide) rfl,
    lex_of_token (t := .bar) (by decide) rfl, lex_escaped (by decide),
    lex_of_token (t := .close) (by decide) rfl, lex_of_token (t := .open) (by decide) rfl,
    Option.map_map, Option.map_map, Option.map_map, Option.map_map, Option.map_map]
  rfl

theorem lex_escaped_end (str : List (BitVec 8)) :
    lex (escapeRegex str ++ regexEnd) = some (str.map .lit ++ [.close, .dollar]) := by
  have hend : lex regexEnd = some [.close, .dollar] := rfl
  rw [lex_escapeRegex, hend]
  rfl

theorem lex_escaped_cut (str : List (BitVec 8)) : lex (escapeRegex str) = some (str.map .lit) := by
  have h := lex_escapeRegex str []
  rw [List.append_nil] at h
  rw [h]
  exact congrArg some (List.append_nil _)

/-- **The text of a filter spells its tree.** -/
theorem parse_regexOf (f : CompiledDpiFilter) : parse (regexOf f) = some (regexTree f) := by
  unfold regexOf regexTree
  split
  · rfl
  · dsimp only
    split
    · generalize (if 2 ≤ f.hostnamePattern.length then _ else _) = domain
      rw [parse, List.append_assoc, lex_suffixStart, lex_escaped_end]
      change parseTokens (domain.map .lit ++ [.close, .dollar]) {}
        [Frame.push {} (.alt (seqAll [.bol]) (literal [ascii '.']))] = _
      rw [parseTokens_lits]
      simp [parseTokens, Frame.finish, Frame.sequence, Frame.push, suffixRegex, literal]
    · rw [parse, List.append_assoc, lex_exactStart, lex_escaped_end]
      change parseTokens (f.hostnamePattern.map .lit ++ [.close, .dollar]) {}
        [Frame.push {} .bol] = _
      rw [parseTokens_lits]
      simp [parseTokens, Frame.finish, Frame.sequence, Frame.push, exactRegex, literal]

/-! ## Zero bytes -/

theorem zero_mem_escapeRegex {str : List (BitVec 8)} : 0 ∈ escapeRegex str ↔ 0 ∈ str := by
  induction str with
  | nil => rfl
  | cons c str ih =>
      have hslash : (0 : BitVec 8) ≠ ascii '\\' := by decide
      rw [escapeRegex]
      split
      · rw [List.mem_cons, List.mem_cons, List.mem_cons, ih]
        exact or_iff_right hslash
      · rw [List.mem_cons, List.mem_cons, ih]

/-- A C string ends at the first zero. -/
theorem cStr_escapeRegex {str : List (BitVec 8)} (h : 0 ∈ str) (text : List (BitVec 8)) :
    cStr (escapeRegex str ++ text) = escapeRegex (cStr str) := by
  induction str with
  | nil => cases h
  | cons c str ih =>
      by_cases hc : c = 0
      · subst hc
        rfl
      · have hslash : ascii '\\' ≠ 0 := by decide
        have hmem : 0 ∈ str := by
          rcases List.mem_cons.mp h with h | h
          · exact absurd h.symm hc
          · exact h
        have hcons : cStr (c :: str) = c :: cStr str :=
          List.takeWhile_cons_of_pos (by simpa using hc)
        rw [hcons, escapeRegex, escapeRegex]
        split
        · rw [List.cons_append, List.cons_append, cStr,
            List.takeWhile_cons_of_pos (by simpa using hslash),
            List.takeWhile_cons_of_pos (by simpa using hc)]
          exact congrArg (ascii '\\' :: c :: ·) (ih hmem)
        · rw [List.cons_append, cStr, List.takeWhile_cons_of_pos (by simpa using hc)]
          exact congrArg (c :: ·) (ih hmem)

theorem cStr_append {first : List (BitVec 8)} (h : 0 ∉ first) (text : List (BitVec 8)) :
    cStr (first ++ text) = first ++ cStr text := by
  refine List.takeWhile_append_of_pos fun c hc ↦ ?_
  simpa using fun hzero : c = 0 ↦ h (hzero ▸ hc)

/-- Without zeros the library reads the whole text. -/
theorem cStr_regexOf {f : CompiledDpiFilter} (h : 0 ∉ f.hostnamePattern) :
    cStr (regexOf f) = regexOf f := by
  have hregex : 0 ∉ regexOf f := by
    have hdrop : 0 ∉ f.hostnamePattern.drop 2 := fun hmem ↦ h (List.mem_of_mem_drop hmem)
    unfold regexOf
    dsimp only
    split
    · decide
    · split
      · split
        all_goals
          simp only [List.mem_append, zero_mem_escapeRegex, not_or]
          refine ⟨⟨by decide, ?_⟩, by decide⟩
          assumption
      · simp only [List.mem_append, zero_mem_escapeRegex, not_or]
        exact ⟨⟨by decide, h⟩, by decide⟩
  have happend := cStr_append hregex []
  rw [List.append_nil] at happend
  exact happend.trans (List.append_nil _)

/-- The text opens more groups than it closes. -/
def Unclosed (text : List (BitVec 8)) : Prop :=
  ∃ ts, lex text = some ts ∧ ts.count .close < ts.count .open

theorem count_lits (str : List (BitVec 8)) :
    (str.map Token.lit).count .close = 0 ∧ (str.map Token.lit).count .open = 0 := by
  constructor
  · refine List.count_eq_zero.mpr fun h ↦ ?_
    obtain ⟨c, -, hc⟩ := List.mem_map.mp h
    cases hc
  · refine List.count_eq_zero.mpr fun h ↦ ?_
    obtain ⟨c, -, hc⟩ := List.mem_map.mp h
    cases hc

/-- **A pattern with a zero byte leaves a group open.** -/
theorem unclosed_of_zero {config : DpiFilterConfig} (h : 0 ∈ config.hostnamePattern) :
    Unclosed (cStr (regexOf (compileDpiFilter config))) := by
  have hzero : 0 ∈ strncpy config.hostnamePattern := zero_mem_strncpy h
  have hcatch : config.hostnamePattern ≠ catchAllPattern := by
    intro heq
    rw [heq] at h
    revert h
    decide
  unfold regexOf compileDpiFilter
  dsimp only
  rw [if_neg (by simpa using hcatch)]
  split
  · -- the mark of a suffix match stands before the first zero
    rename_i hsuffix
    obtain ⟨d, hd⟩ := List.isPrefixOf_iff_prefix.mp hsuffix
    have hcopy : strncpy config.hostnamePattern = suffixMark ++ strncpy d := by
      have hmark : (0 : BitVec 8) ∉ suffixMark := by decide
      rw [← hd, strncpy, cStr_append hmark, List.append_assoc, List.length_append,
        List.length_append, Nat.add_sub_add_left]
      rfl
    have hdrop : (strncpy config.hostnamePattern).drop 2 = strncpy d := by
      rw [hcopy]
      rfl
    have hzero' : 0 ∈ strncpy d := by
      rw [hcopy] at hzero
      rcases List.mem_append.mp hzero with hmark | hmem
      · exact absurd hmark (by decide)
      · exact hmem
    have hlen : 2 ≤ (strncpy config.hostnamePattern).length := by
      rw [hcopy, List.length_append]
      exact Nat.le_add_right 2 _
    rw [if_pos hlen, hdrop, List.append_assoc, cStr_append (by decide), cStr_escapeRegex hzero',
      Unclosed, lex_suffixStart, lex_escaped_cut]
    refine ⟨_, rfl, ?_⟩
    rw [List.count_append, List.count_append, (count_lits _).1, (count_lits _).2]
    decide
  · rw [List.append_assoc, cStr_append (by decide), cStr_escapeRegex hzero, Unclosed,
      lex_exactStart, lex_escaped_cut]
    refine ⟨_, rfl, ?_⟩
    rw [List.count_append, List.count_append, (count_lits _).1, (count_lits _).2]
    decide

/-- Without zeros every group is closed. -/
theorem not_unclosed_regexOf {f : CompiledDpiFilter} (h : 0 ∉ f.hostnamePattern) :
    ¬ Unclosed (cStr (regexOf f)) := by
  rw [cStr_regexOf h]
  rintro ⟨ts, hts, hlt⟩
  unfold regexOf at hts
  dsimp only at hts
  split at hts
  · cases hts
    revert hlt
    decide
  · split at hts
    · rw [List.append_assoc, lex_suffixStart, lex_escaped_end] at hts
      cases hts
      simp [List.count_append, (count_lits _).1, (count_lits _).2] at hlt
    · rw [List.append_assoc, lex_exactStart, lex_escaped_end] at hts
      cases hts
      simp [List.count_append, (count_lits _).1, (count_lits _).2] at hlt

/-! ## What the expressions find -/

/-- Equal but for the case of ASCII letters. -/
def sameIgnoringCase (p w : List (BitVec 8)) : Bool := p.map toLower = w.map toLower

/-- `hostname` is `domain`, or ends with a dot and `domain`. -/
def underDomain (domain hostname : List (BitVec 8)) : Bool :=
  sameIgnoringCase domain hostname ||
    ((ascii '.' :: domain).map toLower).isSuffixOf (hostname.map toLower)

/-- What a pattern says about a hostname. -/
def patternMatches (pattern hostname : List (BitVec 8)) : Bool :=
  if pattern = catchAllPattern then true
  else if suffixMark.isPrefixOf pattern then underDomain (pattern.drop 2) hostname
  else sameIgnoringCase pattern hostname

/-- The hostname, and what it is without a final newline. -/
def readings (hostname : List (BitVec 8)) : List (List (BitVec 8)) :=
  if hostname.getLast? = some (ascii '\n') then [hostname, hostname.dropLast] else [hostname]

theorem mem_readings {h h' : List (BitVec 8)} :
    h' ∈ readings h ↔ h = h' ∨ h = h' ++ [ascii '\n'] := by
  unfold readings
  split
  · rename_i hlast
    rw [List.mem_cons, List.mem_singleton, eq_comm (a := h')]
    refine or_congr_right ⟨?_, ?_⟩
    · rintro rfl
      exact (List.dropLast_append_getLast? _ hlast).symm
    · rintro rfl
      exact List.dropLast_concat.symm
  · rename_i hlast
    rw [List.mem_singleton, eq_comm (a := h')]
    refine ⟨.inl, ?_⟩
    rintro (h | rfl)
    · exact h
    · exact absurd (by simp) hlast

theorem readings_of_noNewline {h : List (BitVec 8)} (hnl : ascii '\n' ∉ h) : readings h = [h] := by
  refine if_neg fun hlast ↦ hnl ?_
  exact List.mem_of_getLast? hlast

theorem matches_literal {p u w v : List (BitVec 8)} :
    Matches (caseless true) (literal p) u w v ↔ sameIgnoringCase p w = true := by
  rw [literal, matches_chars, forall₂_caseless, sameIgnoringCase, decide_eq_true_eq]

/-- Only the dot is a dot. -/
theorem toLower_dot (a : BitVec 8) (h : toLower (ascii '.') = toLower a) : a = ascii '.' := by
  have hdot : toLower (ascii '.') = 46#8 := rfl
  have hA : ascii 'A' = 65#8 := rfl
  have hZ : ascii 'Z' = 90#8 := rfl
  rw [hdot] at h
  unfold toLower at h
  split at h
  · -- a capital becomes a letter
    rename_i hupper
    rw [hA, hZ] at hupper
    bv_omega
  · exact h.symm

theorem sameIgnoringCase_dot {w : List (BitVec 8)} :
    sameIgnoringCase [ascii '.'] w = true ↔ w = [ascii '.'] := by
  rw [sameIgnoringCase, decide_eq_true_eq]
  constructor
  · intro h
    obtain ⟨a, t, rfl, ha, ht⟩ := List.map_eq_cons_iff.mp h.symm
    rw [List.map_eq_nil_iff.mp ht, toLower_dot a ha.symm]
  · rintro rfl
    rfl

/-- A literal at the end, behind something that does not look ahead. -/
theorem finds_anchored {r : Regex (BitVec 8)} {R : List (BitVec 8) → List (BitVec 8) → Prop}
    (hr : ∀ u w v, Matches (caseless true) r u w v ↔ R u w) (d h : List (BitVec 8)) :
    Finds (caseless true) (seqAll [r, literal d, .eol]) h ↔
      ∃ h' ∈ readings h, ∃ u w x, h' = u ++ w ++ x ∧ R u w ∧ sameIgnoringCase d x = true := by
  constructor
  · rintro ⟨u, t, v, rfl, hm⟩
    obtain ⟨w, t', rfl, hw, hm⟩ := matches_seqAll_cons.mp hm
    obtain ⟨x, t'', rfl, hx, hm⟩ := matches_seqAll_cons.mp hm
    obtain ⟨rfl, hv⟩ := matches_eol.mp (matches_seqAll_singleton.mp hm)
    refine ⟨u ++ w ++ x, mem_readings.mpr ?_, u, w, x, rfl, (hr _ _ _).mp hw,
      matches_literal.mp hx⟩
    rcases hv with rfl | rfl
    · exact .inl (by simp)
    · exact .inr (by simp [caseless])
  · rintro ⟨h', hh', u, w, x, rfl, hR, hx⟩
    have hfinds : ∀ v, (v = [] ∨ v = [ascii '\n']) →
        Matches (caseless true) (seqAll [r, literal d, .eol]) u (w ++ (x ++ [])) v := by
      intro v hv
      refine matches_seqAll_cons.mpr ⟨w, x ++ [], rfl, (hr _ _ _).mpr hR, ?_⟩
      refine matches_seqAll_cons.mpr ⟨x, [], rfl, matches_literal.mpr hx, ?_⟩
      exact matches_seqAll_singleton.mpr (matches_eol.mpr ⟨rfl, hv⟩)
    rcases mem_readings.mp hh' with rfl | rfl
    · exact ⟨u, _, [], by simp, hfinds [] (.inl rfl)⟩
    · exact ⟨u, _, [ascii '\n'], by simp, hfinds _ (.inr rfl)⟩

theorem finds_exactRegex (p h : List (BitVec 8)) :
    Finds (caseless true) (exactRegex p) h ↔ ∃ h' ∈ readings h, sameIgnoringCase p h' = true := by
  rw [exactRegex, finds_anchored (fun _ _ _ ↦ matches_bol)]
  refine exists_congr fun h' ↦ and_congr_right fun _ ↦ ⟨?_, ?_⟩
  · rintro ⟨u, w, x, rfl, ⟨rfl, rfl⟩, hx⟩
    exact hx
  · intro hx
    exact ⟨[], [], h', rfl, ⟨rfl, rfl⟩, hx⟩

theorem underDomain_iff {d h : List (BitVec 8)} : underDomain d h = true ↔
    ∃ u w x, h = u ++ w ++ x ∧ (u = [] ∧ w = [] ∨ w = [ascii '.']) ∧
      sameIgnoringCase d x = true := by
  unfold underDomain
  rw [Bool.or_eq_true, List.isSuffixOf_iff_suffix]
  constructor
  · rintro (h | ⟨t, ht⟩)
    · exact ⟨[], [], _, rfl, .inl ⟨rfl, rfl⟩, h⟩
    · obtain ⟨u, s, rfl, -, hs⟩ := List.map_eq_append_iff.mp ht.symm
      obtain ⟨a, x, rfl, ha, hx⟩ := List.map_eq_cons_iff.mp hs
      obtain rfl := toLower_dot a ha.symm
      refine ⟨u, [ascii '.'], x, by simp, .inr rfl, ?_⟩
      rw [sameIgnoringCase, decide_eq_true_eq]
      exact hx.symm
  · rintro ⟨u, w, x, rfl, ⟨rfl, rfl⟩ | rfl, hx⟩
    · exact .inl hx
    · refine .inr ⟨u.map toLower, ?_⟩
      rw [sameIgnoringCase, decide_eq_true_eq] at hx
      simp [hx]

theorem finds_suffixRegex (d h : List (BitVec 8)) :
    Finds (caseless true) (suffixRegex d) h ↔ ∃ h' ∈ readings h, underDomain d h' = true := by
  have hr : ∀ u w v, Matches (caseless true) (.alt (seqAll [.bol]) (literal [ascii '.'])) u w v ↔
      (u = [] ∧ w = [] ∨ w = [ascii '.']) := by
    intro u w v
    rw [matches_alt, matches_seqAll_singleton, matches_bol, matches_literal, sameIgnoringCase_dot]
  rw [suffixRegex, finds_anchored hr]
  simp only [underDomain_iff]

/-- Everything is matched by a repetition. -/
theorem finds_star (r : Regex (BitVec 8)) (m : Mode (BitVec 8)) (h : List (BitVec 8)) :
    Finds m (seqAll [.star r]) h :=
  ⟨[], [], h, rfl, matches_seqAll_singleton.mpr .starNil⟩

/-- **What the expression of a filter finds**: the hostnames its pattern matches, but for a
final newline. -/
theorem finds_regexTree {config : DpiFilterConfig} (hzero : 0 ∉ config.hostnamePattern)
    (h : List (BitVec 8)) :
    Finds (caseless true) (regexTree (compileDpiFilter config)) h ↔
      ∃ h' ∈ readings h, patternMatches config.hostnamePattern h' = true := by
  unfold regexTree compileDpiFilter patternMatches
  dsimp only
  rw [strncpy_of_noZero hzero]
  by_cases hcatch : config.hostnamePattern = catchAllPattern
  · rw [if_pos (by simpa using hcatch)]
    simp only [hcatch, if_true]
    exact ⟨fun _ ↦ ⟨h, mem_readings.mpr (.inl rfl), trivial⟩, fun _ ↦ finds_star _ _ h⟩
  · rw [if_neg (by simpa using hcatch)]
    simp only [hcatch, if_false]
    by_cases hsuffix : suffixMark.isPrefixOf config.hostnamePattern = true
    · have hlen : 2 ≤ config.hostnamePattern.length :=
        (List.isPrefixOf_iff_prefix.mp hsuffix).length_le
      simp only [hsuffix, if_true, hlen]
      exact finds_suffixRegex _ h
    · simp only [hsuffix]
      exact finds_exactRegex _ h

end DpdkSpi
