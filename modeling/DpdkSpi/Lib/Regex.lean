import Mathlib.Data.BitVec
import Mathlib.Data.List.Forall2

/-!
# Regular expressions with anchors

Syntax trees of regular expressions, what they match, and the concrete syntax of the common
subset of the Perl-compatible libraries: literals and escaped literals, `.`, `^`, `$`, groups,
alternatives and repetition.

An expression matches a part of a subject in a context, the text before and the text behind
it, because the anchors look at these.  As in those libraries, and without their multi-line
mode, `$` holds at the end of the subject and also before a final newline.
-/

namespace DpdkSpi.Lib

universe u

/-- Regular expressions. -/
inductive Regex (α : Type u) where
  | empty
  | char (c : α)
  | any
  | bol
  | eol
  | seq (r s : Regex α)
  | alt (r s : Regex α)
  | star (r : Regex α)
deriving DecidableEq, Repr

namespace Regex

variable {α : Type u}

/-- The modes of a match: which characters count as equal, and whether `.` matches a newline
too. -/
structure Mode (α : Type u) where
  eqv : α → α → Prop
  newline : α
  dotAll : Bool

/-- `r` matches `w` with `u` before and `v` behind it. -/
inductive Matches (m : Mode α) : Regex α → List α → List α → List α → Prop
  | empty {u v} : Matches m .empty u [] v
  | char {c a u v} (h : m.eqv c a) : Matches m (.char c) u [a] v
  | any {a u v} (h : m.dotAll = true ∨ a ≠ m.newline) : Matches m .any u [a] v
  | bol {v} : Matches m .bol [] [] v
  | eol {u} : Matches m .eol u [] []
  | eolNewline {u} : Matches m .eol u [] [m.newline]
  | seq {r s u w w' v} (hr : Matches m r u w (w' ++ v)) (hs : Matches m s (u ++ w) w' v) :
      Matches m (.seq r s) u (w ++ w') v
  | altLeft {r s u w v} (h : Matches m r u w v) : Matches m (.alt r s) u w v
  | altRight {r s u w v} (h : Matches m s u w v) : Matches m (.alt r s) u w v
  | starNil {r u v} : Matches m (.star r) u [] v
  | starCons {r u w w' v} (hr : Matches m r u w (w' ++ v))
      (hs : Matches m (.star r) (u ++ w) w' v) : Matches m (.star r) u (w ++ w') v

/-- `r` matches somewhere in the subject. -/
def Finds (m : Mode α) (r : Regex α) (subject : List α) : Prop :=
  ∃ u w v, subject = u ++ w ++ v ∧ Matches m r u w v

/-- One expression after the other. -/
def seqAll : List (Regex α) → Regex α
  | [] => .empty
  | r :: rs => .seq r (seqAll rs)

/-! ## What each constructor matches -/

section Inversion

variable {m : Mode α} {u w v : List α}

@[simp] theorem matches_empty : Matches m .empty u w v ↔ w = [] := by
  constructor
  · intro h
    cases h
    rfl
  · rintro rfl
    exact .empty

@[simp] theorem matches_char {c : α} : Matches m (.char c) u w v ↔ ∃ a, w = [a] ∧ m.eqv c a := by
  constructor
  · intro h
    cases h with
    | char h => exact ⟨_, rfl, h⟩
  · rintro ⟨a, rfl, h⟩
    exact .char h

@[simp] theorem matches_bol : Matches m .bol u w v ↔ u = [] ∧ w = [] := by
  constructor
  · intro h
    cases h
    exact ⟨rfl, rfl⟩
  · rintro ⟨rfl, rfl⟩
    exact .bol

@[simp] theorem matches_eol : Matches m .eol u w v ↔ w = [] ∧ (v = [] ∨ v = [m.newline]) := by
  constructor
  · intro h
    cases h
    · exact ⟨rfl, .inl rfl⟩
    · exact ⟨rfl, .inr rfl⟩
  · rintro ⟨rfl, rfl | rfl⟩
    · exact .eol
    · exact .eolNewline

theorem matches_seq {r s : Regex α} : Matches m (.seq r s) u w v ↔
    ∃ w₁ w₂, w = w₁ ++ w₂ ∧ Matches m r u w₁ (w₂ ++ v) ∧ Matches m s (u ++ w₁) w₂ v := by
  constructor
  · intro h
    cases h with
    | seq hr hs => exact ⟨_, _, rfl, hr, hs⟩
  · rintro ⟨w₁, w₂, rfl, hr, hs⟩
    exact .seq hr hs

@[simp] theorem matches_alt {r s : Regex α} :
    Matches m (.alt r s) u w v ↔ Matches m r u w v ∨ Matches m s u w v := by
  constructor
  · intro h
    cases h with
    | altLeft h => exact .inl h
    | altRight h => exact .inr h
  · rintro (h | h)
    · exact .altLeft h
    · exact .altRight h

@[simp] theorem matches_seqAll_nil : Matches m (seqAll []) u w v ↔ w = [] := matches_empty

theorem matches_seqAll_cons {r : Regex α} {rs : List (Regex α)} :
    Matches m (seqAll (r :: rs)) u w v ↔
      ∃ w₁ w₂, w = w₁ ++ w₂ ∧ Matches m r u w₁ (w₂ ++ v) ∧
        Matches m (seqAll rs) (u ++ w₁) w₂ v := matches_seq

@[simp] theorem matches_seqAll_singleton {r : Regex α} :
    Matches m (seqAll [r]) u w v ↔ Matches m r u w v := by
  rw [matches_seqAll_cons]
  constructor
  · rintro ⟨w₁, w₂, rfl, hr, h⟩
    obtain rfl := matches_seqAll_nil.mp h
    simpa using hr
  · intro h
    exact ⟨w, [], by simp, by simpa using h, by simp⟩

/-- A sequence of literals. -/
theorem matches_chars {p : List α} :
    Matches m (seqAll (p.map .char)) u w v ↔ List.Forall₂ m.eqv p w := by
  induction p generalizing u w with
  | nil => simp
  | cons c p ih =>
      rw [List.map_cons, matches_seqAll_cons]
      constructor
      · rintro ⟨w₁, w₂, rfl, hc, hp⟩
        obtain ⟨a, rfl, ha⟩ := matches_char.mp hc
        exact .cons ha (ih.mp hp)
      · intro h
        cases h with
        | cons ha hp => exact ⟨[_], _, rfl, .char ha, ih.mpr hp⟩

end Inversion

/-! ## Concrete syntax -/

/-- A character as a byte. -/
def ascii (c : Char) : BitVec 8 := BitVec.ofNat 8 c.toNat

/-- Letters and digits. -/
def isAlnum (c : BitVec 8) : Bool :=
  (ascii '0' ≤ c && c ≤ ascii '9') || (ascii 'A' ≤ c && c ≤ ascii 'Z') ||
    (ascii 'a' ≤ c && c ≤ ascii 'z')

/-- The symbols of the concrete syntax. -/
inductive Token where
  | lit (c : BitVec 8)
  | open
  | close
  | bar
  | star
  | dot
  | caret
  | dollar
deriving DecidableEq, Repr

/-- The symbol a byte is when no backslash stands before it.  There is none for the
constructs outside the subset. -/
def token (c : BitVec 8) : Option Token :=
  if c = ascii '(' then some .open
  else if c = ascii ')' then some .close
  else if c = ascii '|' then some .bar
  else if c = ascii '*' then some .star
  else if c = ascii '.' then some .dot
  else if c = ascii '^' then some .caret
  else if c = ascii '$' then some .dollar
  else if c = ascii '+' ∨ c = ascii '?' ∨ c = ascii '[' ∨ c = ascii '\x7b' then none
  else some (.lit c)

/-- The symbols of a text.  A backslash takes its meaning from the character behind it; it is
outside the subset before letters and digits. -/
def lex : List (BitVec 8) → Option (List Token)
  | [] => some []
  | c :: text =>
      if c = ascii '\\' then
        match text with
        | [] => none
        | d :: text => if isAlnum d then none else (lex text).map (.lit d :: ·)
      else
        match token c with
        | none => none
        | some t => (lex text).map (t :: ·)

/-- A group that is being read: the alternatives before the last `|`, and the items behind it,
the last one first. -/
structure Frame where
  alternatives : Option (Regex (BitVec 8)) := none
  items : List (Regex (BitVec 8)) := []

namespace Frame

/-- The frame with one more item. -/
def push (f : Frame) (r : Regex (BitVec 8)) : Frame := { f with items := r :: f.items }

/-- The expression of the items. -/
def sequence (f : Frame) : Regex (BitVec 8) := seqAll f.items.reverse

/-- The expression of the frame. -/
def finish (f : Frame) : Regex (BitVec 8) :=
  match f.alternatives with
  | none => f.sequence
  | some r => .alt r f.sequence

end Frame

/-- Read the rest of an expression, in a group and the groups around it. -/
def parseTokens : List Token → Frame → List Frame → Option (Regex (BitVec 8))
  | [], f, [] => some f.finish
  | [], _, _ :: _ => none
  | .lit c :: ts, f, stack => parseTokens ts (f.push (.char c)) stack
  | .dot :: ts, f, stack => parseTokens ts (f.push .any) stack
  | .caret :: ts, f, stack => parseTokens ts (f.push .bol) stack
  | .dollar :: ts, f, stack => parseTokens ts (f.push .eol) stack
  | .bar :: ts, f, stack => parseTokens ts { alternatives := some f.finish } stack
  | .open :: ts, f, stack => parseTokens ts {} (f :: stack)
  | .close :: _, _, [] => none
  | .close :: ts, f, g :: stack => parseTokens ts (g.push f.finish) stack
  | .star :: ts, f, stack =>
      match f.items with
      | [] => none
      | r :: items => parseTokens ts { f with items := .star r :: items } stack

/-- The expression a text spells. -/
def parse (text : List (BitVec 8)) : Option (Regex (BitVec 8)) :=
  (lex text).bind fun ts ↦ parseTokens ts {} []

/-- Lower-case ASCII letters for the upper-case ones. -/
def toLower (c : BitVec 8) : BitVec 8 :=
  if ascii 'A' ≤ c ∧ c ≤ ascii 'Z' then c + 32 else c

/-- The mode that ignores the case of ASCII letters. -/
def caseless (dotAll : Bool) : Mode (BitVec 8) where
  eqv a b := toLower a = toLower b
  newline := ascii '\n'
  dotAll

theorem forall₂_caseless {dotAll : Bool} {p w : List (BitVec 8)} :
    List.Forall₂ (caseless dotAll).eqv p w ↔ p.map toLower = w.map toLower := by
  rw [← List.forall₂_eq_eq_eq, List.forall₂_map_left_iff, List.forall₂_map_right_iff]
  rfl

/-! ## Reading literals -/

theorem lex_escaped {d : BitVec 8} (hd : isAlnum d = false) (text : List (BitVec 8)) :
    lex (ascii '\\' :: d :: text) = (lex text).map (.lit d :: ·) := by
  rw [lex, if_pos rfl, hd]
  rfl

theorem lex_of_token {c : BitVec 8} {t : Token} (hc : c ≠ ascii '\\') (ht : token c = some t)
    (text : List (BitVec 8)) : lex (c :: text) = (lex text).map (t :: ·) := by
  rw [lex.eq_def]
  simp only [if_neg hc, ht]

/-- The frame after some literals. -/
theorem parseTokens_lits (p : List (BitVec 8)) (ts : List Token) (f : Frame)
    (stack : List Frame) :
    parseTokens (p.map .lit ++ ts) f stack =
      parseTokens ts { f with items := (p.map .char).reverse ++ f.items } stack := by
  induction p generalizing f with
  | nil => rfl
  | cons c p ih =>
      rw [List.map_cons, List.cons_append, parseTokens, ih]
      simp [Frame.push]

end Regex

end DpdkSpi.Lib
