import Mathlib.Data.List.Basic

/-!
# Quoted text

Text between two quotes, where some letters are written as an escape with another letter behind it.
When the quote and the escape are among them, what is written can be read back
(`Quoting.decode_encode`), and a reader that starts behind the first quote stops at the last one,
whatever is behind it (`Quoting.scan_encode`).
-/

namespace DpdkSpi.Lib

universe u

/-- How text is quoted: the letters that are escaped, and what stands for them. -/
structure Quoting (α : Type u) where
  quote : α
  escape : α
  escape_ne_quote : escape ≠ quote
  letter : α → Option α
  unletter : α → Option α
  unletter_letter : ∀ {a l}, letter a = some l → unletter l = some a
  letter_quote : letter quote ≠ none
  letter_escape : letter escape ≠ none

namespace Quoting

variable {α : Type u} {q : Quoting α}

/-- A letter as it is written. -/
def encodeOne (q : Quoting α) (a : α) : List α :=
  match q.letter a with
  | some l => [q.escape, l]
  | none => [a]

/-- Text as it is written between the quotes. -/
def encode (q : Quoting α) (text : List α) : List α := text.flatMap q.encodeOne

/-- Every escape has a letter behind it, and there is no quote that is not escaped. -/
inductive Escaped (q : Quoting α) : List α → Prop
  | nil : Escaped q []
  | plain {a : α} {body : List α} : a ≠ q.quote → a ≠ q.escape → Escaped q body →
      Escaped q (a :: body)
  | escape (l : α) {body : List α} : Escaped q body → Escaped q (q.escape :: l :: body)

theorem ne_of_letter_eq_none {a : α} (h : q.letter a = none) : a ≠ q.quote ∧ a ≠ q.escape := by
  constructor
  · rintro rfl
    exact q.letter_quote h
  · rintro rfl
    exact q.letter_escape h

theorem escaped_encode (text : List α) : q.Escaped (q.encode text) := by
  induction text with
  | nil => exact .nil
  | cons a text ih =>
      rw [encode, List.flatMap_cons, encodeOne]
      cases h : q.letter a with
      | none =>
          obtain ⟨hquote, hescape⟩ := ne_of_letter_eq_none h
          exact .plain hquote hescape ih
      | some l => exact .escape l ih

/-! ## Reading -/

variable [DecidableEq α]

/-- What a body stands for.  A quote, or an escape at the end, stands for nothing. -/
def decode (q : Quoting α) : List α → Option (List α)
  | [] => some []
  | [a] => if a = q.escape ∨ a = q.quote then none else some [a]
  | a :: l :: body =>
      if a = q.escape then
        match q.unletter l with
        | none => none
        | some b => (decode q body).map (b :: ·)
      else if a = q.quote then none
      else (decode q (l :: body)).map (a :: ·)

/-- Reading from behind a quote to the next one that is not escaped: the text, and what is behind
it. -/
def scan (q : Quoting α) : List α → Option (List α × List α)
  | [] => none
  | [a] => if a = q.quote then some ([], []) else none
  | a :: l :: rest =>
      if a = q.quote then some ([], l :: rest)
      else if a = q.escape then
        match q.unletter l with
        | none => none
        | some b => (scan q rest).map fun r ↦ (b :: r.1, r.2)
      else (scan q (l :: rest)).map fun r ↦ (a :: r.1, r.2)

theorem decode_plain {a : α} (hquote : a ≠ q.quote) (hescape : a ≠ q.escape) (body : List α) :
    q.decode (a :: body) = (q.decode body).map (a :: ·) := by
  cases body with
  | nil => exact if_neg (not_or.mpr ⟨hescape, hquote⟩)
  | cons l body => rw [decode, if_neg hescape, if_neg hquote]

theorem scan_plain {a : α} (hquote : a ≠ q.quote) (hescape : a ≠ q.escape) (rest : List α) :
    q.scan (a :: rest) = (q.scan rest).map fun r ↦ (a :: r.1, r.2) := by
  cases rest with
  | nil => exact if_neg hquote
  | cons l rest => rw [scan, if_neg hquote, if_neg hescape]

theorem scan_quote (rest : List α) : q.scan (q.quote :: rest) = some ([], rest) := by
  cases rest with
  | nil => exact if_pos rfl
  | cons l rest => exact if_pos rfl

/-- **What is written is read back.** -/
theorem decode_encode (text : List α) : q.decode (q.encode text) = some text := by
  induction text with
  | nil => rfl
  | cons a text ih =>
      rw [encode, List.flatMap_cons, encodeOne]
      cases h : q.letter a with
      | none =>
          obtain ⟨hquote, hescape⟩ := ne_of_letter_eq_none h
          show q.decode (a :: q.encode text) = _
          rw [decode_plain hquote hescape, ih, Option.map_some]
      | some l =>
          show q.decode (q.escape :: l :: q.encode text) = _
          rw [decode, if_pos rfl, q.unletter_letter h, ih]
          rfl

/-- **A reader stops at the last quote**, with the text. -/
theorem scan_encode (text rest : List α) :
    q.scan (q.encode text ++ q.quote :: rest) = some (text, rest) := by
  induction text with
  | nil => exact scan_quote rest
  | cons a text ih =>
      rw [encode, List.flatMap_cons, encodeOne]
      cases h : q.letter a with
      | none =>
          obtain ⟨hquote, hescape⟩ := ne_of_letter_eq_none h
          show q.scan (a :: (q.encode text ++ q.quote :: rest)) = _
          rw [scan_plain hquote hescape, ih, Option.map_some]
      | some l =>
          show q.scan (q.escape :: l :: (q.encode text ++ q.quote :: rest)) = _
          rw [scan, if_neg q.escape_ne_quote, if_pos rfl, q.unletter_letter h, ih]
          rfl

end Quoting

end DpdkSpi.Lib
