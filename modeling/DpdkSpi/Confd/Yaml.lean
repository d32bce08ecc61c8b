import DpdkSpi.Lib.Quote

/-!
# Strings in the generated configuration

`yaml_string`, after `fastapi_confd.c`: a value of the configuration database is written as a
quoted YAML string, to a file or in calls that write to one (`Writer`).  What is written can be
read back whatever the value is, and a reader of the file leaves the string where the value ends
(`yamlString_spec`).
-/

namespace DpdkSpi

open Lib (Quoting)

variable {φ : Type}

/-! ## Writing -/

/-- The functions of `stdio` that write to a file: whether they succeed, and the file behind
them. -/
structure Stdio (φ : Type) where
  fputc : BitVec 8 → φ → Bool × φ
  fputs : List (BitVec 8) → φ → Bool × φ

/-- Every write succeeds, and appends to what the file contains. -/
structure Stdio.Succeeds (io : Stdio φ) (contents : φ → List (BitVec 8)) : Prop where
  fputc : ∀ c out, (io.fputc c out).1 = true ∧ contents (io.fputc c out).2 = contents out ++ [c]
  fputs : ∀ s out, (io.fputs s out).1 = true ∧ contents (io.fputs s out).2 = contents out ++ s

/-- The double quote. -/
def kQuote : BitVec 8 := 0x22

/-- The backslash. -/
def kBackslash : BitVec 8 := 0x5C

/-- The newline. -/
def kNewline : BitVec 8 := 0x0A

/-- The carriage return. -/
def kCarriageReturn : BitVec 8 := 0x0D

/-- The tab. -/
def kTab : BitVec 8 := 0x09

/-- The letters behind a backslash. -/
def kLetterN : BitVec 8 := 0x6E

@[inherit_doc kLetterN] def kLetterR : BitVec 8 := 0x72

@[inherit_doc kLetterN] def kLetterT : BitVec 8 := 0x74

/-- Ways to write to a file, of which each succeeds or fails, and how one follows another. -/
structure Writer (P : Type) where
  /-- Nothing is written, with success. -/
  succeed : P
  fail : P
  fputc : BitVec 8 → P
  fputs : List (BitVec 8) → P
  /-- The second one, if the first one succeeds. -/
  andThen : P → P → P

namespace Writer

variable {P : Type}

/-- The switch of `yaml_string`, on one byte. -/
def yamlByte (W : Writer P) (c : BitVec 8) : P :=
  if c = kBackslash then W.fputs [kBackslash, kBackslash]
  else if c = kQuote then W.fputs [kBackslash, kQuote]
  else if c = kNewline then W.fputs [kBackslash, kLetterN]
  else if c = kCarriageReturn then W.fputs [kBackslash, kLetterR]
  else if c = kTab then W.fputs [kBackslash, kLetterT]
  else if c < 0x20 then W.fail
  else W.fputc c

/-- The loop of `yaml_string`, up to the NUL behind the value. -/
def yamlBytes (W : Writer P) : List (BitVec 8) → P
  | [] => W.succeed
  | c :: value => if c = 0 then W.succeed else W.andThen (W.yamlByte c) (yamlBytes W value)

/-- `yaml_string`. -/
def yamlString (W : Writer P) (value : List (BitVec 8)) : P :=
  W.andThen (W.fputc kQuote) (W.andThen (W.yamlBytes value) (W.fputc kQuote))

end Writer

/-- The functions of `stdio`, one behind another. -/
def Stdio.writer (io : Stdio φ) : Writer (φ → Bool × φ) where
  succeed out := (true, out)
  fail out := (false, out)
  fputc := io.fputc
  fputs := io.fputs
  andThen p q out :=
    match p out with
    | (false, out) => (false, out)
    | (true, out) => q out

/-- `yaml_string` on a file: whether it returns 0, and the file behind it. -/
def yamlString (io : Stdio φ) (out : φ) (value : List (BitVec 8)) : Bool × φ :=
  io.writer.yamlString value out

/-! ## Reading -/

/-- The letter that stands for a byte. -/
def yamlLetter (c : BitVec 8) : Option (BitVec 8) :=
  if c = kBackslash then some kBackslash
  else if c = kQuote then some kQuote
  else if c = kNewline then some kLetterN
  else if c = kCarriageReturn then some kLetterR
  else if c = kTab then some kLetterT
  else none

/-- The byte that a letter stands for. -/
def yamlUnletter (l : BitVec 8) : Option (BitVec 8) :=
  if l = kBackslash then some kBackslash
  else if l = kQuote then some kQuote
  else if l = kLetterN then some kNewline
  else if l = kLetterR then some kCarriageReturn
  else if l = kLetterT then some kTab
  else none

/-- Double-quoted YAML, as far as it is used. -/
def yamlQuoting : Quoting (BitVec 8) where
  quote := kQuote
  escape := kBackslash
  escape_ne_quote := by decide
  letter := yamlLetter
  unletter := yamlUnletter
  unletter_letter := by
    intro a l h
    unfold yamlLetter at h
    split_ifs at h <;> subst_vars <;> obtain rfl := Option.some.inj h <;> rfl
  letter_quote := by decide
  letter_escape := by decide

/-- A byte that ends a line or separates words. -/
def isBreak (c : BitVec 8) : Prop := c = kNewline ∨ c = kCarriageReturn ∨ c = kTab

/-- A control byte that has no escape. -/
def Unwritable (c : BitVec 8) : Prop := c < 0x20 ∧ ¬ isBreak c

/-- A break has a letter, and is no letter of an escape. -/
theorem letters_of_isBreak {c : BitVec 8} (h : isBreak c) :
    yamlLetter c ≠ none ∧ yamlUnletter c = none ∧ c ≠ kBackslash := by
  rcases h with rfl | rfl | rfl
  · decide
  · decide
  · decide

/-- No line break and no tab is written. -/
theorem not_isBreak_of_mem_encode {value : List (BitVec 8)} {c : BitVec 8}
    (h : c ∈ yamlQuoting.encode value) : ¬ isBreak c := by
  obtain ⟨a, -, hc⟩ := List.mem_flatMap.mp h
  intro hbreak
  obtain ⟨hletter, hunletter, hescape⟩ := letters_of_isBreak hbreak
  unfold Quoting.encodeOne at hc
  cases hquoted : yamlQuoting.letter a with
  | none =>
      rw [hquoted] at hc
      obtain rfl := List.mem_singleton.mp hc
      exact hletter hquoted
  | some l =>
      rw [hquoted] at hc
      rcases List.mem_cons.mp hc with rfl | hc
      · exact hescape rfl
      · obtain rfl := List.mem_singleton.mp hc
        exact absurd (hunletter.symm.trans (yamlQuoting.unletter_letter hquoted)) nofun

/-! ## What is written -/

/-- What a writer writes when it succeeds, and when it fails in any case. -/
structure Writer.Lawful {P : Type} (W : Writer P) (Writes : P → List (BitVec 8) → Prop)
    (Fails : P → Prop) : Prop where
  succeed : Writes W.succeed []
  fail : Fails W.fail
  fputc : ∀ c, Writes (W.fputc c) [c]
  fputs : ∀ s, Writes (W.fputs s) s
  andThen : ∀ {p q s t}, Writes p s → Writes q t → Writes (W.andThen p q) (s ++ t)
  fails_left : ∀ {p} q, Fails p → Fails (W.andThen p q)
  fails_right : ∀ {p q s}, Writes p s → Fails q → Fails (W.andThen p q)

namespace Writer.Lawful

variable {P : Type} {W : Writer P} {Writes : P → List (BitVec 8) → Prop} {Fails : P → Prop}

/-- A byte is written as it is quoted, or it is a control byte. -/
theorem yamlByte (hW : W.Lawful Writes Fails) (c : BitVec 8) :
    (Unwritable c ∧ Fails (W.yamlByte c)) ∨
      (¬ Unwritable c ∧ Writes (W.yamlByte c) (yamlQuoting.encodeOne c)) := by
  have hletter : yamlQuoting.letter c = yamlLetter c := rfl
  have hescape : yamlQuoting.escape = kBackslash := rfl
  unfold Writer.yamlByte Quoting.encodeOne
  rw [hletter, hescape, yamlLetter]
  by_cases h₁ : c = kBackslash
  · subst h₁
    exact .inr ⟨fun h ↦ absurd h.1 (by decide), hW.fputs _⟩
  rw [if_neg h₁, if_neg h₁]
  by_cases h₂ : c = kQuote
  · subst h₂
    exact .inr ⟨fun h ↦ absurd h.1 (by decide), hW.fputs _⟩
  rw [if_neg h₂, if_neg h₂]
  by_cases h₃ : c = kNewline
  · rw [if_pos h₃, if_pos h₃]
    exact .inr ⟨fun h ↦ h.2 (.inl h₃), hW.fputs _⟩
  rw [if_neg h₃, if_neg h₃]
  by_cases h₄ : c = kCarriageReturn
  · rw [if_pos h₄, if_pos h₄]
    exact .inr ⟨fun h ↦ h.2 (.inr (.inl h₄)), hW.fputs _⟩
  rw [if_neg h₄, if_neg h₄]
  by_cases h₅ : c = kTab
  · rw [if_pos h₅, if_pos h₅]
    exact .inr ⟨fun h ↦ h.2 (.inr (.inr h₅)), hW.fputs _⟩
  rw [if_neg h₅, if_neg h₅]
  by_cases h₆ : c < 0x20
  · rw [if_pos h₆]
    refine .inl ⟨⟨h₆, ?_⟩, hW.fail⟩
    rintro (h | h | h)
    · exact h₃ h
    · exact h₄ h
    · exact h₅ h
  · rw [if_neg h₆]
    exact .inr ⟨fun h ↦ h₆ h.1, hW.fputc c⟩

/-- The loop writes the value as it is quoted, up to a control byte. -/
theorem yamlBytes (hW : W.Lawful Writes Fails) {value : List (BitVec 8)} (hnul : 0 ∉ value) :
    ((∃ c ∈ value, Unwritable c) ∧ Fails (W.yamlBytes value)) ∨
      ((∀ c ∈ value, ¬ Unwritable c) ∧
        Writes (W.yamlBytes value) (yamlQuoting.encode value)) := by
  induction value with
  | nil => exact .inr ⟨nofun, hW.succeed⟩
  | cons c value ih =>
      obtain ⟨hc, hvalue⟩ := List.ne_and_not_mem_of_not_mem_cons hnul
      rw [Writer.yamlBytes, if_neg (Ne.symm hc)]
      rcases hW.yamlByte c with ⟨hbad, hfails⟩ | ⟨hgood, hbyte⟩
      · exact .inl ⟨⟨c, List.mem_cons_self, hbad⟩, hW.fails_left _ hfails⟩
      · rcases ih hvalue with ⟨⟨d, hd, hbad⟩, hfails⟩ | ⟨hall, hrest⟩
        · exact .inl ⟨⟨d, List.mem_cons_of_mem c hd, hbad⟩, hW.fails_right hbyte hfails⟩
        · exact .inr ⟨List.forall_mem_cons.mpr ⟨hgood, hall⟩, hW.andThen hbyte hrest⟩

/-- A value is written in its quotes, unless it has a control byte. -/
theorem yamlString (hW : W.Lawful Writes Fails) {value : List (BitVec 8)} (hnul : 0 ∉ value) :
    ((∃ c ∈ value, Unwritable c) ∧ Fails (W.yamlString value)) ∨
      ((∀ c ∈ value, ¬ Unwritable c) ∧
        Writes (W.yamlString value) (kQuote :: yamlQuoting.encode value ++ [kQuote])) := by
  have hquote := hW.fputc kQuote
  rcases hW.yamlBytes hnul with ⟨hbad, hfails⟩ | ⟨hgood, hbody⟩
  · exact .inl ⟨hbad, hW.fails_right hquote (hW.fails_left _ hfails)⟩
  · have hwrites : Writes (W.yamlString value)
        ([kQuote] ++ (yamlQuoting.encode value ++ [kQuote])) :=
      hW.andThen hquote (hW.andThen hbody hquote)
    exact .inr ⟨hgood, hwrites⟩

end Writer.Lawful

/-- On a file whose writes succeed, what is written is appended. -/
theorem Stdio.Succeeds.lawful {io : Stdio φ} {contents : φ → List (BitVec 8)}
    (hio : io.Succeeds contents) :
    io.writer.Lawful
      (fun p s ↦ ∀ out, (p out).1 = true ∧ contents (p out).2 = contents out ++ s)
      (fun p ↦ ∀ out, (p out).1 = false) where
  succeed _ := ⟨rfl, (List.append_nil _).symm⟩
  fail _ := rfl
  fputc := hio.fputc
  fputs := hio.fputs
  andThen {p q s t} hp hq out := by
    obtain ⟨hok, hs⟩ := hp out
    show (match p out with | (false, out) => (false, out) | (true, out) => q out).1 = true ∧
      contents (match p out with | (false, out) => (false, out) | (true, out) => q out).2 = _
    generalize p out = written at hok hs ⊢
    obtain ⟨ok, out'⟩ := written
    obtain rfl : ok = true := hok
    obtain ⟨hok', ht⟩ := hq out'
    exact ⟨hok', by rw [ht, hs, List.append_assoc]⟩
  fails_left {p} q hp out := by
    have hfails := hp out
    show (match p out with | (false, out) => (false, out) | (true, out) => q out).1 = false
    generalize p out = written at hfails ⊢
    obtain ⟨ok, out'⟩ := written
    obtain rfl : ok = false := hfails
    rfl
  fails_right {p q s} hp hq out := by
    obtain ⟨hok, -⟩ := hp out
    show (match p out with | (false, out) => (false, out) | (true, out) => q out).1 = false
    generalize p out = written at hok ⊢
    obtain ⟨ok, out'⟩ := written
    obtain rfl : ok = true := hok
    exact hq out'

/-- **A value cannot leave its quotes.**  When `yaml_string` succeeds, what it has written is a
quoted string whose body has no quote that is not escaped, no line break or tab and no escape
without a letter, which stands for the value, and behind which a reader is at the end of what was
written.  It fails just for the values with a control byte that has no escape. -/
theorem yamlString_spec {io : Stdio φ} {contents : φ → List (BitVec 8)}
    (hio : io.Succeeds contents) (out : φ) {value : List (BitVec 8)} (hnul : 0 ∉ value) :
    ((yamlString io out value).1 = true → ∃ body,
      contents (yamlString io out value).2 = contents out ++ (kQuote :: body ++ [kQuote]) ∧
        yamlQuoting.Escaped body ∧ (∀ c ∈ body, ¬ isBreak c) ∧
        yamlQuoting.decode body = some value ∧
        ∀ rest, yamlQuoting.scan (body ++ kQuote :: rest) = some (value, rest)) ∧
      ((yamlString io out value).1 = false ↔ ∃ c ∈ value, Unwritable c) := by
  rcases hio.lawful.yamlString hnul with ⟨hbad, hfails⟩ | ⟨hgood, hwrites⟩
  · refine ⟨fun hok ↦ ?_, iff_of_true (hfails out) hbad⟩
    exact absurd ((hfails out).symm.trans hok) nofun
  · obtain ⟨hok, hcontents⟩ := hwrites out
    refine ⟨fun _ ↦ ⟨yamlQuoting.encode value, hcontents, Quoting.escaped_encode value,
      fun c ↦ not_isBreak_of_mem_encode, Quoting.decode_encode value,
      Quoting.scan_encode value⟩, iff_of_false (fun hfails ↦ ?_) ?_⟩
    · exact absurd (hok.symm.trans hfails) nofun
    · rintro ⟨c, hc, hbad⟩
      exact hgood c hc hbad

/-- A file that is its bytes. -/
def memoryStdio : Stdio (List (BitVec 8)) where
  fputc c out := (true, out ++ [c])
  fputs s out := (true, out ++ s)

/-- The value of a quote and a backslash at its end. -/
theorem yamlString_spec_backslash : ∃ body,
    (yamlString memoryStdio [] [kQuote, kBackslash]).2 = kQuote :: body ++ [kQuote] ∧
      yamlQuoting.decode body = some [kQuote, kBackslash] ∧
      ∀ rest, yamlQuoting.scan (body ++ kQuote :: rest) = some ([kQuote, kBackslash], rest) := by
  have hio : memoryStdio.Succeeds id := ⟨fun _ _ ↦ ⟨rfl, rfl⟩, fun _ _ ↦ ⟨rfl, rfl⟩⟩
  obtain ⟨body, hcontents, -, -, hdecode, hscan⟩ :=
    (yamlString_spec hio [] (by decide : 0 ∉ [kQuote, kBackslash])).1 rfl
  exact ⟨body, hcontents, hdecode, hscan⟩

end DpdkSpi
