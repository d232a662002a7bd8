import Mathlib.Data.List.Induction
import MiniScheme.Text.StringLiteral

/-! # What a string literal denotes

The characters between the quotes of a string literal denote its content: a backslash and the letter `n`
stand for a newline, a backslash and the letter `t` for a tab, a backslash and any other character for that
character, and every character but a quote and a backslash for itself. The literal that is written for a
string denotes it. Whatever stands behind an opening quote either begins with the characters of a literal and
a closing quote, or leaves the literal open up to its end. -/

namespace MiniScheme

namespace StringLiteral

variable {c : Char} {written content : List Char}

/-- Whether characters between quotes denote a content. -/
inductive Denotes : List Char → List Char → Prop where
  /-- No characters denote the empty content. -/
  | nil : Denotes [] []
  /-- A character other than a quote and a backslash. -/
  | plain {c : Char} {written content : List Char} (notQuote : c ≠ '"') (notBackslash : c ≠ '\\')
      (further : Denotes written content) : Denotes (c :: written) (c :: content)
  /-- A newline. -/
  | newline {written content : List Char} (further : Denotes written content) :
      Denotes ('\\' :: 'n' :: written) ('\n' :: content)
  /-- A tab. -/
  | tab {written content : List Char} (further : Denotes written content) :
      Denotes ('\\' :: 't' :: written) ('\t' :: content)
  /-- Any other character behind a backslash. -/
  | verbatim {c : Char} {written content : List Char} (notNewline : c ≠ 'n') (notTab : c ≠ 't')
      (further : Denotes written content) : Denotes ('\\' :: c :: written) (c :: content)

/-- A backslash in front of any character but two letters stands for that character. -/
theorem unescape_of_ne (notNewline : c ≠ 'n') (notTab : c ≠ 't') : unescape c = c := by
  unfold unescape
  split
  · contradiction
  · contradiction
  · rfl

/-- A backslash in front of any character. -/
theorem Denotes.escaped (c : Char) (further : Denotes written content) :
    Denotes ('\\' :: c :: written) (unescape c :: content) := by
  by_cases newline : c = 'n'
  · subst newline
    exact further.newline
  by_cases tab : c = 't'
  · subst tab
    exact further.tab
  · rw [unescape_of_ne newline tab]
    exact further.verbatim newline tab

/-- Induction with one case for a backslash and the character behind it. -/
@[elab_as_elim]
theorem Denotes.induction_escaped {motive : ∀ written content, Denotes written content → Prop}
    (nil : motive [] [] .nil)
    (plain : ∀ {c written content} (notQuote : c ≠ '"') (notBackslash : c ≠ '\\')
      (further : Denotes written content), motive written content further →
        motive (c :: written) (c :: content) (further.plain notQuote notBackslash))
    (escaped : ∀ {written content} (c) (further : Denotes written content),
      motive written content further →
        motive ('\\' :: c :: written) (unescape c :: content) (further.escaped c))
    {written content : List Char} (denotes : Denotes written content) :
    motive written content denotes := by
  induction denotes with
  | nil => exact nil
  | plain notQuote notBackslash further ih => exact plain notQuote notBackslash further ih
  | newline further ih => exact escaped 'n' further ih
  | tab further ih => exact escaped 't' further ih
  | @verbatim c written content notNewline notTab further ih =>
      have found := escaped c further ih
      simp only [unescape_of_ne notNewline notTab] at found
      exact found

/-- The written form of a character denotes it. -/
theorem Denotes.escape (c : Char) (further : Denotes written content) :
    Denotes (StringLiteral.escape c ++ written) (c :: content) := by
  -- Four characters are written with a backslash, every other one as itself.
  unfold StringLiteral.escape
  split
  · exact further.verbatim (by decide) (by decide)
  · exact further.verbatim (by decide) (by decide)
  · exact further.newline
  · exact further.tab
  · rename_i notQuote notBackslash _ _
    exact further.plain notQuote notBackslash

/-- The written form of a string denotes it. -/
theorem denotes_flatMap_escape (content : List Char) : Denotes (content.flatMap escape) content := by
  induction content with
  | nil => exact .nil
  | cons c content ih => exact ih.escape c

/-- Whether the characters behind a quote begin with those of a literal and a closing quote. -/
def Closes (chars : List Char) : Prop :=
  ∃ written content rest, chars = written ++ '"' :: rest ∧ Denotes written content

/-- Whether the characters behind a quote leave a literal open up to their end: they denote a content, but
for a backslash that may stand behind them. -/
def LeftOpen (chars : List Char) : Prop :=
  ∃ written content, Denotes written content ∧ (chars = written ∨ chars = written ++ ['\\'])

/-- What may stand in front of the characters of a literal changes nothing. -/
theorem closes_or_leftOpen_append {front chars : List Char}
    (further : ∀ {written content}, Denotes written content → ∃ whole, Denotes (front ++ written) whole)
    (known : Closes chars ∨ LeftOpen chars) : Closes (front ++ chars) ∨ LeftOpen (front ++ chars) := by
  rcases known with ⟨written, content, rest, rfl, denotes⟩ | ⟨written, content, denotes, ends⟩
  · obtain ⟨whole, denotesWhole⟩ := further denotes
    exact .inl ⟨front ++ written, whole, rest, (List.append_assoc ..).symm, denotesWhole⟩
  · obtain ⟨whole, denotesWhole⟩ := further denotes
    refine .inr ⟨front ++ written, whole, denotesWhole, ?_⟩
    rcases ends with rfl | rfl
    · exact .inl rfl
    · exact .inr (List.append_assoc ..).symm

/-- Behind a quote the literal is closed, or it is left open. -/
theorem closes_or_leftOpen (chars : List Char) : Closes chars ∨ LeftOpen chars := by
  have empty : LeftOpen [] := ⟨[], [], .nil, .inl rfl⟩
  have quote (rest : List Char) : Closes ('"' :: rest) := ⟨[], [], rest, rfl, .nil⟩
  have plain {c : Char} (notQuote : c ≠ '"') (notBackslash : c ≠ '\\') {rest : List Char}
      (known : Closes rest ∨ LeftOpen rest) : Closes (c :: rest) ∨ LeftOpen (c :: rest) :=
    @closes_or_leftOpen_append [c] rest (fun denotes => ⟨_, denotes.plain notQuote notBackslash⟩) known
  -- A backslash takes the character behind it, if there is one.
  induction chars using List.twoStepInduction with
  | nil => exact .inr empty
  | singleton c =>
      by_cases notQuote : c = '"'
      · exact .inl (notQuote ▸ quote [])
      by_cases notBackslash : c = '\\'
      · exact .inr ⟨[], [], .nil, .inr (by rw [notBackslash, List.nil_append])⟩
      · exact plain notQuote notBackslash (.inr empty)
  | cons_cons c next rest ih ihNext =>
      by_cases notQuote : c = '"'
      · exact .inl (notQuote ▸ quote (next :: rest))
      by_cases notBackslash : c = '\\'
      · subst notBackslash
        exact @closes_or_leftOpen_append ['\\', next] rest
          (fun denotes => ⟨_, denotes.escaped next⟩) ih
      · exact plain notQuote notBackslash (ihNext next)

end StringLiteral

end MiniScheme
