import MiniScheme.Proofs.ReadingData

/-! # Reading the text of a datum

The text of a datum holds one form, which denotes the datum again: a chain of pairs may end in anything, a
dot included, and strings may hold brackets, quotes and line ends. Only the reader's limits on the length of a
text and on nested brackets can refuse the text. -/

namespace MiniScheme

namespace Value

/-- Whether a value is a datum that a text can hold: its numbers are finite, its symbols are words that are
neither truth values nor numerals, no pair starts with the symbol that consists of a dot, and it holds
neither operators nor procedures. -/
def Readable : Value → Prop
  | .number value => IsFinite value
  | .bool _ | .string _ | .nil => True
  | .symbol name => IsWord name ∧ name ≠ "#t" ∧ name ≠ "#f" ∧ numberOfWord? name = none
  | .cons car cdr => car ≠ .symbol "." ∧ car.Readable ∧ cdr.Readable
  | .prim _ | .closure _ _ => False

/-- A word that is neither a truth value nor a numeral denotes the symbol that is written like it. -/
theorem ofWord_eq_symbol {name : String} (notTrue : name ≠ "#t") (notFalse : name ≠ "#f")
    (noNumeral : numberOfWord? name = none) : ofWord name = .symbol name := by
  rw [ofWord, if_neg notTrue, if_neg notFalse, noNumeral]

/-- Readable data are legible. -/
theorem Readable.legible {value : Value} (readable : value.Readable) : value.Legible := by
  induction value with
  | number value => exact .number value
  | bool value => exact .bool value
  | string value => exact .string value
  | symbol name =>
      obtain ⟨isWord, notTrue, notFalse, noNumeral⟩ := readable
      exact .symbol isWord (ofWord_eq_symbol notTrue notFalse noNumeral)
  | nil => exact .nil
  | cons car cdr ihCar ihCdr =>
      obtain ⟨noDot, first, second⟩ := readable
      exact .cons noDot (ihCar first) (ihCdr second)
  | prim | closure => exact readable.elim

/-- The numbers of readable data are finite. -/
theorem Readable.finite {value : Value} (readable : value.Readable) :
    ∀ number ∈ value.numbers, IsFinite number := by
  induction value with
  | number value => exact List.forall_mem_singleton.2 readable
  | cons car cdr ihCar ihCdr => exact List.forall_mem_append.2 ⟨ihCar readable.2.1, ihCdr readable.2.2⟩
  | bool | string | symbol | nil | prim | closure => exact List.forall_mem_nil _

/-- The text of legible data is parsed unless it is too long or brackets are nested too deep in it. -/
theorem parse_text {value : Value} (legible : value.Legible)
    (readsBack : ∀ number ∈ value.numbers, ReadsBack number) :
    Value.parse value.text =
      if maxSourceLength < value.text.utf8ByteSize then
        .error (.unreadable (.tooLong value.text.utf8ByteSize))
      else if Written.sourceNesting value.text ≤ maxNesting then .ok value.reread
      else .error (.unreadable .tooDeep) := by
  rcases Nat.lt_or_ge maxSourceLength value.text.utf8ByteSize with exceeds | short
  · rw [if_pos exceeds, parse_of_gt exceeds]
  rw [if_neg (Nat.not_lt_of_le short)]
  have scannable := List.forall_mem_singleton.2 (legible.scannable readsBack).1
  have line : value.text = Written.lines [value.written] := by
    rw [Written.lines, List.map_singleton, String.intercalate_singleton, value.text_written.1]
  rw [line] at short ⊢
  rw [Written.sourceNesting_lines scannable, parse, SExpr.parse, Written.ofText_lines scannable short]
  -- The reader fails in one way only; what it reads is one tree that denotes the datum.
  by_cases fits : Written.nestingAll [value.written] ≤ maxNesting
  · rw [if_pos fits, if_pos fits]
    exact congrArg (Except.mapError ParseError.misshapen) (legible.ofSExpr_written readsBack).1
  · rw [if_neg fits, if_neg fits]
    rfl

/-- Readable data are parsed from their text as they are, unless this text is longer or nests brackets deeper than
the reader allows. What is assumed is that the text of a finite number in the datum denotes this number. -/
theorem parse_text_of_readable {value : Value} (readable : value.Readable)
    (readsBack : ∀ number ∈ value.numbers, ReadsBack number) :
    Value.parse value.text =
      if maxSourceLength < value.text.utf8ByteSize then
        .error (.unreadable (.tooLong value.text.utf8ByteSize))
      else if Written.sourceNesting value.text ≤ maxNesting then .ok value
      else .error (.unreadable .tooDeep) := by
  rw [parse_text readable.legible readsBack, reread_eq_self readsBack readable.finite]

/-- A chain that starts with the word for quotations, holds a string with a bracket and a quote, and ends in a
dot is read back. -/
theorem parse_text_of_readable_dotted :
    Readable (.cons (.symbol "quote") (.cons (.string "(\"") (.cons (.number (-2.5)) (.symbol ".")))) ∧
      ReadsBack (-2.5) ∧
      text (.cons (.symbol "quote") (.cons (.string "(\"") (.cons (.number (-2.5)) (.symbol ".")))) =
        "(quote \"(\\\"\" -2.5 . .)" ∧
      Value.parse "(quote \"(\\\"\" -2.5 . .)" =
        .ok (.cons (.symbol "quote") (.cons (.string "(\"") (.cons (.number (-2.5)) (.symbol ".")))) := by
  have readable :
      Readable (.cons (.symbol "quote") (.cons (.string "(\"") (.cons (.number (-2.5)) (.symbol ".")))) := by
    refine ⟨by simp, ⟨by decide, by decide, by decide, rfl⟩, nofun, trivial, nofun, ?_, ?_⟩
    · show IsFinite (-2.5)
      decide +kernel
    · exact ⟨by decide, by decide, by decide, rfl⟩
  have readsBack : ReadsBack (-2.5) := fun _ => by decide +kernel
  have shown :
      text (.cons (.symbol "quote") (.cons (.string "(\"") (.cons (.number (-2.5)) (.symbol ".")))) =
        "(quote \"(\\\"\" -2.5 . .)" := by
    decide +kernel
  have length : String.utf8ByteSize "(quote \"(\\\"\" -2.5 . .)" = 22 := by
    decide +kernel
  have nesting : Written.sourceNesting "(quote \"(\\\"\" -2.5 . .)" = 1 := by
    decide +kernel
  have parsed := parse_text_of_readable readable (List.forall_mem_singleton.2 readsBack)
  rw [shown, nesting, length] at parsed
  exact ⟨readable, readsBack, shown, parsed⟩

end Value

end MiniScheme
