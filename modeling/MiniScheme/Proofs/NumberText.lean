import MiniScheme.Decimal.Layout
import MiniScheme.Expr.Forms
import MiniScheme.Proofs.NumeralGrammar

/-! # Numbers in source text

A numeral has no delimiter, so it is read as one word, and it is none of the words with a meaning of
their own. What is written for a number that is not finite is no numeral, and is read as a name. -/

namespace MiniScheme

/-! ## Numerals are words -/

/-- A digit ends no word. -/
theorem isDelimiter_of_isDigit {c : Char} (digit : c.isDigit = true) : isDelimiter c = false := by
  cases delimiter : isDelimiter c with
  | false => rfl
  | true =>
      simp only [isDelimiter, isBlank, Bool.or_eq_true, decide_eq_true_eq] at delimiter
      rcases delimiter with ((((((((rfl | rfl) | rfl) | rfl) | rfl) | rfl) | rfl) | rfl) | rfl) | rfl
      all_goals exact absurd digit (by decide)

namespace Numeral

/-- Every character of a text that is read as a numeral is one that may stand in a numeral. -/
theorem mayHold_of_mem {text : String} {c : Char} (isNumeral : ofString? text ≠ none)
    (member : c ∈ text.toList) : MayHold c :=
  (ofChars?_isSome_iff.1 (Option.isSome_iff_ne_none.2 isNumeral)).mayHold member

/-- A numeral is a word. -/
theorem isWord_of_ofString? {text : String} (isNumeral : ofString? text ≠ none) : IsWord text := by
  refine ⟨fun empty => isNumeral (by rw [ofString?, empty]; rfl), fun c member => ?_⟩
  rcases mayHold_of_mem isNumeral member with digit | other
  · exact isDelimiter_of_isDigit digit
  · simp only [List.mem_cons, List.not_mem_nil, or_false] at other
    rcases other with rfl | rfl | rfl | rfl | rfl
    all_goals decide

end Numeral

/-! ## The text of a number -/

/-- Whether a number is neither infinite nor undefined. -/
def IsFinite (value : Float) : Prop :=
  value.isNaN = false ∧ value.isInf = false

instance (value : Float) : Decidable (IsFinite value) :=
  inferInstanceAs (Decidable (_ ∧ _))

/-- The text of a number in a program. -/
abbrev numberText (value : Float) : String :=
  Decimal.Layout.plain.render value

/-- Whether the text of a number denotes the number, if this is finite. -/
def ReadsBack (value : Float) : Prop :=
  IsFinite value → numberOfWord? (numberText value) = some value

/-- A number that is not finite has a name of its own. -/
theorem numberText_of_not_isFinite {value : Float} (infinite : ¬IsFinite value) :
    numberText value = "NaN" ∨ numberText value = "inf" ∨ numberText value = "-inf" := by
  rw [numberText, Decimal.Layout.render]
  cases undefined : value.isNaN with
  | true => exact .inl (if_pos rfl)
  | false =>
      have unbounded : value.isInf = true := by
        cases bounded : value.isInf with
        | true => rfl
        | false => exact absurd ⟨undefined, bounded⟩ infinite
      simp only [unbounded, if_true, Bool.false_eq_true, if_false]
      split
      · exact .inr (.inr rfl)
      · exact .inr (.inl rfl)

variable {value : Float}

/-- The text of a number that may be read back is a numeral for it or one of three names. -/
theorem ReadsBack.elim (readsBack : ReadsBack value) {motive : String → Prop}
    (numeral : numberOfWord? (numberText value) = some value → motive (numberText value))
    (undefined : motive "NaN") (infinite : motive "inf") (negative : motive "-inf") :
    motive (numberText value) := by
  by_cases finite : IsFinite value
  · exact numeral (readsBack finite)
  · rcases numberText_of_not_isFinite finite with name | name | name
    · rw [name]
      exact undefined
    · rw [name]
      exact infinite
    · rw [name]
      exact negative

/-- A numeral differs from every word that is none. -/
theorem ne_of_numeral {word other : String} (numeral : numberOfWord? word = some value)
    (noNumeral : numberOfWord? other = none) : word ≠ other := by
  rintro rfl
  rw [noNumeral] at numeral
  cases numeral

/-- The text of a number is a word. -/
theorem ReadsBack.isWord (readsBack : ReadsBack value) : IsWord (numberText value) := by
  refine readsBack.elim (fun numeral => ?_) (by decide) (by decide) (by decide)
  refine Numeral.isWord_of_ofString? fun none => ?_
  rw [numberOfWord?, none] at numeral
  cases numeral

/-- The text of a number is no word that is no numeral, except for three names. -/
theorem ReadsBack.numberText_ne (readsBack : ReadsBack value) {word : String}
    (noNumeral : numberOfWord? word = none) (noName : word ∉ ["NaN", "inf", "-inf"]) :
    numberText value ≠ word := by
  simp only [List.mem_cons, List.not_mem_nil, or_false, not_or] at noName
  obtain ⟨notUndefined, notInfinite, notNegative⟩ := noName
  exact @elim _ readsBack (· ≠ word) (fun numeral => ne_of_numeral numeral noNumeral)
    (Ne.symm notUndefined) (Ne.symm notInfinite) (Ne.symm notNegative)

/-- The text of a number is no word for a special form. -/
theorem ReadsBack.ofWord?_eq_none (readsBack : ReadsBack value) :
    SpecialForm.ofWord? (numberText value) = none := by
  have ne {word : String} (noNumeral : numberOfWord? word = none)
      (noName : word ∉ ["NaN", "inf", "-inf"]) : numberText value ≠ word :=
    readsBack.numberText_ne noNumeral noName
  rw [SpecialForm.ofWord?, if_neg (ne rfl (by decide)), if_neg (ne rfl (by decide)),
    if_neg (ne rfl (by decide)), if_neg (ne rfl (by decide)), if_neg (ne rfl (by decide))]

/-- No word with an underscore is a numeral. -/
theorem numberOfWord?_eq_none_of_underscore {word : String} (member : '_' ∈ word.toList) :
    numberOfWord? word = none := by
  have noNumeral : Numeral.ofString? word = none := by
    by_contra isNumeral
    exact absurd (Numeral.mayHold_of_mem isNumeral member) (by simp [Numeral.MayHold])
  rw [numberOfWord?, noNumeral]
  rfl

/-- As data a numeral denotes its number. -/
theorem Value.ofWord_of_numeral {word : String} (numeral : numberOfWord? word = some value) :
    Value.ofWord word = .number value := by
  rw [ofWord, if_neg (ne_of_numeral numeral rfl), if_neg (ne_of_numeral numeral rfl), numeral]

/-- As an expression a numeral denotes its number. -/
theorem Expr.ofWord_of_numeral {word : String} (numeral : numberOfWord? word = some value) :
    Expr.ofWord word = .num value := by
  rw [ofWord, if_neg (ne_of_numeral numeral rfl), if_neg (ne_of_numeral numeral rfl), numeral]

/-- As data the text of a number denotes the number or the symbol that is written like it. -/
theorem ReadsBack.value_ofWord (readsBack : ReadsBack value) :
    Value.ofWord (numberText value) = .number value ∨
      Value.ofWord (numberText value) = .symbol (numberText value) :=
  @elim _ readsBack (fun text => Value.ofWord text = .number value ∨ Value.ofWord text = .symbol text)
    (fun numeral => .inl (Value.ofWord_of_numeral numeral)) (.inr rfl) (.inr rfl) (.inr rfl)

/-- As an expression the text of a number denotes the number or the variable that is written like it. -/
theorem ReadsBack.expr_ofWord (readsBack : ReadsBack value) :
    Expr.ofWord (numberText value) = .num value ∨
      Expr.ofWord (numberText value) = .var (numberText value) :=
  @elim _ readsBack (fun text => Expr.ofWord text = .num value ∨ Expr.ofWord text = .var text)
    (fun numeral => .inl (Expr.ofWord_of_numeral numeral)) (.inr rfl) (.inr rfl) (.inr rfl)

end MiniScheme
