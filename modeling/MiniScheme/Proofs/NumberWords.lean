import MiniScheme.Proofs.NumberText

/-! # Words that are numbers

A word is a number exactly when it is a numeral. A parser of floats that takes spellings of infinity and of an
undefined number as well comes to the same behind a test whether there is a digit behind an optional sign and
an optional point. So what is written for a finite number is a number, and what is written for any other is
not; neither is a keyword of a primitive operator, nor a name with a number behind two underscores. -/

namespace MiniScheme

/-! ## A parser of floats behind a test -/

namespace Numeral

/-- Drops a point that comes first. -/
def stripPoint : List Char → List Char
  | '.' :: rest => rest
  | rest => rest

/-- Whether a digit comes first, behind an optional sign and an optional point. -/
def beginsNumber (text : List Char) : Bool :=
  (stripPoint (splitSign text).2).head?.any Char.isDigit

/-- A parser of floats that is used for texts with a digit at the beginning only. -/
def guarded (parse : String → Option Float) (text : String) : Option Float :=
  if beginsNumber text.toList then parse text else none

/-- Whether characters spell infinity or an undefined number: an optional sign and one of three names, in
letters of either case. -/
def NamesNonFinite (text : List Char) : Prop :=
  ∃ sign name, text = sign ++ name ∧ IsSign sign ∧
    name.map Char.toLower ∈ ["inf".toList, "infinity".toList, "nan".toList]

/-- Whether a parser of floats accepts the numerals, the spellings of infinity and of an undefined number and
nothing else. -/
def AcceptsFloats (parse : String → Option Float) : Prop :=
  ∀ text, (parse text).isSome ↔ IsNumeral text.toList ∨ NamesNonFinite text.toList

variable {text digits name rest : List Char} {c : Char}

/-- Only a point is dropped. -/
theorem stripPoint_cons (noPoint : c ≠ '.') (rest : List Char) : stripPoint (c :: rest) = c :: rest := by
  unfold stripPoint
  split
  · rename_i point
    exact absurd (List.cons.inj point).1 noPoint
  · rfl

/-- A numeral passes the test. -/
theorem IsNumeral.begins (isNumeral : IsNumeral text) : beginsNumber text = true := by
  obtain ⟨isSign, isMantissa, isExponent⟩ := isNumeral
  have digitFirst {digits : List Char} (isDigits : IsDigits digits) (rest : List Char) :
      (stripPoint (digits ++ rest)).head?.any Char.isDigit = true := by
    obtain ⟨d, others, rfl, digit⟩ := isDigits.exists_cons
    rw [List.cons_append, stripPoint_cons (by rintro rfl; cases digit)]
    exact digit
  rw [beginsNumber, splitSign_append isSign (isMantissa.no_sign _)]
  cases isMantissa with
  | whole isWhole => exact digitFirst isWhole _
  | point isWhole _ =>
      rw [List.append_assoc]
      exact digitFirst isWhole _
  | fraction isFraction =>
      obtain ⟨d, others, rfl, digit⟩ := isFraction.exists_cons
      exact digit

/-- A name for a number that is not finite begins with a letter. -/
theorem exists_letter (isName : name.map Char.toLower ∈ ["inf".toList, "infinity".toList, "nan".toList]) :
    ∃ c others, name = c :: others ∧ (c.toLower = 'i' ∨ c.toLower = 'n') := by
  simp only [List.mem_cons, List.not_mem_nil, or_false] at isName
  rcases isName with inf | infinity | nan
  · obtain ⟨c, others, rfl, letter, -⟩ := List.map_eq_cons_iff.1 inf
    exact ⟨c, others, rfl, .inl letter⟩
  · obtain ⟨c, others, rfl, letter, -⟩ := List.map_eq_cons_iff.1 infinity
    exact ⟨c, others, rfl, .inl letter⟩
  · obtain ⟨c, others, rfl, letter, -⟩ := List.map_eq_cons_iff.1 nan
    exact ⟨c, others, rfl, .inr letter⟩

/-- A name for a number that is not finite begins with no sign. -/
theorem no_sign_of_name (isName : name.map Char.toLower ∈ ["inf".toList, "infinity".toList, "nan".toList]) :
    ∀ c ∈ name.head?, c ≠ '+' ∧ c ≠ '-' := by
  obtain ⟨c, others, rfl, letter⟩ := exists_letter isName
  intro d first
  obtain rfl := Option.some.inj first
  constructor
  · rintro rfl
    exact absurd letter (by decide)
  · rintro rfl
    exact absurd letter (by decide)

/-- A digit is no letter. -/
theorem toLower_of_isDigit (digit : c.isDigit = true) : c.toLower = c := by
  simp only [Char.isDigit, Bool.and_eq_true, decide_eq_true_eq] at digit
  refine dif_neg ?_
  rintro ⟨upper, -⟩
  exact absurd (UInt32.le_trans upper digit.2) (by decide)

/-- A spelling of infinity or of an undefined number fails the test. -/
theorem NamesNonFinite.begins (names : NamesNonFinite text) : beginsNumber text = false := by
  obtain ⟨sign, name, rfl, isSign, isName⟩ := names
  rw [beginsNumber, splitSign_append isSign (no_sign_of_name isName)]
  obtain ⟨c, others, rfl, letter⟩ := exists_letter isName
  have noPoint : c ≠ '.' := by
    rintro rfl
    exact absurd letter (by decide)
  have noDigit : c.isDigit ≠ true := by
    intro digit
    rw [toLower_of_isDigit digit] at letter
    rcases letter with rfl | rfl
    · cases digit
    · cases digit
  rw [stripPoint_cons noPoint]
  exact Bool.eq_false_iff.2 noDigit

/-- Behind the test, a parser of floats accepts just the numerals. -/
theorem AcceptsFloats.guarded_isSome_iff {parse : String → Option Float} (accepts : AcceptsFloats parse)
    (text : String) : (guarded parse text).isSome ↔ IsNumeral text.toList := by
  rw [guarded]
  cases passes : beginsNumber text.toList with
  | true =>
      rw [if_pos rfl, accepts text]
      refine or_iff_left fun names => ?_
      rw [names.begins] at passes
      cases passes
  | false =>
      refine iff_of_false Bool.false_ne_true fun isNumeral => ?_
      rw [isNumeral.begins] at passes
      cases passes

end Numeral

/-! ## Numbers that are written -/

namespace Decimal

open Numeral

/-- The digits of a natural number. -/
theorem isDigits_digitText (value : Nat) : IsDigits (digitText value).toList := by
  have digits : (digitText value).toList = Nat.toDigits 10 value := Nat.toList_repr
  rw [digits]
  exact ⟨Nat.toDigits_ne_nil, fun c member => Nat.isDigit_of_mem_toDigits (by decide) (by decide) member⟩

/-- Zeros are digits. -/
theorem isDigit_of_mem_zeros {count : Nat} {c : Char} (member : c ∈ (zeros count).toList) :
    c.isDigit = true := by
  rw [zeros, String.toList_ofList] at member
  rw [List.eq_of_mem_replicate member]
  rfl

/-- A decimal without an exponent is written as a mantissa. -/
theorem isMantissa_positional (decimal : Decimal) :
    IsMantissa (positional Layout.plain decimal).toList := by
  have isDigits := isDigits_digitText decimal.digits
  generalize text : (digitText decimal.digits).toList = digits at isDigits
  rw [positional]
  simp only [text]
  split
  · -- An integral value: zeros behind the digits.
    simp only [Layout.plain, Bool.false_eq_true, if_false, String.append_empty, String.toList_append,
      String.toList_ofList]
    refine .whole ⟨List.append_ne_nil_of_left_ne_nil isDigits.1 _, fun c member => ?_⟩
    rcases List.mem_append.1 member with inDigits | inZeros
    · exact isDigits.2 c inDigits
    · exact isDigit_of_mem_zeros inZeros
  split
  · -- A point among the digits.
    rename_i inside
    simp only [String.toList_append, String.toList_ofList]
    rw [List.append_assoc]
    refine .point ⟨?_, fun c member => isDigits.2 c (List.mem_of_mem_take member)⟩
      fun c member => isDigits.2 c (List.mem_of_mem_drop member)
    obtain ⟨d, others, rfl, -⟩ := isDigits.exists_cons
    obtain ⟨places, positive⟩ := Nat.exists_eq_succ_of_ne_zero (Nat.ne_of_gt (Int.lt_toNat.2 inside))
    rw [positive]
    exact List.cons_ne_nil _ _
  · -- Zeros between the point and the digits.
    simp only [String.toList_append, String.toList_ofList]
    have zero : IsDigits ['0'] := ⟨List.cons_ne_nil _ _, by simp⟩
    rw [List.append_assoc]
    refine @IsMantissa.point ['0'] ((zeros _).toList ++ digits) zero fun c member => ?_
    rcases List.mem_append.1 member with inZeros | inDigits
    · exact isDigit_of_mem_zeros inZeros
    · exact isDigits.2 c inDigits

/-- The magnitude of a finite number is written as a mantissa. -/
theorem isMantissa_magnitude (number : Dyadic) : IsMantissa (Layout.plain.magnitude number).toList := by
  rw [Layout.magnitude]
  split
  · exact .whole (isDigits_digitText 0)
  · exact isMantissa_positional _

end Decimal

open Numeral

/-- The text of a finite number is a numeral. -/
theorem isNumeral_numberText {value : Float} (finite : IsFinite value) :
    IsNumeral (numberText value).toList := by
  obtain ⟨defined, bounded⟩ := finite
  have isMantissa := Decimal.isMantissa_magnitude (Dyadic.ofBits value.toBits)
  rw [numberText, Decimal.Layout.render]
  simp only [defined, bounded, Bool.false_eq_true, if_false]
  rw [String.toList_append, ← List.append_nil (Decimal.Layout.magnitude _ _).toList]
  refine .parts ?_ isMantissa .absent
  split
  · exact .inr (.inr rfl)
  · exact .inl rfl

/-! ## Words -/

/-- The words that are numbers are the numerals. -/
theorem numberOfWord?_isSome_iff (text : String) : (numberOfWord? text).isSome ↔ IsNumeral text.toList := by
  rw [numberOfWord?, Option.isSome_map, ofString?, ofChars?_isSome_iff]

/-- What is known of the texts that are numbers: they are the numerals, the text of a number is one just if the
number is finite, and neither a keyword nor a name with a number behind two underscores is one. -/
structure NumberTexts (IsNumber : String → Prop) : Prop where
  /-- The numerals are numbers, and nothing else is. -/
  grammar : ∀ text, IsNumber text ↔ IsNumeral text.toList
  /-- Of the texts of numbers, those of finite ones are numbers. -/
  printed : ∀ value, IsNumber (numberText value) ↔ IsFinite value
  /-- No keyword of a primitive operator is a number. -/
  keyword : ∀ op : Primitive, ¬ IsNumber op.keyword
  /-- No name with a number, or anything else, behind two underscores is a number. -/
  numbered : ∀ base number : String, ¬ IsNumber (base ++ "__" ++ number)

/-- All of it is known once the texts that are numbers are the numerals. -/
theorem NumberTexts.of_grammar {IsNumber : String → Prop}
    (grammar : ∀ text, IsNumber text ↔ IsNumeral text.toList) : NumberTexts IsNumber := by
  have not_of_eq_none {text : String} (noNumber : numberOfWord? text = none) : ¬ IsNumber text := by
    rw [grammar, ← numberOfWord?_isSome_iff, noNumber]
    exact Bool.false_ne_true
  refine ⟨grammar, fun value => ⟨fun isNumber => ?_, fun finite => ?_⟩, fun op => ?_, fun base number => ?_⟩
  · by_contra infinite
    revert isNumber
    rcases numberText_of_not_isFinite infinite with name | name | name
    all_goals
      rw [name]
      exact not_of_eq_none rfl
  · exact (grammar _).2 (isNumeral_numberText finite)
  · refine not_of_eq_none ?_
    cases op <;> rfl
  · refine not_of_eq_none (numberOfWord?_eq_none_of_underscore ?_)
    rw [String.toList_append, String.toList_append]
    exact List.mem_append_left _ (List.mem_append_right _ (List.mem_cons_self))

/-- As data, the numerals are numbers. -/
theorem Value.exists_ofWord_eq_number_iff (text : String) :
    (∃ value, ofWord text = .number value) ↔ IsNumeral text.toList := by
  rw [← numberOfWord?_isSome_iff, Option.isSome_iff_exists]
  constructor
  · rintro ⟨value, isNumber⟩
    unfold ofWord at isNumber
    split at isNumber
    · cases isNumber
    split at isNumber
    · cases isNumber
    split at isNumber
    · rename_i number found
      exact ⟨number, found⟩
    · cases isNumber
  · rintro ⟨value, numeral⟩
    exact ⟨value, ofWord_of_numeral numeral⟩

/-- As expressions, the numerals are numbers. -/
theorem Expr.exists_ofWord_eq_num_iff (text : String) :
    (∃ value, ofWord text = .num value) ↔ IsNumeral text.toList := by
  rw [← numberOfWord?_isSome_iff, Option.isSome_iff_exists]
  constructor
  · rintro ⟨value, isNumber⟩
    unfold ofWord at isNumber
    split at isNumber
    · cases isNumber
    split at isNumber
    · cases isNumber
    split at isNumber
    · rename_i number found
      exact ⟨number, found⟩
    split at isNumber
    · cases isNumber
    · cases isNumber
  · rintro ⟨value, numeral⟩
    exact ⟨value, ofWord_of_numeral numeral⟩

/-- A word can be declared if it is neither a truth value nor a lone dot nor a numeral. -/
theorem isIdentifier_iff (text : String) :
    isIdentifier text = true ↔ text ≠ "#t" ∧ text ≠ "#f" ∧ text ≠ "." ∧ ¬ IsNumeral text.toList := by
  rw [← numberOfWord?_isSome_iff, Option.not_isSome_iff_eq_none, ← Option.isNone_iff_eq_none]
  simp [isIdentifier, and_assoc]

/-- A parser of floats: of the spellings of infinity and of an undefined number, and of numerals. -/
def floatOfText? (text : String) : Option Float :=
  let name := (splitSign text.toList).2.map Char.toLower
  if name ∈ ["inf".toList, "infinity".toList] then
    some (if (splitSign text.toList).1 then -1 / 0 else 1 / 0)
  else if name = "nan".toList then some (0 / 0)
  else numberOfWord? text

/-- The parser accepts floats and nothing else. -/
theorem acceptsFloats_floatOfText? : AcceptsFloats floatOfText? := by
  intro text
  have names : NamesNonFinite text.toList ↔
      (splitSign text.toList).2.map Char.toLower ∈ ["inf".toList, "infinity".toList, "nan".toList] := by
    constructor
    · rintro ⟨sign, name, whole, isSign, isName⟩
      rwa [whole, splitSign_append isSign (no_sign_of_name isName)]
    · intro isName
      obtain ⟨sign, isSign, whole⟩ := exists_sign text.toList
      exact ⟨sign, _, whole, isSign, isName⟩
  rw [names, ← numberOfWord?_isSome_iff, floatOfText?]
  by_cases infinite : (splitSign text.toList).2.map Char.toLower ∈ ["inf".toList, "infinity".toList]
  · rw [if_pos infinite]
    exact iff_of_true rfl (.inr (List.mem_append_left ["nan".toList] infinite))
  by_cases undefined : (splitSign text.toList).2.map Char.toLower = "nan".toList
  · rw [if_neg infinite, if_pos undefined]
    exact iff_of_true rfl (.inr (by rw [undefined]; decide))
  · rw [if_neg infinite, if_neg undefined]
    refine (or_iff_left fun isName => ?_).symm
    simp only [List.mem_cons, List.not_mem_nil, or_false, not_or] at isName infinite
    rcases isName with inf | infinity | nan
    · exact infinite.1 inf
    · exact infinite.2 infinity
    · exact undefined nan

/-- Whichever parser of floats is used behind the test, the words that are numbers are the numerals, and so are
those that are numbers as expressions and as data. Only these, the truth values and a lone dot cannot be
declared. The text of a number is such a word just if the number is finite, and no keyword or numbered name is
one. -/
theorem numbers_are_numerals {parse : String → Option Float} (accepts : AcceptsFloats parse) :
    NumberTexts (fun text => (guarded parse text).isSome) ∧
      NumberTexts (fun text => (numberOfWord? text).isSome) ∧
      NumberTexts (fun text => ∃ value, Expr.ofWord text = .num value) ∧
      NumberTexts (fun text => ∃ value, Value.ofWord text = .number value) ∧
      ∀ text, isIdentifier text = true ↔
        text ≠ "#t" ∧ text ≠ "#f" ∧ text ≠ "." ∧ ¬ IsNumeral text.toList :=
  ⟨.of_grammar accepts.guarded_isSome_iff, .of_grammar numberOfWord?_isSome_iff,
    .of_grammar Expr.exists_ofWord_eq_num_iff, .of_grammar Value.exists_ofWord_eq_number_iff, isIdentifier_iff⟩

/-- Of a signed infinity and a numeral with a bare point, a parser of floats takes just the latter behind the
test. -/
theorem numbers_are_numerals_floatOfText? :
    AcceptsFloats floatOfText? ∧ (floatOfText? "-Infinity").isSome ∧
      ¬ (guarded floatOfText? "-Infinity").isSome ∧ (guarded floatOfText? "-.5e+1").isSome ∧
        ¬ (guarded floatOfText? "x__2").isSome := by
  have accepts := acceptsFloats_floatOfText?
  obtain ⟨known, -⟩ := numbers_are_numerals accepts
  have noNumeral : ¬ IsNumeral "-Infinity".toList := by
    rw [← ofChars?_isSome_iff]
    decide
  have numeral : IsNumeral "-.5e+1".toList := by
    rw [← ofChars?_isSome_iff]
    decide
  have infinite : NamesNonFinite "-Infinity".toList :=
    ⟨['-'], "Infinity".toList, rfl, .inr (.inr rfl), by decide⟩
  refine ⟨accepts, (accepts _).2 (.inr infinite), ?_, ?_, ?_⟩
  · exact fun isNumber => noNumeral ((known.grammar _).1 isNumber)
  · exact (known.grammar _).2 numeral
  · exact known.numbered "x" "2"

end MiniScheme
