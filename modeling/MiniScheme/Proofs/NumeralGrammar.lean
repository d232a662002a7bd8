import MiniScheme.Decimal.Numeral
import MiniScheme.Proofs.Scanning

/-! # The grammar of numerals

A numeral is an optional sign, then digits with an optional point and optional further digits or a point and at
least one digit, then optionally a letter, an optional sign and at least one digit. The texts that are read as
numerals are these and no others. -/

namespace MiniScheme

namespace Numeral

/-- Whether characters are decimal digits, at least one. -/
def IsDigits (chars : List Char) : Prop :=
  chars ≠ [] ∧ ∀ c ∈ chars, c.isDigit = true

/-- Whether characters are an optional sign. -/
def IsSign (chars : List Char) : Prop :=
  chars = [] ∨ chars = ['+'] ∨ chars = ['-']

/-- Whether characters are digits with an optional point and optional further digits, or a point and digits. -/
inductive IsMantissa : List Char → Prop where
  /-- Digits without a point. -/
  | whole {digits : List Char} (isWhole : IsDigits digits) : IsMantissa digits
  /-- Digits, a point and optional further digits. -/
  | point {digits fraction : List Char} (isWhole : IsDigits digits)
      (isFraction : ∀ c ∈ fraction, c.isDigit = true) : IsMantissa (digits ++ '.' :: fraction)
  /-- A point and digits. -/
  | fraction {digits : List Char} (isFraction : IsDigits digits) : IsMantissa ('.' :: digits)

/-- Whether characters are an optional exponent: a letter, an optional sign and digits. -/
inductive IsExponent : List Char → Prop where
  /-- No exponent. -/
  | absent : IsExponent []
  /-- An exponent. -/
  | power {letter : Char} {sign digits : List Char} (isLetter : letter = 'e' ∨ letter = 'E')
      (isSign : IsSign sign) (isDigits : IsDigits digits) : IsExponent (letter :: (sign ++ digits))

/-- Whether characters are a numeral: an optional sign, a mantissa and an optional exponent. -/
inductive IsNumeral : List Char → Prop where
  /-- The three parts one after the other. -/
  | parts {sign mantissa exponent : List Char} (isSign : IsSign sign) (isMantissa : IsMantissa mantissa)
      (isExponent : IsExponent exponent) : IsNumeral (sign ++ (mantissa ++ exponent))

variable {text sign digits mantissa rest : List Char} {c : Char}

/-! ## Signs -/

/-- Digits begin with a digit. -/
theorem IsDigits.exists_cons (isDigits : IsDigits digits) :
    ∃ d others, digits = d :: others ∧ d.isDigit = true := by
  obtain ⟨d, others, rfl⟩ := List.exists_cons_of_ne_nil isDigits.1
  exact ⟨d, others, rfl, isDigits.2 d List.mem_cons_self⟩

/-- Digits begin with no sign. -/
theorem IsDigits.no_sign (isDigits : IsDigits digits) (rest : List Char) :
    ∀ c ∈ (digits ++ rest).head?, c ≠ '+' ∧ c ≠ '-' := by
  obtain ⟨d, others, rfl, digit⟩ := isDigits.exists_cons
  intro c first
  obtain rfl := Option.some.inj first
  constructor
  · rintro rfl
    cases digit
  · rintro rfl
    cases digit

/-- What is split off is a sign. -/
theorem exists_sign (text : List Char) : ∃ sign, IsSign sign ∧ text = sign ++ (splitSign text).2 := by
  unfold splitSign
  split
  · exact ⟨['+'], .inr (.inl rfl), rfl⟩
  · exact ⟨['-'], .inr (.inr rfl), rfl⟩
  · exact ⟨[], .inl rfl, rfl⟩

/-- A sign is split off from what does not begin with one. -/
theorem splitSign_append (isSign : IsSign sign) (unsigned : ∀ c ∈ rest.head?, c ≠ '+' ∧ c ≠ '-') :
    (splitSign (sign ++ rest)).2 = rest := by
  rcases isSign with rfl | rfl | rfl
  · rw [List.nil_append]
    unfold splitSign
    split
    · exact absurd rfl (unsigned '+' rfl).1
    · exact absurd rfl (unsigned '-' rfl).2
    · rfl
  · rfl
  · rfl

/-! ## Exponents -/

/-- The exponents that are read. -/
theorem exponentOfChars?_isSome_iff : (exponentOfChars? text).isSome ↔ IsExponent text := by
  cases text with
  | nil => exact iff_of_true rfl .absent
  | cons letter rest =>
      have read : (exponentOfChars? (letter :: rest)).isSome ↔
          (letter = 'e' ∨ letter = 'E') ∧ IsDigits (splitSign rest).2 := by
        rw [exponentOfChars?, IsDigits, ← List.all_eq_true]
        exact Option.isSome_ite
      rw [read]
      constructor
      · rintro ⟨isLetter, isDigits⟩
        obtain ⟨sign, isSign, whole⟩ := exists_sign rest
        rw [whole]
        exact .power isLetter isSign isDigits
      · rintro (_ | ⟨isLetter, isSign, isDigits⟩)
        have unsigned := isDigits.no_sign []
        rw [List.append_nil] at unsigned
        rw [splitSign_append isSign unsigned]
        exact ⟨isLetter, isDigits⟩

/-- An exponent begins with a letter. -/
theorem IsExponent.begins (isExponent : IsExponent text) :
    ∀ c ∈ text.head?, c.isDigit = false ∧ c ≠ '.' := by
  cases isExponent with
  | absent => nofun
  | power isLetter _ _ =>
      intro c first
      obtain rfl := Option.some.inj first
      rcases isLetter with rfl | rfl
      · decide
      · decide

/-! ## Mantissas -/

/-- What is split off in front of the exponent is a mantissa. -/
theorem exists_mantissa
    (nonempty : text.takeWhile Char.isDigit ++ (splitFraction (text.dropWhile Char.isDigit)).1 ≠ []) :
    ∃ mantissa, IsMantissa mantissa ∧
      text = mantissa ++ (splitFraction (text.dropWhile Char.isDigit)).2 := by
  have digits (chars : List Char) : ∀ c ∈ chars.takeWhile Char.isDigit, c.isDigit = true :=
    fun c member => List.all_eq_true.1 List.all_takeWhile c member
  have split (chars : List Char) : chars = chars.takeWhile Char.isDigit ++ chars.dropWhile Char.isDigit :=
    List.takeWhile_append_dropWhile.symm
  revert nonempty
  unfold splitFraction
  split
  · rename_i further pointed
    intro nonempty
    by_cases noWhole : text.takeWhile Char.isDigit = []
    · rw [noWhole, List.nil_append] at nonempty
      refine ⟨'.' :: further.takeWhile Char.isDigit, .fraction ⟨nonempty, digits further⟩, ?_⟩
      rw [List.cons_append, ← split further, ← pointed]
      exact (split text).trans (by rw [noWhole, List.nil_append])
    · refine ⟨_, .point ⟨noWhole, digits text⟩ (digits further), ?_⟩
      rw [List.append_assoc, List.cons_append, ← split further, ← pointed]
      exact split text
  · intro nonempty
    rw [List.append_nil] at nonempty
    exact ⟨_, .whole ⟨nonempty, digits text⟩, split text⟩

/-- A mantissa is split off from what follows it. -/
theorem split_mantissa (isMantissa : IsMantissa mantissa)
    (ends : ∀ c ∈ rest.head?, c.isDigit = false ∧ c ≠ '.') :
    (mantissa ++ rest).takeWhile Char.isDigit ++
        (splitFraction ((mantissa ++ rest).dropWhile Char.isDigit)).1 ≠ [] ∧
      (splitFraction ((mantissa ++ rest).dropWhile Char.isDigit)).2 = rest := by
  have stops : ∀ c ∈ rest.head?, c.isDigit = false := fun c first => (ends c first).1
  have pointed {digits fraction : List Char} (inWhole : ∀ c ∈ digits, c.isDigit = true)
      (inFraction : ∀ c ∈ fraction, c.isDigit = true) (nonempty : digits ++ fraction ≠ []) :
      (digits ++ '.' :: (fraction ++ rest)).takeWhile Char.isDigit ++
          (splitFraction ((digits ++ '.' :: (fraction ++ rest)).dropWhile Char.isDigit)).1 ≠ [] ∧
        (splitFraction ((digits ++ '.' :: (fraction ++ rest)).dropWhile Char.isDigit)).2 = rest := by
    have whole := @span_append Char.isDigit digits ('.' :: (fraction ++ rest)) inWhole
      (fun c first => Option.some.inj first ▸ rfl)
    have further := @span_append Char.isDigit fraction rest inFraction stops
    rw [whole.1, whole.2, splitFraction, further.1, further.2]
    exact ⟨nonempty, rfl⟩
  cases isMantissa with
  | whole isWhole =>
      have whole := @span_append Char.isDigit mantissa rest isWhole.2 stops
      have noPoint : splitFraction rest = ([], rest) := by
        unfold splitFraction
        split
        · exact absurd rfl (ends '.' rfl).2
        · rfl
      rw [whole.1, whole.2, noPoint, List.append_nil]
      exact ⟨isWhole.1, rfl⟩
  | point isWhole isFraction =>
      rw [List.append_assoc, List.cons_append]
      exact pointed isWhole.2 isFraction (List.append_ne_nil_of_left_ne_nil isWhole.1 _)
  | fraction isFraction =>
      exact @pointed [] _ (List.forall_mem_nil _) isFraction.2 isFraction.1

/-- A mantissa begins with no sign. -/
theorem IsMantissa.no_sign (isMantissa : IsMantissa mantissa) (rest : List Char) :
    ∀ c ∈ (mantissa ++ rest).head?, c ≠ '+' ∧ c ≠ '-' := by
  cases isMantissa with
  | whole isWhole => exact isWhole.no_sign rest
  | point isWhole _ =>
      rw [List.append_assoc]
      exact isWhole.no_sign _
  | fraction _ =>
      intro c first
      obtain rfl := Option.some.inj first
      decide

/-! ## Numerals -/

/-- The texts that are read as numerals are the numerals. -/
theorem ofChars?_isSome_iff : (ofChars? text).isSome ↔ IsNumeral text := by
  have read : (ofChars? text).isSome ↔
      (splitSign text).2.takeWhile Char.isDigit ++
          (splitFraction ((splitSign text).2.dropWhile Char.isDigit)).1 ≠ [] ∧
        (exponentOfChars? (splitFraction ((splitSign text).2.dropWhile Char.isDigit)).2).isSome := by
    rw [ofChars?]
    by_cases empty : (splitSign text).2.takeWhile Char.isDigit ++
        (splitFraction ((splitSign text).2.dropWhile Char.isDigit)).1 = []
    · simp [empty]
    · simp [empty]
  rw [read, exponentOfChars?_isSome_iff]
  constructor
  · rintro ⟨nonempty, isExponent⟩
    obtain ⟨sign, isSign, whole⟩ := exists_sign text
    obtain ⟨mantissa, isMantissa, unsigned⟩ := exists_mantissa nonempty
    rw [whole, unsigned]
    exact .parts isSign isMantissa isExponent
  · rintro ⟨isSign, isMantissa, isExponent⟩
    rw [splitSign_append isSign (isMantissa.no_sign _)]
    obtain ⟨nonempty, ends⟩ := split_mantissa isMantissa isExponent.begins
    rw [ends]
    exact ⟨nonempty, isExponent⟩

/-- Whether a character may stand in a numeral. -/
def MayHold (c : Char) : Prop :=
  c.isDigit = true ∨ c ∈ ['+', '-', '.', 'e', 'E']

/-- A sign may stand in a numeral. -/
theorem IsSign.mayHold (isSign : IsSign sign) (member : c ∈ sign) : MayHold c := by
  rcases isSign with rfl | rfl | rfl
  · cases member
  · exact .inr (by simp [List.mem_singleton.1 member])
  · exact .inr (by simp [List.mem_singleton.1 member])

/-- A mantissa may stand in a numeral. -/
theorem IsMantissa.mayHold (isMantissa : IsMantissa mantissa) (member : c ∈ mantissa) : MayHold c := by
  have point : MayHold '.' := .inr (by decide)
  cases isMantissa with
  | whole isWhole => exact .inl (isWhole.2 c member)
  | point isWhole isFraction =>
      rcases List.mem_append.1 member with inWhole | behind
      · exact .inl (isWhole.2 c inWhole)
      rcases List.mem_cons.1 behind with rfl | inFraction
      · exact point
      · exact .inl (isFraction c inFraction)
  | fraction isFraction =>
      rcases List.mem_cons.1 member with rfl | inFraction
      · exact point
      · exact .inl (isFraction.2 c inFraction)

/-- An exponent may stand in a numeral. -/
theorem IsExponent.mayHold (isExponent : IsExponent text) (member : c ∈ text) : MayHold c := by
  cases isExponent with
  | absent => cases member
  | power isLetter isSign isDigits =>
      rcases List.mem_cons.1 member with rfl | behind
      · rcases isLetter with rfl | rfl
        · exact .inr (by decide)
        · exact .inr (by decide)
      rcases List.mem_append.1 behind with inSign | inDigits
      · exact isSign.mayHold inSign
      · exact .inl (isDigits.2 c inDigits)

/-- Every character of a numeral is one that may stand in a numeral. -/
theorem IsNumeral.mayHold (isNumeral : IsNumeral text) (member : c ∈ text) : MayHold c := by
  obtain ⟨isSign, isMantissa, isExponent⟩ := isNumeral
  rcases List.mem_append.1 member with inSign | behind
  · exact isSign.mayHold inSign
  rcases List.mem_append.1 behind with inMantissa | inExponent
  · exact isMantissa.mayHold inMantissa
  · exact isExponent.mayHold inExponent

end Numeral

end MiniScheme
