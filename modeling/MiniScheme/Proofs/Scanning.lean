import Mathlib.Data.String.Basic
import MiniScheme.Proofs.StringLiterals
import MiniScheme.Token.Scanner

/-! # Scanning piece by piece

A lexeme of a token is the text that the token covers: a bracket, a quote mark, a word up to the next
delimiter, or a string literal between its quotes or up to the end of the text. Between two tokens the scanner
takes a lexeme as one token of just its length.

`Scans chars kinds rest` says that the scanner, between two tokens and with so many characters before the
rest of a text, finds tokens of the given kinds and is between two tokens again. Pieces of text that scan
one after the other scan as a whole, so the tokens of a written text follow from those of its words,
literals, brackets, marks and blanks. -/

namespace MiniScheme

/-- Characters that pass a test, in front of one that fails it or of the end. -/
theorem span_append {test : Char → Bool} {front rest : List Char} (passes : ∀ c ∈ front, test c = true)
    (stops : ∀ c ∈ rest.head?, test c = false) :
    (front ++ rest).takeWhile test = front ∧ (front ++ rest).dropWhile test = rest := by
  rw [List.takeWhile_append_of_pos passes, List.dropWhile_append_of_pos passes]
  cases rest with
  | nil => exact ⟨List.append_nil front, rfl⟩
  | cons c rest =>
      rw [List.takeWhile_cons, List.dropWhile_cons, stops c rfl]
      exact ⟨List.append_nil front, rfl⟩

/-- A word: some characters of which none ends a word. -/
def IsWord (text : String) : Prop :=
  text.toList ≠ [] ∧ ∀ c ∈ text.toList, isDelimiter c = false

instance (text : String) : Decidable (IsWord text) :=
  decidable_of_iff ((!text.toList.isEmpty && text.toList.all fun c => !isDelimiter c) = true)
    (by simp [IsWord])

/-- Whether a word ends in front of the text: it is empty or starts with a delimiter. -/
def Boundary : List Char → Prop
  | [] => True
  | c :: _ => isDelimiter c = true

/-- Whether characters in front of the rest of a text are a lexeme of a token of the given kind. -/
def Token.Kind.Spells (lexeme rest : List Char) : Token.Kind → Prop
  | .opening => lexeme = ['(']
  | .closing => lexeme = [')']
  | .quoteMark => lexeme = ['\x27']
  | .str content => ∃ written, lexeme = '"' :: written ++ ['"'] ∧
      StringLiteral.Denotes written content.toList
  | .atom text => lexeme = text.toList ∧ IsWord text ∧ Boundary rest
  | .unterminated => ∃ written, lexeme = '"' :: written ∧ StringLiteral.LeftOpen written ∧ rest = []

/-- The literal that is written for a string is a lexeme of it. -/
theorem StringLiteral.spells_encode (content : String) (rest : List Char) :
    (Token.Kind.str content).Spells (StringLiteral.encode content).toList rest := by
  refine ⟨content.toList.flatMap StringLiteral.escape, ?_, denotes_flatMap_escape content.toList⟩
  simp [encode]

/-- The number of bytes from the offset of a literal to its end. -/
theorem StringLiteral.utf8Len_lexeme (offset : Nat) (written : List Char) :
    offset + String.utf8Len ('"' :: written ++ ['"']) = offset + 1 + String.utf8Len written + 1 := by
  rw [List.cons_append, String.utf8Len_cons, String.utf8Len_append]
  show offset + (String.utf8Len written + 1 + 1) = _
  omega

namespace Scanner

/-- The tokens that the scanner has when so many more characters end the text. -/
def run (scanner : Scanner) (chars : List Char) : List Token :=
  (chars.foldl step scanner).finish

/-- The scanner between two tokens. -/
def atGap (offset : Nat) (reversed : List Token) : Scanner :=
  { offset, mode := .between, reversed }

/-- Reading one more character. -/
theorem run_cons (scanner : Scanner) (c : Char) (chars : List Char) :
    scanner.run (c :: chars) = (scanner.step c).run chars := rfl

/-! ## Lexemes -/

section Lexemes

variable (start offset : Nat) (before : List Char) (reversed : List Token) (rest : List Char)

/-- Characters of a word are collected. -/
theorem run_word {chars : List Char} (inWord : ∀ c ∈ chars, isDelimiter c = false) :
    run { offset, mode := .word start before, reversed } (chars ++ rest) =
      run { offset := offset + String.utf8Len chars, mode := .word start (chars.reverse ++ before),
            reversed } rest := by
  induction chars generalizing offset before with
  | nil => rfl
  | cons c chars ih =>
      rw [List.forall_mem_cons] at inWord
      rw [List.cons_append, run_cons, step]
      simp only [inWord.1, Bool.false_eq_true, if_false]
      rw [ih _ _ inWord.2, String.utf8Len_cons, Nat.add_right_comm, Nat.add_assoc, List.reverse_cons,
        List.append_assoc]
      rfl

/-- A word ends at a boundary. -/
theorem run_boundary (ends : Boundary rest) :
    run { offset, mode := .word start before, reversed } rest =
      (atGap offset (emit reversed (.atom (String.ofList before.reverse)) start offset)).run rest := by
  cases rest with
  | nil => rfl
  | cons c rest =>
      have delimiter : isDelimiter c = true := ends
      rw [run_cons, run_cons, step]
      simp only [delimiter, if_true]
      rfl

/-- A character that is no delimiter begins a word. -/
theorem step_atGap_of_not_delimiter {c : Char} (plain : isDelimiter c = false) :
    (atGap offset reversed).step c =
      { offset := offset + c.utf8Size, mode := .word offset [c], reversed } := by
  simp only [isDelimiter, Bool.or_eq_false_iff, decide_eq_false_iff_not] at plain
  obtain ⟨⟨⟨⟨⟨notBlank, notOpening⟩, notClosing⟩, notMark⟩, notQuote⟩, notComment⟩ := plain
  simp only [atGap, step, stepBetween, notBlank, if_neg notOpening, if_neg notClosing,
    if_neg notMark, if_neg notQuote, if_neg notComment, Bool.false_eq_true, if_false]

/-- Behind a quote, the content that the characters denote is collected. -/
theorem run_literal {written content : List Char} (denotes : StringLiteral.Denotes written content) :
    run { offset, mode := .literal start before, reversed } (written ++ rest) =
      run { offset := offset + String.utf8Len written, mode := .literal start (content.reverse ++ before),
            reversed } rest := by
  -- The content is collected in reverse, in front of what was collected before.
  induction denotes using StringLiteral.Denotes.induction_escaped generalizing offset before with
  | nil => rfl
  | plain notQuote notBackslash _ ih =>
      rw [List.cons_append, run_cons, step]
      simp only [if_neg notQuote, if_neg notBackslash]
      rw [ih, String.utf8Len_cons, Nat.add_right_comm, Nat.add_assoc, List.reverse_cons, List.append_assoc]
      rfl
  | escaped c _ ih =>
      rw [List.cons_append, List.cons_append, run_cons, run_cons]
      refine (ih (offset + '\\'.utf8Size + c.utf8Size) (StringLiteral.unescape c :: before)).trans ?_
      rw [String.utf8Len_cons, String.utf8Len_cons, List.reverse_cons, List.append_assoc]
      congr 2
      omega

/-- Where a literal is left open, the text ends in an unterminated one. -/
theorem run_leftOpen {chars : List Char} (leftOpen : StringLiteral.LeftOpen chars) :
    run { offset, mode := .literal start before, reversed } chars =
      (emit reversed .unterminated start (offset + String.utf8Len chars)).reverse := by
  obtain ⟨written, content, denotes, rfl | rfl⟩ := leftOpen
  · have collected := run_literal start offset before reversed [] denotes
    rw [List.append_nil] at collected
    rw [collected]
    rfl
  · rw [run_literal start offset before reversed ['\\'] denotes, String.utf8Len_append, ← Nat.add_assoc]
    rfl

/-- Between two tokens, a lexeme is taken as one token. -/
theorem run_spells {kind : Token.Kind} {lexeme : List Char} (spells : kind.Spells lexeme rest) :
    (atGap offset reversed).run (lexeme ++ rest) =
      (atGap (offset + String.utf8Len lexeme)
        ({ kind, start := offset, stop := offset + String.utf8Len lexeme } :: reversed)).run rest := by
  cases kind with
  | opening | closing | quoteMark =>
      obtain rfl : lexeme = _ := spells
      rfl
  | str content =>
      obtain ⟨written, rfl, denotes⟩ := spells
      have collected := run_literal offset (offset + 1) [] reversed ('"' :: rest) denotes
      have whole : String.ofList (content.toList.reverse ++ []).reverse = content := by
        rw [List.append_nil, List.reverse_reverse, String.ofList_toList]
      rw [StringLiteral.utf8Len_lexeme, List.append_assoc, List.cons_append, run_cons]
      refine collected.trans ?_
      rw [run_cons, step]
      simp only [whole]
      rfl
  | atom text =>
      obtain ⟨rfl, ⟨nonempty, inWord⟩, ends⟩ := spells
      obtain ⟨c, chars, split⟩ := List.exists_cons_of_ne_nil nonempty
      have whole : String.ofList (chars.reverse ++ [c]).reverse = text := by
        rw [List.reverse_append, List.reverse_reverse, List.reverse_singleton, List.singleton_append,
          ← split, String.ofList_toList]
      rw [split, List.forall_mem_cons] at inWord
      rw [split, List.cons_append, run_cons, step_atGap_of_not_delimiter offset reversed inWord.1,
        run_word offset _ [c] reversed rest inWord.2, run_boundary _ _ _ _ rest ends, whole,
        String.utf8Len_cons, Nat.add_assoc, Nat.add_comm c.utf8Size]
      rfl
  | unterminated =>
      obtain ⟨written, rfl, leftOpen, rfl⟩ := spells
      have found := run_leftOpen offset (offset + 1) [] reversed leftOpen
      rw [List.append_nil, run_cons]
      refine found.trans ?_
      rw [String.utf8Len_cons, Nat.add_comm (String.utf8Len written), ← Nat.add_assoc]
      rfl

end Lexemes

/-! ## Pieces -/

/-- In front of the rest of a text, the characters scan as tokens of the given kinds. -/
def Scans (chars : List Char) (kinds : List Token.Kind) (rest : List Char) : Prop :=
  ∀ (offset : Nat) (reversed : List Token), ∃ (offset' : Nat) (found : List Token),
    found.map Token.kind = kinds ∧
      (atGap offset reversed).run (chars ++ rest) =
        (atGap offset' (found.reverse ++ reversed)).run rest

namespace Scans

variable {chars more rest : List Char} {kinds others : List Token.Kind}

/-- No characters scan as no tokens. -/
theorem nil (rest : List Char) : Scans [] [] rest :=
  fun offset _ => ⟨offset, [], rfl, rfl⟩

/-- Two pieces scan one after the other. -/
theorem append (first : Scans chars kinds (more ++ rest)) (second : Scans more others rest) :
    Scans (chars ++ more) (kinds ++ others) rest := by
  intro offset reversed
  obtain ⟨offset', found, here, run⟩ := first offset reversed
  obtain ⟨offset'', found', there, run'⟩ := second offset' (found.reverse ++ reversed)
  refine ⟨offset'', found ++ found', by rw [List.map_append, here, there], ?_⟩
  rw [List.append_assoc, run, run', List.reverse_append, List.append_assoc]

/-- A blank scans as nothing. -/
theorem blank {c : Char} (isBlank : isBlank c = true) (rest : List Char) : Scans [c] [] rest := by
  refine fun offset reversed => ⟨offset + c.utf8Size, [], rfl, ?_⟩
  rw [List.singleton_append, run_cons, step]
  simp only [atGap, stepBetween, isBlank, if_true]
  rfl

/-- A lexeme scans as its token. -/
theorem lexeme {kind : Token.Kind} (spells : kind.Spells chars rest) : Scans chars [kind] rest :=
  fun offset reversed => ⟨_, [_], rfl, run_spells offset reversed rest spells⟩

/-- An opening bracket. -/
theorem opening (rest : List Char) : Scans ['('] [.opening] rest := lexeme rfl

/-- A closing bracket. -/
theorem closing (rest : List Char) : Scans [')'] [.closing] rest := lexeme rfl

/-- A quote mark. -/
theorem quoteMark (rest : List Char) : Scans ['\x27'] [.quoteMark] rest := lexeme rfl

/-- A word that ends at the rest of the text. -/
theorem word {text : String} (isWord : IsWord text) (ends : Boundary rest) :
    Scans text.toList [.atom text] rest :=
  lexeme ⟨rfl, isWord, ends⟩

/-- A string literal. -/
theorem literal (content : String) (rest : List Char) :
    Scans (StringLiteral.encode content).toList [.str content] rest :=
  lexeme (StringLiteral.spells_encode content rest)

end Scans

end Scanner

end MiniScheme
