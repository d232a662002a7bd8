import MiniScheme.Proofs.ReadingGrammar

/-! # Source texts one after the other

A newline ends a word and a comment, so behind a text and a newline the scanner is between two tokens again,
unless a string literal of the text does not end. From there it goes on as at the beginning of a text, only
further on and behind the tokens found before. So the tokens of two texts with a newline between them are
those of the first and those of the second, and the forms that they hold are read and parsed one after the
other, unless the whole is too long to be read. -/

namespace MiniScheme

/-! ## Scanning further on -/

/-- The token, so many bytes further on. -/
def Token.moved (distance : Nat) (token : Token) : Token :=
  { token with start := token.start + distance, stop := token.stop + distance }

namespace Scanner

/-- Where in the text the scanner is, if this begins so many bytes further on. -/
def Mode.moved (distance : Nat) : Mode → Mode
  | .between => .between
  | .comment => .comment
  | .word start chars => .word (start + distance) chars
  | .literal start chars => .literal (start + distance) chars
  | .escape start chars => .escape (start + distance) chars

/-- The scanner, if its text begins so many bytes further on and behind tokens found before. -/
def movedBehind (distance : Nat) (before : List Token) (scanner : Scanner) : Scanner :=
  { offset := scanner.offset + distance
    mode := scanner.mode.moved distance
    reversed := scanner.reversed.map (Token.moved distance) ++ before }

variable (distance : Nat) (before : List Token)

/-- A character between two tokens is read in the same way further on. -/
theorem stepBetween_moved (offset : Nat) (tokens : List Token) (c : Char) :
    stepBetween (offset + distance) (tokens.map (Token.moved distance) ++ before) c =
      (stepBetween offset tokens c).movedBehind distance before := by
  have next : offset + distance + c.utf8Size = offset + c.utf8Size + distance :=
    Nat.add_right_comm offset distance c.utf8Size
  -- One case for each kind of character; only words and literals remember where they began.
  unfold stepBetween
  rw [next]
  repeat' split
  all_goals rfl

/-- A character is read in the same way further on. -/
theorem step_movedBehind (scanner : Scanner) (c : Char) :
    (scanner.movedBehind distance before).step c = (scanner.step c).movedBehind distance before := by
  obtain ⟨offset, mode, reversed⟩ := scanner
  have next : offset + distance + c.utf8Size = offset + c.utf8Size + distance :=
    Nat.add_right_comm offset distance c.utf8Size
  cases mode with
  | between => exact stepBetween_moved distance before offset reversed c
  | comment =>
      by_cases ends : c = '\n'
      · simp only [movedBehind, step, Mode.moved, if_pos ends, next]
      · simp only [movedBehind, step, Mode.moved, if_neg ends, next]
  | word start chars =>
      simp only [movedBehind, step, Mode.moved]
      split
      · -- The word is added to the tokens before the character is read.
        exact stepBetween_moved distance before offset
          (emit reversed (.atom (String.ofList chars.reverse)) start offset) c
      · rw [next]
  | literal start chars =>
      simp only [movedBehind, step, Mode.moved, next]
      split
      · rfl
      split
      · rfl
      · rfl
  | escape start chars => simp only [movedBehind, step, Mode.moved, next]

/-- So are any characters. -/
theorem foldl_movedBehind (chars : List Char) (scanner : Scanner) :
    chars.foldl step (scanner.movedBehind distance before) =
      (chars.foldl step scanner).movedBehind distance before := by
  induction chars generalizing scanner with
  | nil => rfl
  | cons c chars ih => rw [List.foldl_cons, List.foldl_cons, step_movedBehind, ih]

/-- At the end of the text, the tokens found before come first. -/
theorem finish_movedBehind (scanner : Scanner) :
    (scanner.movedBehind distance before).finish =
      before.reverse ++ scanner.finish.map (Token.moved distance) := by
  obtain ⟨offset, mode, reversed⟩ := scanner
  cases mode with
  | between | comment =>
      simp only [movedBehind, Mode.moved, finish, List.reverse_append, List.map_reverse]
  | word start chars | literal start chars | escape start chars =>
      simp only [movedBehind, Mode.moved, finish, emit, List.reverse_cons, List.reverse_append,
        List.map_append, List.map_reverse, List.append_assoc]
      rfl

/-! ## Behind a newline -/

/-- A newline ends whatever is being read, unless this is a string literal that does not end. -/
theorem step_newline {scanner : Scanner} (closed : ∀ token ∈ scanner.finish, token.kind ≠ .unterminated) :
    scanner.step '\n' = atGap (scanner.offset + 1) scanner.finish.reverse := by
  obtain ⟨offset, mode, reversed⟩ := scanner
  have unterminated {start : Nat} (closed : ∀ token ∈ (emit reversed .unterminated start offset).reverse,
      token.kind ≠ .unterminated) : False :=
    closed _ (List.mem_reverse.2 List.mem_cons_self) rfl
  cases mode with
  | between | comment =>
      rw [finish, List.reverse_reverse]
      rfl
  | word start chars =>
      rw [finish, List.reverse_reverse]
      rfl
  | literal start chars => exact (unterminated closed).elim
  | escape start chars => exact (unterminated closed).elim

end Scanner

/-- The tokens of a text, a newline and another text are those of the two texts, the latter further on. -/
theorem Token.ofText_append_newline {first : String}
    (closed : ∀ token ∈ Token.ofText first, token.kind ≠ .unterminated) (second : String) :
    ∃ distance, Token.ofText (first ++ "\n" ++ second) =
      Token.ofText first ++ (Token.ofText second).map (Token.moved distance) := by
  let scanned := first.toList.foldl Scanner.step Scanner.initial
  have found : scanned.finish = Token.ofText first := rfl
  have gap : Scanner.atGap (scanned.offset + 1) (Token.ofText first).reverse =
      Scanner.initial.movedBehind (scanned.offset + 1) (Token.ofText first).reverse := by
    rw [Scanner.movedBehind, Scanner.initial, Nat.zero_add]
    rfl
  refine ⟨scanned.offset + 1, ?_⟩
  have chars : (first ++ "\n" ++ second).toList = first.toList ++ '\n' :: second.toList := by
    simp [String.toList_append]
  rw [Token.ofText, chars, List.foldl_append, List.foldl_cons, Scanner.step_newline closed, found, gap,
    Scanner.foldl_movedBehind, Scanner.finish_movedBehind, List.reverse_reverse]
  rfl

/-- The kinds of tokens of a text, a newline and another text are those of the two texts. -/
theorem Token.kinds_append_newline {first : String}
    (closed : ∀ token ∈ Token.ofText first, token.kind ≠ .unterminated) (second : String) :
    (Token.ofText (first ++ "\n" ++ second)).map Token.kind =
      (Token.ofText first).map Token.kind ++ (Token.ofText second).map Token.kind := by
  obtain ⟨distance, tokens⟩ := Token.ofText_append_newline closed second
  have kinds : Token.kind ∘ Token.moved distance = Token.kind := rfl
  rw [tokens, List.map_append, List.map_map, kinds]

/-! ## Reading and parsing -/

namespace SExpr

/-- Two texts with a newline between them are read one after the other, if they are not too long together. -/
theorem ofText_append_newline {first second : String} {trees more : List SExpr}
    (short : (first ++ "\n" ++ second).utf8ByteSize ≤ maxSourceLength)
    (read : ofText first = .ok trees) (readMore : ofText second = .ok more) :
    ofText (first ++ "\n" ++ second) = .ok (trees ++ more) := by
  have readTokens := (ofText_eq_ok_iff.1 read).2
  have closed := kind_ne_unterminated_of_ofTokens readTokens
  obtain ⟨forms, kinds, fits, rfl⟩ := ofTokens_eq_ok_iff.1 readTokens
  obtain ⟨others, otherKinds, otherFits, rfl⟩ := ofTokens_eq_ok_iff.1 (ofText_eq_ok_iff.1 readMore).2
  rw [ofText_of_le short]
  -- Neither text leaves a bracket open, so the forms nest no deeper together than each for itself.
  refine ofTokens_eq_ok_iff.2 ⟨forms ++ others, ?_, ?_, List.map_append⟩
  · rw [Token.kinds_append_newline closed, kinds, otherKinds, Written.kindsAll_append]
  · rw [Written.nestingAll_append]
    exact Nat.max_le.2 ⟨fits, otherFits⟩

end SExpr

namespace Program

/-- The tokens of a text without an unterminated string literal, a newline and another text are of the kinds
of those of the first text and then of those of the second. So two programs are parsed from their source
texts with a newline between them as one program, with the forms of the first and then those of the second.
Only the length of the two texts together can be refused. -/
theorem parse_append_newline (first second : String) :
    ((∀ token ∈ Token.ofText first, token.kind ≠ .unterminated) →
      (Token.ofText (first ++ "\n" ++ second)).map Token.kind =
        (Token.ofText first).map Token.kind ++ (Token.ofText second).map Token.kind) ∧
    ∀ program other, Program.parse first = .ok program → Program.parse second = .ok other →
      Program.parse (first ++ "\n" ++ second) =
        if maxSourceLength < (first ++ "\n" ++ second).utf8ByteSize then
          .error (.unreadable (.tooLong (first ++ "\n" ++ second).utf8ByteSize))
        else .ok { forms := program.forms ++ other.forms } := by
  refine ⟨fun closed => Token.kinds_append_newline closed second, ?_⟩
  intro program other parsed parsedOther
  rcases Nat.lt_or_ge maxSourceLength (first ++ "\n" ++ second).utf8ByteSize with exceeds | short
  · rw [if_pos exceeds, parse_of_gt exceeds]
  rw [if_neg (Nat.not_lt_of_le short)]
  obtain ⟨trees, read, nonempty, converted⟩ := parse_eq_ok_iff.1 parsed
  obtain ⟨more, readMore, -, convertedMore⟩ := parse_eq_ok_iff.1 parsedOther
  refine parse_eq_ok_iff.2 ⟨trees ++ more, SExpr.ofText_append_newline short read readMore, ?_, ?_⟩
  · exact List.append_ne_nil_of_left_ne_nil nonempty more
  · rw [List.mapM_append, converted, convertedMore]
    rfl

/-- The newline ends a comment behind a quotation, and does not belong to the string of the other text. -/
theorem parse_append_newline_comment :
    (∀ token ∈ Token.ofText "'x ; (", token.kind ≠ .unterminated) ∧
      (Token.ofText "'x ; (\n\";\"").map Token.kind =
        (Token.ofText "'x ; (").map Token.kind ++ (Token.ofText "\";\"").map Token.kind ∧
      Program.parse "'x ; (" = .ok { forms := [.lit (.symbol "x")] } ∧
      Program.parse "\";\"" = .ok { forms := [.str ";"] } ∧
      Program.parse "'x ; (\n\";\"" = .ok { forms := [.lit (.symbol "x"), .str ";"] } := by
  have tokens : Token.ofText "'x ; (" = [⟨.quoteMark, 0, 1⟩, ⟨.atom "x", 1, 2⟩] := by
    decide +kernel
  have tokensOther : Token.ofText "\";\"" = [⟨.str ";", 0, 3⟩] := by
    decide +kernel
  have closed : ∀ token ∈ Token.ofText "'x ; (", token.kind ≠ .unterminated := by
    rw [tokens]
    decide
  have parsed : Program.parse "'x ; (" = .ok { forms := [.lit (.symbol "x")] } := by
    rw [Program.parse, SExpr.parse, SExpr.ofText_of_le (by decide +kernel), tokens]
    rfl
  have parsedOther : Program.parse "\";\"" = .ok { forms := [.str ";"] } := by
    rw [Program.parse, SExpr.parse, SExpr.ofText_of_le (by decide +kernel), tokensOther]
    rfl
  have joined : "'x ; (" ++ "\n" ++ "\";\"" = "'x ; (\n\";\"" := by
    decide +kernel
  have short : ¬ maxSourceLength < "'x ; (\n\";\"".utf8ByteSize := by
    decide +kernel
  obtain ⟨kinds, together⟩ := parse_append_newline "'x ; (" "\";\""
  have tokensTogether := kinds closed
  have parsedTogether := together _ _ parsed parsedOther
  rw [joined] at tokensTogether parsedTogether
  rw [if_neg short] at parsedTogether
  exact ⟨closed, tokensTogether, parsed, parsedOther, parsedTogether⟩

end Program

end MiniScheme
