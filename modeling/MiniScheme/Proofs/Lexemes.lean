import MiniScheme.Proofs.Scanning

/-! # Lexemes and what stands between them

A source text is made of the lexemes of its tokens and of gaps in front of, between and behind them, in which
there are only blanks and comments. Every text is made like this, and the scanner finds just these tokens, each
with the byte offsets of its lexeme. -/

namespace MiniScheme

/-- Whether characters in front of the rest of a text are blanks and comments. A comment goes on to the next
newline or to the end of the text. -/
inductive Gap : List Char → List Char → Prop where
  /-- No characters. -/
  | nil (rest : List Char) : Gap [] rest
  /-- A blank in front of a gap. -/
  | blank {c : Char} {gap rest : List Char} (isBlank : isBlank c = true) (further : Gap gap rest) :
      Gap (c :: gap) rest
  /-- A comment in front of a gap. -/
  | comment {text gap rest : List Char} (oneLine : '\n' ∉ text)
      (ends : ∀ c ∈ (gap ++ rest).head?, c = '\n') (further : Gap gap rest) :
      Gap (';' :: text ++ gap) rest

/-- Whether, from an offset on, characters are lexemes of tokens with gaps around them. -/
inductive Lexes : Nat → List Char → List Token → Prop where
  /-- A gap up to the end of the text. -/
  | done {offset : Nat} {gap : List Char} (isGap : Gap gap []) : Lexes offset gap []
  /-- A gap and the lexeme of a token in front of others. -/
  | token {offset : Nat} {gap lexeme rest : List Char} {kind : Token.Kind} {tokens : List Token}
      (isGap : Gap gap (lexeme ++ rest)) (spells : kind.Spells lexeme rest)
      (others : Lexes (offset + String.utf8Len gap + String.utf8Len lexeme) rest tokens) :
      Lexes offset (gap ++ (lexeme ++ rest))
        ({ kind
           start := offset + String.utf8Len gap
           stop := offset + String.utf8Len gap + String.utf8Len lexeme } :: tokens)

/-! ## Every text is made of lexemes and gaps -/

namespace Token.Kind

variable {kind : Token.Kind} {lexeme rest : List Char}

/-- No lexeme begins like a gap. -/
theorem Spells.exists_cons (spells : kind.Spells lexeme rest) :
    ∃ c chars, lexeme = c :: chars ∧ isBlank c = false ∧ c ≠ ';' := by
  cases kind with
  | opening | closing | quoteMark =>
      obtain rfl : lexeme = _ := spells
      exact ⟨_, _, rfl, rfl, by decide⟩
  | str content =>
      obtain ⟨written, rfl, -⟩ := spells
      exact ⟨_, _, rfl, rfl, by decide⟩
  | atom text =>
      obtain ⟨rfl, ⟨nonempty, inWord⟩, -⟩ := spells
      obtain ⟨c, chars, split⟩ := List.exists_cons_of_ne_nil nonempty
      have plain := inWord c (by simp [split])
      simp only [isDelimiter, Bool.or_eq_false_iff, decide_eq_false_iff_not] at plain
      exact ⟨c, chars, split, plain.1.1.1.1.1, plain.2⟩
  | unterminated =>
      obtain ⟨written, rfl, -⟩ := spells
      exact ⟨_, _, rfl, rfl, by decide⟩

/-- A lexeme has at least one byte. -/
theorem Spells.utf8Len_pos (spells : kind.Spells lexeme rest) : 0 < String.utf8Len lexeme := by
  obtain ⟨c, chars, rfl, -⟩ := spells.exists_cons
  exact Nat.add_pos_right _ c.utf8Size_pos

/-- Characters of which the first begins no gap begin with a lexeme. -/
theorem exists_spells {c : Char} (notBlank : isBlank c = false) (notComment : c ≠ ';')
    (chars : List Char) :
    ∃ (kind : Token.Kind) (lexeme rest : List Char),
      c :: chars = lexeme ++ rest ∧ kind.Spells lexeme rest := by
  by_cases opening : c = '('
  · exact ⟨.opening, ['('], chars, by rw [opening]; rfl, rfl⟩
  by_cases closing : c = ')'
  · exact ⟨.closing, [')'], chars, by rw [closing]; rfl, rfl⟩
  by_cases mark : c = '\x27'
  · exact ⟨.quoteMark, ['\x27'], chars, by rw [mark]; rfl, rfl⟩
  by_cases quote : c = '"'
  · subst quote
    rcases StringLiteral.closes_or_leftOpen chars with ⟨written, content, rest, rfl, denotes⟩ | leftOpen
    · refine ⟨.str (String.ofList content), '"' :: written ++ ['"'], rest, by simp, written, rfl, ?_⟩
      rwa [String.toList_ofList]
    · exact ⟨.unterminated, '"' :: chars, [], by simp, chars, rfl, leftOpen, rfl⟩
  -- Any other character begins a word, which goes on to the next delimiter.
  · let inWord (c : Char) : Bool := !isDelimiter c
    have plain : inWord c = true := by
      simp [inWord, isDelimiter, notBlank, opening, closing, mark, quote, notComment]
    have split : c :: chars = (c :: chars.takeWhile inWord) ++ chars.dropWhile inWord := by
      rw [List.cons_append, List.takeWhile_append_dropWhile]
    refine ⟨.atom (String.ofList (c :: chars.takeWhile inWord)), _, _, split, ?_, ⟨?_, ?_⟩, ?_⟩
    · rw [String.toList_ofList]
    · rw [String.toList_ofList]
      exact List.cons_ne_nil _ _
    · rw [String.toList_ofList]
      intro d member
      rcases List.mem_cons.1 member with rfl | further
      · simpa [inWord] using plain
      · simpa [inWord] using List.all_eq_true.1 List.all_takeWhile d further
    · have stops := List.head?_dropWhile_not inWord chars
      cases rest : chars.dropWhile inWord with
      | nil => trivial
      | cons d rest =>
          rw [rest] at stops
          simpa [inWord, Boundary] using stops

end Token.Kind

namespace Lexes

variable {offset : Nat} {chars : List Char} {tokens : List Token}

/-- A blank or a comment in front. -/
theorem behind {front : List Char}
    (widens : ∀ {gap rest}, chars = gap ++ rest → Gap gap rest → Gap (front ++ gap) rest)
    (lexes : Lexes (offset + String.utf8Len front) chars tokens) : Lexes offset (front ++ chars) tokens := by
  cases lexes with
  | done isGap => exact .done (widens (List.append_nil chars).symm isGap)
  | @token _ gap lexeme rest kind tokens isGap spells others =>
      have length : offset + String.utf8Len front + String.utf8Len gap =
          offset + String.utf8Len (front ++ gap) := by
        rw [String.utf8Len_append, Nat.add_assoc]
      rw [length] at others ⊢
      rw [← List.append_assoc]
      exact .token (widens rfl isGap) spells others

/-- Every text is made of lexemes with gaps around them. -/
theorem exists_tokens (offset : Nat) (chars : List Char) : ∃ tokens, Lexes offset chars tokens := by
  induction length : chars.length using Nat.strong_induction_on generalizing offset chars with
  | _ _ ih =>
  subst length
  cases chars with
  | nil => exact ⟨[], .done (.nil [])⟩
  | cons c chars =>
      by_cases blank : isBlank c = true
      · obtain ⟨tokens, lexes⟩ := ih _ (Nat.lt_succ_self _) (offset + String.utf8Len [c]) chars rfl
        exact ⟨tokens, lexes.behind fun _ isGap => isGap.blank blank⟩
      by_cases comment : c = ';'
      · subst comment
        let inLine (c : Char) : Bool := c != '\n'
        let text := chars.takeWhile inLine
        have split : ';' :: chars = (';' :: text) ++ chars.dropWhile inLine := by
          rw [List.cons_append, List.takeWhile_append_dropWhile]
        have oneLine : '\n' ∉ text := fun member => by
          simpa [inLine] using List.all_eq_true.1 List.all_takeWhile _ member
        have ends : ∀ c ∈ (chars.dropWhile inLine).head?, c = '\n' := fun c first => by
          have stops := List.head?_dropWhile_not inLine chars
          rw [first] at stops
          simpa [inLine] using stops
        have shorter := Nat.lt_succ_of_le (List.dropWhile_sublist inLine (l := chars)).length_le
        obtain ⟨tokens, lexes⟩ := ih _ shorter (offset + String.utf8Len (';' :: text)) _ rfl
        rw [split]
        exact ⟨tokens, lexes.behind fun same isGap => .comment oneLine (same ▸ ends) isGap⟩
      · obtain ⟨kind, lexeme, rest, split, spells⟩ :=
          Token.Kind.exists_spells (Bool.eq_false_iff.2 blank) comment chars
        obtain ⟨d, more, begins, -⟩ := spells.exists_cons
        have shorter : rest.length < (c :: chars).length := by
          rw [split, begins, List.length_append, List.length_cons]
          omega
        obtain ⟨tokens, lexes⟩ := ih _ shorter (offset + String.utf8Len [] + String.utf8Len lexeme) rest rfl
        rw [split]
        exact ⟨_, .token (.nil _) spells lexes⟩

end Lexes

/-! ## The scanner finds them -/

namespace Scanner

variable {offset : Nat} {chars gap rest : List Char} {reversed tokens : List Token}

/-- Characters of a comment are skipped. -/
theorem run_comment {text : List Char} (oneLine : '\n' ∉ text) (offset : Nat) (reversed : List Token)
    (rest : List Char) :
    run { offset, mode := .comment, reversed } (text ++ rest) =
      run { offset := offset + String.utf8Len text, mode := .comment, reversed } rest := by
  induction text generalizing offset with
  | nil => rfl
  | cons c text ih =>
      rw [List.mem_cons, not_or] at oneLine
      rw [List.cons_append, run_cons, step]
      simp only [if_neg (Ne.symm oneLine.1)]
      rw [ih oneLine.2, String.utf8Len_cons, Nat.add_right_comm, Nat.add_assoc]

/-- A comment ends in front of a newline and at the end of the text. -/
theorem run_comment_ends (ends : ∀ c ∈ rest.head?, c = '\n') (offset : Nat) (reversed : List Token) :
    run { offset, mode := .comment, reversed } rest = (atGap offset reversed).run rest := by
  cases rest with
  | nil => rfl
  | cons c rest =>
      obtain rfl := ends c rfl
      rfl

/-- Gaps are skipped. -/
theorem run_gap (isGap : Gap gap rest) (offset : Nat) (reversed : List Token) :
    (atGap offset reversed).run (gap ++ rest) =
      (atGap (offset + String.utf8Len gap) reversed).run rest := by
  induction isGap generalizing offset with
  | nil => rfl
  | @blank c gap rest isBlank _ ih =>
      rw [List.cons_append, run_cons, step]
      simp only [atGap, stepBetween, isBlank, if_true]
      refine (ih (offset + c.utf8Size)).trans ?_
      rw [String.utf8Len_cons, Nat.add_assoc, Nat.add_comm c.utf8Size]
      rfl
  | @comment text gap rest oneLine ends _ ih =>
      rw [List.append_assoc, List.cons_append, run_cons]
      refine (run_comment oneLine (offset + 1) reversed (gap ++ rest)).trans ?_
      rw [run_comment_ends ends, ih]
      congr 2
      rw [List.cons_append, String.utf8Len_cons, String.utf8Len_append]
      show _ = offset + (String.utf8Len text + String.utf8Len gap + 1)
      omega

/-- The scanner finds the tokens whose lexemes the text is made of. -/
theorem run_lexes (lexes : Lexes offset chars tokens) (reversed : List Token) :
    (atGap offset reversed).run chars = reversed.reverse ++ tokens := by
  induction lexes generalizing reversed with
  | @done offset gap isGap =>
      have skipped := run_gap isGap offset reversed
      rw [List.append_nil] at skipped
      rw [skipped, List.append_nil]
      rfl
  | token isGap spells _ ih =>
      rw [run_gap isGap, run_spells _ _ _ spells, ih, List.reverse_cons, List.append_assoc,
        List.singleton_append]

end Scanner

namespace Token

variable {source : String} {tokens : List Token} {token : Token}

/-- The tokens of a source text are those whose lexemes, with gaps around them, make up the text. -/
theorem ofText_eq_iff : ofText source = tokens ↔ Lexes 0 source.toList tokens := by
  have found {tokens : List Token} (lexes : Lexes 0 source.toList tokens) : ofText source = tokens :=
    (Scanner.run_lexes lexes []).trans (List.nil_append tokens)
  constructor
  · rintro rfl
    obtain ⟨tokens, lexes⟩ := Lexes.exists_tokens 0 source.toList
    rwa [found lexes]
  · exact found

/-- The tokens of a source text have lexemes. -/
theorem lexes_ofText (source : String) : Lexes 0 source.toList (ofText source) :=
  ofText_eq_iff.1 rfl

/-- Whether a token that stands for a word is one. -/
def Kind.Worded : Kind → Prop
  | .atom text => IsWord text
  | _ => True

/-- What is spelled as a word is a word. -/
theorem Kind.Spells.worded {kind : Kind} {lexeme rest : List Char} (spells : kind.Spells lexeme rest) :
    kind.Worded := by
  cases kind with
  | atom text => exact spells.2.1
  | _ => trivial

/-- Every word that is found in a text is a word. -/
theorem worded_of_mem_ofText (member : token ∈ ofText source) : token.kind.Worded := by
  have all {offset : Nat} {chars : List Char} {tokens : List Token} (lexes : Lexes offset chars tokens) :
      ∀ token ∈ tokens, token.kind.Worded := by
    induction lexes with
    | done => exact List.forall_mem_nil _
    | token _ spells _ ih => exact List.forall_mem_cons.2 ⟨spells.worded, ih⟩
  exact all (lexes_ofText source) token member

end Token

end MiniScheme
