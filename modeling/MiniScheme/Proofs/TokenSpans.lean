import MiniScheme.Proofs.ByteScanning

/-! # Token spans

The offsets of the tokens of a source text cut the text into lexemes and gaps: no token is empty, each stands
behind the one before it, and what stands in front of the first, between two neighbours and behind the last is
blank or a comment. A word is the slice of the text between its offsets, which fall between characters, and a
string literal without an end covers the text up to its end. -/

namespace MiniScheme

/-- Whether a text stands in a source between two byte offsets, in front of the rest of the source. -/
def StandsBetween (source : String) (start stop : Nat) (text rest : String) : Prop :=
  ∃ front, source = front ++ text ++ rest ∧ front.utf8ByteSize = start ∧ start + text.utf8ByteSize = stop

/-- Characters of a source stand between the offsets that their numbers of bytes give. -/
theorem standsBetween_of_toList {source : String} {front text rest : List Char}
    (split : source.toList = front ++ (text ++ rest)) :
    StandsBetween source (String.utf8Len front) (String.utf8Len front + String.utf8Len text)
      (String.ofList text) (String.ofList rest) := by
  refine ⟨String.ofList front, ?_, String.utf8ByteSize_ofList front, ?_⟩
  · rw [← String.ofList_append, ← String.ofList_append, List.append_assoc, ← split, String.ofList_toList]
  · rw [String.utf8ByteSize_ofList]

namespace Token

/-- Where the last of some tokens ends, or the given offset if there is none. -/
def endOf (offset : Nat) (tokens : List Token) : Nat :=
  tokens.getLast?.elim offset Token.stop

/-- Where the first of some tokens begins, or the end of the source if there is none. -/
def beginningOf (source : String) (tokens : List Token) : Nat :=
  tokens.head?.elim source.utf8ByteSize Token.start

/-- Whether tokens cut a source into lexemes and gaps. -/
structure Cut (source : String) (tokens : List Token) : Prop where
  /-- No token is empty. -/
  nonempty : ∀ token ∈ tokens, token.start < token.stop
  /-- Each token stands behind those before it. -/
  ordered : tokens.Pairwise fun earlier later => earlier.stop ≤ later.start
  /-- In front of the tokens, between two neighbours and behind all there are blanks and comments. -/
  gaps : ∀ before after, tokens = before ++ after →
    ∃ gap rest, StandsBetween source (endOf 0 before) (beginningOf source after) gap rest ∧
      Gap gap.toList rest.toList
  /-- A word is what stands between its offsets; no byte of it is a delimiter, and one stands behind it unless
  the source ends there. -/
  words : ∀ token ∈ tokens, ∀ text, token.kind = .atom text →
    ∃ rest, StandsBetween source token.start token.stop text rest ∧
      (∀ byte ∈ textBytes text, isDelimiter (codeChar byte) = false) ∧ Boundary rest.toList
  /-- No token stands behind an unterminated string literal, which goes on to the end of the source. -/
  unterminated : ∀ before token after, tokens = before ++ token :: after →
    token.kind = .unterminated → after = [] ∧ token.stop = source.utf8ByteSize

end Token

namespace Lexes

variable {offset : Nat} {chars : List Char} {token : Token} {tokens before after : List Token}

/-- The lexeme of a first token and what stands around it. -/
theorem exists_first (lexes : Lexes offset chars (token :: tokens)) :
    ∃ gap lexeme rest, chars = gap ++ (lexeme ++ rest) ∧ Gap gap (lexeme ++ rest) ∧
      token.kind.Spells lexeme rest ∧ token.start = offset + String.utf8Len gap ∧
        token.stop = token.start + String.utf8Len lexeme ∧ Lexes token.stop rest tokens := by
  cases lexes with
  | token isGap spells others => exact ⟨_, _, _, rfl, isGap, spells, rfl, rfl, others⟩

/-- There is no token where there are no characters. -/
theorem eq_nil (lexes : Lexes offset [] tokens) : tokens = [] := by
  cases tokens with
  | nil => rfl
  | cons token tokens =>
      obtain ⟨gap, lexeme, rest, whole, -, spells, -⟩ := lexes.exists_first
      obtain ⟨c, chars, rfl, -⟩ := spells.exists_cons
      exact absurd whole (by simp)

/-- No token begins in front of the text. -/
theorem offset_le_start (lexes : Lexes offset chars tokens) : ∀ token ∈ tokens, offset ≤ token.start := by
  induction lexes with
  | done => exact List.forall_mem_nil _
  | token _ _ _ ih =>
      refine List.forall_mem_cons.2 ⟨Nat.le_add_right _ _, fun token member => ?_⟩
      exact (Nat.le_add_right _ _).trans ((Nat.le_add_right _ _).trans (ih token member))

/-- Each token stands behind those before it. -/
theorem pairwise (lexes : Lexes offset chars tokens) :
    tokens.Pairwise fun earlier later => earlier.stop ≤ later.start := by
  induction lexes with
  | done => exact .nil
  | token _ _ others ih => exact .cons others.offset_le_start ih

/-- Some of the tokens take up the beginning of the text, to the end of the last of them. -/
theorem exists_behind (lexes : Lexes offset chars (before ++ after)) :
    ∃ front back, chars = front ++ back ∧ Token.endOf offset before = offset + String.utf8Len front ∧
      Lexes (Token.endOf offset before) back after := by
  induction before generalizing offset chars with
  | nil => exact ⟨[], chars, rfl, rfl, lexes⟩
  | cons token before ih =>
      obtain ⟨gap, lexeme, rest, rfl, -, -, start, stop, others⟩ := lexes.exists_first
      obtain ⟨front, back, rfl, ends, further⟩ := ih others
      -- Behind the first token, the others end where they end on their own.
      have last : Token.endOf offset (token :: before) = Token.endOf token.stop before := by
        rw [Token.endOf, Token.endOf, List.getLast?_cons]
        cases before.getLast? <;> rfl
      refine ⟨gap ++ (lexeme ++ front), back, by simp only [List.append_assoc], ?_, last ▸ further⟩
      rw [last, ends, stop, start, String.utf8Len_append, String.utf8Len_append]
      omega

/-- The text begins with a gap, up to the first token or to the end. -/
theorem exists_gap (lexes : Lexes offset chars tokens) :
    ∃ gap rest, chars = gap ++ rest ∧ Gap gap rest ∧
      tokens.head?.elim (offset + String.utf8Len chars) Token.start = offset + String.utf8Len gap := by
  cases lexes with
  | done isGap => exact ⟨chars, [], (List.append_nil chars).symm, isGap, rfl⟩
  | token isGap _ _ => exact ⟨_, _, rfl, isGap, rfl⟩

end Lexes

namespace Token

variable {source : String}

/-- A token of a source text stands between its offsets. -/
theorem exists_lexeme {before after : List Token} {token : Token}
    (split : ofText source = before ++ token :: after) :
    ∃ lexeme rest : List Char, token.kind.Spells lexeme rest ∧ Lexes token.stop rest after ∧
      token.stop = token.start + String.utf8Len lexeme ∧
      StandsBetween source token.start token.stop (String.ofList lexeme) (String.ofList rest) := by
  obtain ⟨front, back, chars, ends, lexes⟩ := (split ▸ lexes_ofText source).exists_behind
  obtain ⟨gap, lexeme, rest, rfl, -, spells, start, stop, others⟩ := lexes.exists_first
  have whole : source.toList = (front ++ gap) ++ (lexeme ++ rest) := by
    rw [chars, List.append_assoc]
  have offset : token.start = String.utf8Len (front ++ gap) := by
    rw [start, ends, String.utf8Len_append, Nat.zero_add]
  refine ⟨lexeme, rest, spells, others, stop, ?_⟩
  rw [stop, offset]
  exact standsBetween_of_toList whole

/-- Each of the tokens of a source text stands between its offsets. -/
theorem exists_lexeme_of_mem {token : Token} (member : token ∈ ofText source) :
    ∃ lexeme rest : List Char, token.kind.Spells lexeme rest ∧
      token.stop = token.start + String.utf8Len lexeme ∧
        StandsBetween source token.start token.stop (String.ofList lexeme) (String.ofList rest) := by
  obtain ⟨before, after, split⟩ := List.append_of_mem member
  obtain ⟨lexeme, rest, spells, -, stop, stands⟩ := exists_lexeme split
  exact ⟨lexeme, rest, spells, stop, stands⟩

/-- The tokens of a source text cut it into lexemes and gaps. -/
theorem cut_ofText (source : String) : Cut source (ofText source) where
  nonempty token member := by
    obtain ⟨lexeme, rest, spells, stop, -⟩ := exists_lexeme_of_mem member
    rw [stop]
    exact Nat.lt_add_of_pos_right spells.utf8Len_pos
  ordered := (lexes_ofText source).pairwise
  gaps before after split := by
    obtain ⟨front, back, chars, ends, lexes⟩ := (split ▸ lexes_ofText source).exists_behind
    obtain ⟨gap, rest, rfl, isGap, stop⟩ := lexes.exists_gap
    have size : source.utf8ByteSize = endOf 0 before + String.utf8Len (gap ++ rest) := by
      rw [← String.utf8Len_toList, chars, String.utf8Len_append, ends, Nat.zero_add]
    refine ⟨String.ofList gap, String.ofList rest, ?_, ?_⟩
    · rw [beginningOf, size, stop, ends, Nat.zero_add]
      exact standsBetween_of_toList chars
    · rwa [String.toList_ofList, String.toList_ofList]
  words token member text isWord := by
    obtain ⟨lexeme, rest, spells, -, stands⟩ := exists_lexeme_of_mem member
    rw [isWord] at spells
    obtain ⟨rfl, ⟨-, inWord⟩, ends⟩ := spells
    refine ⟨String.ofList rest, ?_, ?_, ?_⟩
    · rwa [String.ofList_toList] at stands
    · rw [textBytes_eq]
      intro byte found
      obtain ⟨c, inText, inChar⟩ := List.mem_flatMap.1 found
      rw [ByteScanner.bytewise_isDelimiter c byte inChar, inWord c inText]
    · rwa [String.toList_ofList]
  unterminated before token after split isOpen := by
    obtain ⟨lexeme, rest, spells, others, -, front, whole, start, stop⟩ := exists_lexeme split
    rw [isOpen] at spells
    obtain ⟨written, -, -, rfl⟩ := spells
    refine ⟨others.eq_nil, ?_⟩
    rw [whole, String.utf8ByteSize_append, String.utf8ByteSize_append, start, stop]
    rfl

/-- The tokens of a source text cut it into lexemes and gaps. If the text is shorter than 4 GiB, asking for one
token after the other in its bytes comes to the end of the text and gives just these tokens. -/
theorem ofText_cuts_source (source : String) :
    Cut source (ofText source) ∧
      (source.utf8ByteSize < 2 ^ 32 →
        ByteScanner.Reads { offset := 0, rest := textBytes source }
          ((ofText source).map ByteScanner.ofToken)) :=
  ⟨cut_ofText source, ByteScanner.reads_ofText⟩

/-- A word of two bytes behind a quote mark, a comment with a bracket in it, and a literal without an end. -/
theorem ofText_cuts_source_multibyte :
    "\x27λ; (\n\"é".utf8ByteSize < 2 ^ 32 ∧
      Cut "\x27λ; (\n\"é" [⟨.quoteMark, 0, 1⟩, ⟨.atom "λ", 1, 3⟩, ⟨.unterminated, 7, 10⟩] ∧
        ByteScanner.Reads { offset := 0, rest := textBytes "\x27λ; (\n\"é" }
          [⟨.quoteMark, 0, 1⟩, ⟨.atom [0xCE, 0xBB], 1, 3⟩, ⟨.unterminated, 7, 10⟩] := by
  have short : "\x27λ; (\n\"é".utf8ByteSize < 2 ^ 32 := by
    decide +kernel
  have tokens : ofText "\x27λ; (\n\"é" =
      [⟨.quoteMark, 0, 1⟩, ⟨.atom "λ", 1, 3⟩, ⟨.unterminated, 7, 10⟩] := by
    decide +kernel
  have word : textBytes "λ" = [0xCE, 0xBB] := by
    decide +kernel
  obtain ⟨cut, reads⟩ := ofText_cuts_source "\x27λ; (\n\"é"
  have found := reads short
  rw [tokens] at cut found
  refine ⟨short, cut, ?_⟩
  rwa [← word]

end Token

end MiniScheme
