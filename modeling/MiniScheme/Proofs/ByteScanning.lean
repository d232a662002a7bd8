import Mathlib.Data.List.TakeWhile
import MiniScheme.Proofs.Lexemes
import MiniScheme.Proofs.Utf8

/-! # Scanning bytes

A scanner that walks over the bytes of a text in UTF-8 and reads one token whenever it is asked for one need
not know where characters begin: it compares bytes with the codes of blanks, brackets, quotes and backslashes
only. It finds the tokens that are found character by character. So the bytes of a word are those of whole
characters, and so are the bytes that it collects for the content of a string literal, although it drops a
backslash in front of a single byte. -/

namespace MiniScheme

namespace ByteScanner

/-- What a token is, with the bytes of a content or a word. -/
inductive Kind where
  /-- An opening bracket. -/
  | opening
  /-- A closing bracket. -/
  | closing
  /-- The quote mark in front of a datum. -/
  | quoteMark
  /-- A string literal. -/
  | str (content : List UInt8)
  /-- A word. -/
  | atom (text : List UInt8)
  /-- A string literal that the text ends inside of. -/
  | unterminated

/-- A token found in bytes. -/
structure Found where
  /-- What the token is. -/
  kind : Kind
  /-- The offset of the first byte. -/
  start : Nat
  /-- The offset after the last byte. -/
  stop : Nat

/-- Where the scanner is. -/
structure Cursor where
  /-- The number of bytes read. -/
  offset : Nat
  /-- The bytes that are left. -/
  rest : List UInt8

/-- An offset in 32 bits; greater ones are cut down to the greatest. -/
def spanOffset (offset : Nat) : Nat :=
  min offset 0xFFFFFFFF

/-- The token between two cursors. -/
def found (kind : Kind) (start stop : Cursor) : Found :=
  { kind, start := spanOffset start.offset, stop := spanOffset stop.offset }

/-- Skips the bytes that pass a test. -/
def skipWhile (test : Char → Bool) (cursor : Cursor) : Cursor :=
  { offset := cursor.offset + (cursor.rest.takeWhile fun byte => test (codeChar byte)).length
    rest := cursor.rest.dropWhile fun byte => test (codeChar byte) }

/-- Skipping leaves no more bytes than there were. -/
theorem length_skipWhile_le (test : Char → Bool) (cursor : Cursor) :
    (skipWhile test cursor).rest.length ≤ cursor.rest.length :=
  (List.dropWhile_sublist _).length_le

/-- Skipping a first byte leaves less. -/
theorem length_skipWhile_lt {test : Char → Bool} {cursor : Cursor} {c : Char}
    (first : cursor.rest.head?.map codeChar = some c) (passes : test c = true) :
    (skipWhile test cursor).rest.length < cursor.rest.length := by
  obtain ⟨offset, rest⟩ := cursor
  cases rest with
  | nil => cases first
  | cons byte rest =>
      have skipped : test (codeChar byte) = true := Option.some.inj first ▸ passes
      rw [skipWhile, List.dropWhile_cons, if_pos skipped]
      exact Nat.lt_succ_of_le (List.dropWhile_sublist _).length_le

/-- Skips blanks and comments. -/
def skipGap (cursor : Cursor) : Cursor :=
  let next := skipWhile isBlank cursor
  if _comment : next.rest.head?.map codeChar = some ';' then
    skipGap (skipWhile (fun c => !decide (c = '\n')) next)
  else next
termination_by cursor.rest.length
decreasing_by
  exact Nat.lt_of_lt_of_le (length_skipWhile_lt _comment (by decide)) (length_skipWhile_le isBlank cursor)

/-- The byte that a backslash and this byte stand for. -/
def unescapeByte (byte : UInt8) : UInt8 :=
  if codeChar byte = 'n' then 10 else if codeChar byte = 't' then 9 else byte

/-- Reads the bytes behind a quote to the closing one: the bytes of the content, and where it ends. -/
def readLiteral (offset : Nat) : List UInt8 → Option (List UInt8 × Cursor)
  | [] => none
  | byte :: rest =>
      if codeChar byte = '"' then some ([], { offset := offset + 1, rest })
      else if codeChar byte = '\\' then
        match rest with
        | [] => none
        | escaped :: rest =>
            (readLiteral (offset + 2) rest).map fun (content, stop) =>
              (unescapeByte escaped :: content, stop)
      else (readLiteral (offset + 1) rest).map fun (content, stop) => (byte :: content, stop)

/-- Reads the token that begins here; there is none at the end of the text. -/
def tokenAt (start : Cursor) : Option (Found × Cursor) :=
  match start.rest with
  | [] => none
  | byte :: rest =>
      let stop : Cursor := { offset := start.offset + 1, rest }
      if codeChar byte = '(' then some (found .opening start stop, stop)
      else if codeChar byte = ')' then some (found .closing start stop, stop)
      else if codeChar byte = '\x27' then some (found .quoteMark start stop, stop)
      else if codeChar byte = '"' then
        match readLiteral stop.offset rest with
        | some (content, stop) => some (found (.str content) start stop, stop)
        | none =>
            let stop : Cursor := { offset := stop.offset + rest.length, rest := [] }
            some (found .unterminated start stop, stop)
      else
        let text := rest.takeWhile fun byte => !isDelimiter (codeChar byte)
        let stop := skipWhile (!isDelimiter ·) stop
        some (found (.atom (byte :: text)) start stop, stop)

/-- Reads the next token, if there is one. -/
def next (cursor : Cursor) : Option (Found × Cursor) :=
  tokenAt (skipGap cursor)

/-- Whether reading one token after the other comes to the end of the text and gives these tokens. -/
inductive Reads : Cursor → List Found → Prop where
  /-- There is no further token. -/
  | done {cursor : Cursor} (ends : next cursor = none) : Reads cursor []
  /-- A token in front of others. -/
  | token {cursor stop : Cursor} {first : Found} {others : List Found}
      (read : next cursor = some (first, stop)) (further : Reads stop others) :
      Reads cursor (first :: others)

/-! ## Gaps -/

variable {test : Char → Bool} {chars gap rest written content : List Char} {offset : Nat}

/-- The cursor in front of characters. -/
def atChars (offset : Nat) (chars : List Char) : Cursor :=
  { offset, rest := utf8 chars }

/-- Skipping a first byte. -/
theorem skipWhile_cons {byte : UInt8} (passes : test (codeChar byte) = true) (offset : Nat)
    (rest : List UInt8) :
    skipWhile test { offset, rest := byte :: rest } = skipWhile test { offset := offset + 1, rest } := by
  simp only [skipWhile, List.takeWhile_cons, List.dropWhile_cons, passes, if_true, List.length_cons]
  rw [Nat.add_assoc, Nat.add_comm 1]

/-- With a bytewise test, characters are skipped. -/
theorem skipWhile_atChars (bytewise : Bytewise test) (offset : Nat) (chars : List Char) :
    skipWhile test (atChars offset chars) =
      atChars (offset + String.utf8Len (chars.takeWhile test)) (chars.dropWhile test) := by
  rw [skipWhile, atChars, bytewise.takeWhile_utf8, bytewise.dropWhile_utf8, length_utf8]
  rfl

/-- With a bytewise test, characters that pass are skipped up to one that fails. -/
theorem skipWhile_append (bytewise : Bytewise test) {front : List Char}
    (passes : ∀ c ∈ front, test c = true) (stops : ∀ c ∈ rest.head?, test c = false) (offset : Nat) :
    skipWhile test (atChars offset (front ++ rest)) = atChars (offset + String.utf8Len front) rest := by
  obtain ⟨taken, left⟩ := span_append passes stops
  rw [skipWhile_atChars bytewise, taken, left]

/-- A blank is an ASCII character. -/
theorem bytewise_isBlank : Bytewise isBlank := by
  refine .of_ascii fun c blank => ?_
  simp only [isBlank, Bool.or_eq_true, decide_eq_true_eq] at blank
  rcases blank with (((rfl | rfl) | rfl) | rfl) | rfl
  all_goals decide

/-- A delimiter is an ASCII character. -/
theorem bytewise_isDelimiter : Bytewise isDelimiter := by
  refine .of_ascii fun c delimiter => ?_
  simp only [isDelimiter, isBlank, Bool.or_eq_true, decide_eq_true_eq] at delimiter
  rcases delimiter with ((((((((rfl | rfl) | rfl) | rfl) | rfl) | rfl) | rfl) | rfl) | rfl) | rfl
  all_goals decide

/-- Comparing with an ASCII character. -/
theorem bytewise_eq {d : Char} (ascii : d.toNat < 128) : Bytewise (fun c => decide (c = d)) := by
  refine .of_ascii fun c same => ?_
  rwa [of_decide_eq_true same]

/-- A byte of a character is the code of an ASCII character exactly when the two are the same. -/
theorem codeChar_eq_iff {c d : Char} (ascii : d.toNat < 128) {byte : UInt8}
    (member : byte ∈ String.utf8EncodeChar c) : codeChar byte = d ↔ c = d :=
  decide_eq_decide.1 (bytewise_eq ascii c byte member)

/-- The bytes of characters begin with one of the first character. -/
theorem exists_utf8_eq_cons (c : Char) (chars : List Char) :
    ∃ byte ∈ String.utf8EncodeChar c, ∃ others, utf8 (c :: chars) = byte :: others := by
  obtain ⟨byte, others, bytes, -⟩ := exists_bytes_eq_cons c
  refine ⟨byte, bytes ▸ List.mem_cons_self, others ++ utf8 chars, ?_⟩
  rw [← List.cons_append, ← bytes]
  exact List.flatMap_cons

/-- One step of skipping a gap. -/
theorem skipGap_eq (cursor : Cursor) :
    skipGap cursor =
      if (skipWhile isBlank cursor).rest.head?.map codeChar = some ';' then
        skipGap (skipWhile (fun c => !decide (c = '\n')) (skipWhile isBlank cursor))
      else skipWhile isBlank cursor := by
  rw [skipGap]
  rfl

/-- What does not begin like a gap is not skipped. -/
theorem skipGap_of_not_gap (begins : ∀ c ∈ rest.head?, isBlank c = false ∧ c ≠ ';') (offset : Nat) :
    skipGap (atChars offset rest) = atChars offset rest := by
  have stays : skipWhile isBlank (atChars offset rest) = atChars offset rest :=
    @skipWhile_append _ rest bytewise_isBlank [] (List.forall_mem_nil _)
      (fun c first => (begins c first).1) offset
  rw [skipGap_eq, stays, if_neg]
  cases rest with
  | nil => nofun
  | cons c rest =>
      obtain ⟨byte, member, others, bytes⟩ := exists_utf8_eq_cons c rest
      rw [atChars, bytes]
      intro comment
      exact (begins c rfl).2 ((codeChar_eq_iff (by decide) member).1 (Option.some.inj comment))

/-- A gap is skipped. -/
theorem skipGap_gap (isGap : Gap gap rest) (begins : ∀ c ∈ rest.head?, isBlank c = false ∧ c ≠ ';')
    (offset : Nat) :
    skipGap (atChars offset (gap ++ rest)) = atChars (offset + String.utf8Len gap) rest := by
  induction isGap generalizing offset with
  | nil => exact skipGap_of_not_gap begins offset
  | @blank c gap rest blank _ ih =>
      -- Both cursors are in front of the same character once blanks have been skipped.
      have same : skipWhile isBlank (atChars offset (c :: gap ++ rest)) =
          skipWhile isBlank (atChars (offset + c.utf8Size) (gap ++ rest)) := by
        rw [skipWhile_atChars bytewise_isBlank, skipWhile_atChars bytewise_isBlank, List.cons_append,
          List.takeWhile_cons_of_pos blank, List.dropWhile_cons_of_pos blank, String.utf8Len_cons,
          Nat.add_assoc, Nat.add_comm c.utf8Size]
      rw [skipGap_eq, same, ← skipGap_eq, ih begins, String.utf8Len_cons, Nat.add_assoc,
        Nat.add_comm c.utf8Size]
  | @comment text gap rest oneLine ends _ ih =>
      have stays : skipWhile isBlank (atChars offset (';' :: text ++ (gap ++ rest))) =
          atChars offset (';' :: text ++ (gap ++ rest)) := skipWhile_atChars bytewise_isBlank offset _
      have inLine : ∀ c ∈ ';' :: text, (!decide (c = '\n')) = true := by
        intro c member
        have other : c ≠ '\n' := by
          rintro rfl
          rcases List.mem_cons.1 member with semicolon | found
          · exact absurd semicolon (by decide)
          · exact oneLine found
        rw [decide_eq_false other]
        rfl
      have skipped := skipWhile_append (bytewise_eq (by decide)).not inLine
        (fun c first => by rw [ends c first]; rfl) offset
      rw [List.append_assoc, skipGap_eq, stays, if_pos (by rfl), skipped, ih begins, String.utf8Len_append,
        Nat.add_assoc]

/-! ## String literals -/

/-- Reading a byte that is neither a quote nor a backslash. -/
theorem readLiteral_plain {byte : UInt8} (notQuote : codeChar byte ≠ '"')
    (notBackslash : codeChar byte ≠ '\\') (offset : Nat) (rest : List UInt8) :
    readLiteral offset (byte :: rest) =
      (readLiteral (offset + 1) rest).map fun (content, stop) => (byte :: content, stop) := by
  rw [readLiteral.eq_def]
  simp only [if_neg notQuote, if_neg notBackslash]

/-- Reading a backslash and the byte behind it. -/
theorem readLiteral_backslash (escaped : UInt8) (offset : Nat) (rest : List UInt8) :
    readLiteral offset (utf8 ['\\'] ++ escaped :: rest) =
      (readLiteral (offset + 2) rest).map fun (content, stop) =>
        (unescapeByte escaped :: content, stop) := by
  rw [readLiteral.eq_def]
  rfl

/-- Bytes that are neither a quote nor a backslash are content. -/
theorem readLiteral_append {bytes : List UInt8}
    (plain : ∀ byte ∈ bytes, codeChar byte ≠ '"' ∧ codeChar byte ≠ '\\') (offset : Nat)
    (rest : List UInt8) :
    readLiteral offset (bytes ++ rest) =
      (readLiteral (offset + bytes.length) rest).map fun (content, stop) => (bytes ++ content, stop) := by
  induction bytes generalizing offset with
  | nil => exact (congrFun Option.map_id (readLiteral offset rest)).symm
  | cons byte bytes ih =>
      rw [List.forall_mem_cons] at plain
      rw [List.cons_append, readLiteral_plain plain.1.1 plain.1.2, ih plain.2, Option.map_map,
        List.length_cons, Nat.add_assoc, Nat.add_comm 1]
      rfl

/-- The bytes of one character of a content. -/
theorem readLiteral_char {c : Char} (notQuote : c ≠ '"') (notBackslash : c ≠ '\\') (offset : Nat)
    (chars : List Char) :
    readLiteral offset (utf8 (c :: chars)) =
      (readLiteral (offset + c.utf8Size) (utf8 chars)).map fun (content, stop) =>
        (String.utf8EncodeChar c ++ content, stop) := by
  have plain : ∀ byte ∈ String.utf8EncodeChar c, codeChar byte ≠ '"' ∧ codeChar byte ≠ '\\' :=
    fun byte member => ⟨mt (codeChar_eq_iff (by decide) member).1 notQuote,
      mt (codeChar_eq_iff (by decide) member).1 notBackslash⟩
  rw [← String.length_utf8EncodeChar, ← readLiteral_append plain]
  exact congrArg (readLiteral offset) List.flatMap_cons

/-- The bytes of a character behind a backslash: the first one stands for itself or for a blank, and the
others, if there are any, are content. -/
theorem readLiteral_escaped (c : Char) (offset : Nat) (chars : List Char) :
    readLiteral offset (utf8 ('\\' :: c :: chars)) =
      (readLiteral (offset + 1 + c.utf8Size) (utf8 chars)).map fun (content, stop) =>
        (String.utf8EncodeChar (StringLiteral.unescape c) ++ content, stop) := by
  by_cases newline : c = 'n'
  · subst newline
    exact readLiteral_backslash 110 offset (utf8 chars)
  by_cases tab : c = 't'
  · subst tab
    exact readLiteral_backslash 116 offset (utf8 chars)
  obtain ⟨first, others, bytes, upper⟩ := exists_bytes_eq_cons c
  have member : first ∈ String.utf8EncodeChar c := bytes ▸ List.mem_cons_self
  have stands : unescapeByte first = first := by
    rw [unescapeByte, if_neg (mt (codeChar_eq_iff (by decide) member).1 newline),
      if_neg (mt (codeChar_eq_iff (by decide) member).1 tab)]
  have plain : ∀ byte ∈ others, codeChar byte ≠ '"' ∧ codeChar byte ≠ '\\' := fun byte further =>
    ⟨codeChar_ne (upper byte further) (by decide), codeChar_ne (upper byte further) (by decide)⟩
  have split : utf8 ('\\' :: c :: chars) = utf8 ['\\'] ++ first :: (others ++ utf8 chars) := by
    rw [← List.cons_append, ← bytes]
    rfl
  have length : offset + 2 + others.length = offset + 1 + c.utf8Size := by
    rw [← String.length_utf8EncodeChar, bytes, List.length_cons]
    omega
  rw [split, readLiteral_backslash, stands, readLiteral_append plain, Option.map_map, length,
    StringLiteral.unescape_of_ne newline tab, bytes]
  rfl

/-- The bytes that denote a content are read as its bytes, in front of whatever is read behind them. -/
theorem readLiteral_denotes (denotes : StringLiteral.Denotes written content) (offset : Nat)
    (chars : List Char) :
    readLiteral offset (utf8 (written ++ chars)) =
      (readLiteral (offset + String.utf8Len written) (utf8 chars)).map fun (more, stop) =>
        (utf8 content ++ more, stop) := by
  induction denotes using StringLiteral.Denotes.induction_escaped generalizing offset with
  | nil => exact (congrFun Option.map_id (readLiteral offset (utf8 chars))).symm
  | @plain c written content notQuote notBackslash _ ih =>
      have bytes : utf8 (c :: content) = String.utf8EncodeChar c ++ utf8 content := List.flatMap_cons
      rw [List.cons_append, readLiteral_char notQuote notBackslash, ih, Option.map_map, bytes,
        String.utf8Len_cons, Nat.add_assoc, Nat.add_comm c.utf8Size]
      simp only [Function.comp_def, List.append_assoc]
  | @escaped written content c _ ih =>
      have bytes : utf8 (StringLiteral.unescape c :: content) =
          String.utf8EncodeChar (StringLiteral.unescape c) ++ utf8 content := List.flatMap_cons
      have length : offset + 1 + c.utf8Size + String.utf8Len written =
          offset + String.utf8Len ('\\' :: c :: written) := by
        rw [String.utf8Len_cons, String.utf8Len_cons]
        show _ = offset + (String.utf8Len written + c.utf8Size + 1)
        omega
      rw [List.cons_append, List.cons_append, readLiteral_escaped, ih, Option.map_map, bytes, length]
      simp only [Function.comp_def, List.append_assoc]

/-- A literal is read up to its closing quote. -/
theorem readLiteral_closed (denotes : StringLiteral.Denotes written content) (offset : Nat)
    (rest : List Char) :
    readLiteral offset (utf8 (written ++ '"' :: rest)) =
      some (utf8 content, atChars (offset + String.utf8Len written + 1) rest) := by
  have closed (offset : Nat) : readLiteral offset (utf8 ('"' :: rest)) =
      some ([], atChars (offset + 1) rest) := by
    rw [readLiteral.eq_def]
    rfl
  rw [readLiteral_denotes denotes, closed, Option.map_some]
  simp only [List.append_nil]

/-- Where a literal is left open, it is not read. -/
theorem readLiteral_leftOpen (leftOpen : StringLiteral.LeftOpen chars) (offset : Nat) :
    readLiteral offset (utf8 chars) = none := by
  obtain ⟨written, content, denotes, rfl | rfl⟩ := leftOpen
  · have read := readLiteral_denotes denotes offset []
    rw [List.append_nil] at read
    exact read
  · exact readLiteral_denotes denotes offset ['\\']

/-! ## Tokens -/

/-- The kind of a token, with the bytes of its content or word. -/
def ofKind : Token.Kind → Kind
  | .opening => .opening
  | .closing => .closing
  | .quoteMark => .quoteMark
  | .str content => .str (textBytes content)
  | .atom text => .atom (textBytes text)
  | .unterminated => .unterminated

/-- A token, with the bytes of its content or word. -/
def ofToken (token : Token) : Found :=
  { kind := ofKind token.kind, start := token.start, stop := token.stop }

/-- Behind a quote, a literal is read. -/
theorem tokenAt_quote (offset : Nat) (chars : List Char) :
    tokenAt (atChars offset ('"' :: chars)) =
      match readLiteral (offset + 1) (utf8 chars) with
      | some (content, stop) => some (found (.str content) (atChars offset ('"' :: chars)) stop, stop)
      | none =>
          let stop : Cursor := { offset := offset + 1 + (utf8 chars).length, rest := [] }
          some (found .unterminated (atChars offset ('"' :: chars)) stop, stop) := rfl

/-- A word is read up to the next delimiter. -/
theorem tokenAt_word {text : String} (isWord : IsWord text) (ends : Boundary rest) (offset : Nat) :
    tokenAt (atChars offset (text.toList ++ rest)) =
      some (found (.atom (textBytes text)) (atChars offset (text.toList ++ rest))
          (atChars (offset + String.utf8Len text.toList) rest),
        atChars (offset + String.utf8Len text.toList) rest) := by
  obtain ⟨nonempty, inWord⟩ := isWord
  have passes : ∀ c ∈ text.toList, (!isDelimiter c) = true := fun c member => by rw [inWord c member]; rfl
  have stops : ∀ c ∈ rest.head?, (!isDelimiter c) = false := by
    cases rest with
    | nil => nofun
    | cons d rest =>
        intro c first
        obtain rfl := Option.some.inj first
        rw [show isDelimiter d = true from ends]
        rfl
  have skipped := skipWhile_append bytewise_isDelimiter.not passes stops offset
  have taken := bytewise_isDelimiter.not.takeWhile_utf8 (text.toList ++ rest)
  rw [(span_append passes stops).1] at taken
  -- The first byte is no delimiter, so that it makes no difference where the search for one begins.
  obtain ⟨c, chars, split⟩ := List.exists_cons_of_ne_nil nonempty
  obtain ⟨byte, member, others, bytes⟩ := exists_utf8_eq_cons c (chars ++ rest)
  rw [← List.cons_append, ← split] at bytes
  have inByte : isDelimiter (codeChar byte) = false :=
    (bytewise_isDelimiter c byte member).trans (inWord c (by rw [split]; exact List.mem_cons_self))
  have inText : (!isDelimiter (codeChar byte)) = true := by rw [inByte]; rfl
  have ne {d : Char} (delimiter : isDelimiter d = true) : codeChar byte ≠ d := by
    rintro rfl
    rw [inByte] at delimiter
    cases delimiter
  rw [bytes, List.takeWhile_cons, if_pos inText] at taken
  rw [atChars, bytes, skipWhile_cons inText] at skipped
  rw [tokenAt, atChars, bytes]
  simp only [if_neg (ne (show isDelimiter '(' = true from rfl)),
    if_neg (ne (show isDelimiter ')' = true from rfl)), if_neg (ne (show isDelimiter '\x27' = true from rfl)),
    if_neg (ne (show isDelimiter '"' = true from rfl)), skipped, taken, textBytes_eq]

/-- In front of a lexeme, its token is read. -/
theorem tokenAt_spells {kind : Token.Kind} {lexeme : List Char} (spells : kind.Spells lexeme rest)
    (offset : Nat) :
    tokenAt (atChars offset (lexeme ++ rest)) =
      some (found (ofKind kind) (atChars offset (lexeme ++ rest))
          (atChars (offset + String.utf8Len lexeme) rest),
        atChars (offset + String.utf8Len lexeme) rest) := by
  cases kind with
  | opening | closing | quoteMark =>
      obtain rfl : lexeme = _ := spells
      rfl
  | str content =>
      obtain ⟨written, rfl, denotes⟩ := spells
      rw [StringLiteral.utf8Len_lexeme, List.append_assoc, List.cons_append, tokenAt_quote,
        List.singleton_append, readLiteral_closed denotes, ← textBytes_eq]
      rfl
  | atom text =>
      obtain ⟨rfl, isWord, ends⟩ := spells
      exact tokenAt_word isWord ends offset
  | unterminated =>
      obtain ⟨written, rfl, leftOpen, rfl⟩ := spells
      have length : offset + String.utf8Len ('"' :: written) = offset + 1 + (utf8 written).length := by
        rw [length_utf8, String.utf8Len_cons]
        show offset + (String.utf8Len written + 1) = _
        omega
      rw [List.append_nil, length, tokenAt_quote, readLiteral_leftOpen leftOpen]
      rfl

/-- Behind a gap, the token of a lexeme is next. -/
theorem next_spells {kind : Token.Kind} {lexeme : List Char} (isGap : Gap gap (lexeme ++ rest))
    (spells : kind.Spells lexeme rest) (offset : Nat) :
    next (atChars offset (gap ++ (lexeme ++ rest))) =
      some (found (ofKind kind) (atChars (offset + String.utf8Len gap) (lexeme ++ rest))
          (atChars (offset + String.utf8Len gap + String.utf8Len lexeme) rest),
        atChars (offset + String.utf8Len gap + String.utf8Len lexeme) rest) := by
  have begins : ∀ c ∈ (lexeme ++ rest).head?, isBlank c = false ∧ c ≠ ';' := by
    obtain ⟨c, chars, rfl, notBlank, notComment⟩ := spells.exists_cons
    intro d first
    obtain rfl := Option.some.inj first
    exact ⟨notBlank, notComment⟩
  rw [next, skipGap_gap isGap begins, tokenAt_spells spells]

/-- An offset that 32 bits hold is not cut down. -/
theorem spanOffset_of_lt {offset : Nat} (short : offset < 2 ^ 32) : spanOffset offset = offset :=
  Nat.min_eq_left (Nat.le_of_lt_succ short)

/-- A token between offsets that 32 bits hold keeps them. -/
theorem found_atChars {start stop : Nat} (inOrder : start ≤ stop) (short : stop < 2 ^ 32) (kind : Kind)
    (chars rest : List Char) :
    found kind (atChars start chars) (atChars stop rest) = { kind, start, stop } := by
  rw [found, atChars, atChars, spanOffset_of_lt (Nat.lt_of_le_of_lt inOrder short), spanOffset_of_lt short]

/-- Reading one token after the other gives the tokens whose lexemes the text is made of. -/
theorem reads_lexes {tokens : List Token} (lexes : Lexes offset chars tokens)
    (short : offset + String.utf8Len chars < 2 ^ 32) :
    Reads (atChars offset chars) (tokens.map ofToken) := by
  induction lexes with
  | @done offset gap isGap =>
      have skipped := skipGap_gap isGap (by nofun) offset
      rw [List.append_nil] at skipped
      refine .done ?_
      rw [next, skipped]
      rfl
  | @token offset gap lexeme rest kind tokens isGap spells _ ih =>
      rw [String.utf8Len_append, String.utf8Len_append] at short
      refine .token ?_ (ih (by omega))
      rw [next_spells isGap spells, found_atChars (Nat.le_add_right _ _) (by omega)]
      rfl

/-- Reading one token after the other in the bytes of a text shorter than 4 GiB comes to the end of the text
and gives the tokens of the text. -/
theorem reads_ofText {source : String} (short : source.utf8ByteSize < 2 ^ 32) :
    Reads { offset := 0, rest := textBytes source } ((Token.ofText source).map ofToken) := by
  rw [textBytes_eq]
  refine reads_lexes (Token.lexes_ofText source) ?_
  rwa [Nat.zero_add, String.utf8Len_toList]

end ByteScanner

end MiniScheme
