import MiniScheme.Proofs.TokenSpans

/-! # Tokens of string literals

Reading a string literal loses nothing. The content of its token is what the characters between the quotes
denote, and the bytes that are collected for it one at a time are valid UTF-8, namely that of the content. The
literal that is written for a string is read as that string, whatever stands behind it. -/

namespace MiniScheme

namespace StringLiteral

/-- Whether a literal stands between two offsets of a source, of which the characters denote a content and the
bytes are read as valid UTF-8 of it, up to the closing quote. -/
def StandsFor (source : String) (start stop : Nat) (content : String) : Prop :=
  ∃ (written rest : String) (bytes : List UInt8),
    StandsBetween source start stop ("\"" ++ written ++ "\"") rest ∧
      Denotes written.toList content.toList ∧
        ByteScanner.readLiteral (start + 1) (textBytes (written ++ "\"" ++ rest)) =
            some (bytes, { offset := stop, rest := textBytes rest }) ∧
          ofBytes? bytes = some content

/-- The bytes behind the quote in front of a literal give the bytes of what it denotes. -/
theorem readLiteral_textBytes {written : List Char} {content : String}
    (denotes : Denotes written content.toList) (offset : Nat) (rest : List Char) :
    ByteScanner.readLiteral (offset + 1) (textBytes (String.ofList written ++ "\"" ++ String.ofList rest)) =
      some (textBytes content,
        { offset := offset + String.utf8Len ('"' :: written ++ ['"'])
          rest := textBytes (String.ofList rest) }) := by
  have chars : (String.ofList written ++ "\"" ++ String.ofList rest).toList = written ++ '"' :: rest := by
    simp
  rw [textBytes_eq, chars, ByteScanner.readLiteral_closed denotes, utf8Len_lexeme, textBytes_eq content,
    textBytes_eq, String.toList_ofList]
  rfl

end StringLiteral

namespace Token

variable {source : String} {token : Token}

/-- The token of a string literal stands for it. -/
theorem standsFor_of_mem_ofText (member : token ∈ ofText source) {content : String}
    (isLiteral : token.kind = .str content) :
    StringLiteral.StandsFor source token.start token.stop content := by
  obtain ⟨lexeme, rest, spells, stop, stands⟩ := exists_lexeme_of_mem member
  rw [isLiteral] at spells
  obtain ⟨written, rfl, denotes⟩ := spells
  refine ⟨String.ofList written, String.ofList rest, textBytes content, ?_, ?_, ?_, ?_⟩
  · have lexeme : "\"" ++ String.ofList written ++ "\"" = String.ofList ('"' :: written ++ ['"']) := by
      rw [String.ofList_append, String.ofList_cons]
      rfl
    rwa [lexeme]
  · rwa [String.toList_ofList]
  · rw [stop]
    exact StringLiteral.readLiteral_textBytes denotes token.start rest
  · exact ofBytes?_textBytes content

/-- The literal that is written for a string is the first token of a text that begins with it. -/
theorem exists_ofText_encode_append (content rest : String) :
    ∃ others, ofText (StringLiteral.encode content ++ rest) =
      { kind := .str content, start := 0, stop := (StringLiteral.encode content).utf8ByteSize } :: others := by
  obtain ⟨others, lexes⟩ := Lexes.exists_tokens
    (0 + String.utf8Len [] + String.utf8Len (StringLiteral.encode content).toList) rest.toList
  have found := Lexes.token (.nil _) (StringLiteral.spells_encode content rest.toList) lexes
  rw [List.nil_append, ← String.toList_append] at found
  refine ⟨others, (ofText_eq_iff.2 found).trans ?_⟩
  rw [String.utf8Len_nil, Nat.zero_add, Nat.zero_add, String.utf8Len_toList]

/-- The bytes of the literal that is written for a string are read as the token of the string, up to the
closing quote and no further. -/
theorem next_encode_append (content rest : String) :
    ByteScanner.next { offset := 0, rest := textBytes (StringLiteral.encode content ++ rest) } =
      some ({ kind := .str (textBytes content)
              start := 0
              stop := ByteScanner.spanOffset (StringLiteral.encode content).utf8ByteSize },
        { offset := (StringLiteral.encode content).utf8ByteSize, rest := textBytes rest }) := by
  have read := ByteScanner.next_spells (.nil _) (StringLiteral.spells_encode content rest.toList) 0
  rw [List.nil_append, ← String.toList_append, String.utf8Len_nil, Nat.zero_add, Nat.zero_add,
    String.utf8Len_toList] at read
  rw [textBytes_eq, textBytes_eq rest]
  exact read

/-- If the literal is shorter than 4 GiB, then the bytes give the same token as the characters. -/
theorem next_encode_append_of_lt (content rest : String)
    (short : (StringLiteral.encode content).utf8ByteSize < 2 ^ 32) :
    ByteScanner.next { offset := 0, rest := textBytes (StringLiteral.encode content ++ rest) } =
      some (ByteScanner.ofToken
          { kind := .str content, start := 0, stop := (StringLiteral.encode content).utf8ByteSize },
        { offset := (StringLiteral.encode content).utf8ByteSize, rest := textBytes rest }) := by
  rw [next_encode_append, ByteScanner.spanOffset_of_lt short]
  rfl

/-- Reading a string literal loses nothing: the token of a literal in a source stands for what the characters
between the quotes denote, and the bytes collected for it are valid UTF-8. And reading inverts writing: a text
that begins with the literal written for a string has the token of the string first, which ends at the closing
quote. The bytes tell this end in 32 bits, which is no difference if the literal is shorter than 4 GiB. -/
theorem ofText_literals (source content rest : String) :
    (∀ token ∈ ofText source, ∀ text, token.kind = .str text →
        StringLiteral.StandsFor source token.start token.stop text) ∧
      (∃ others, ofText (StringLiteral.encode content ++ rest) =
        { kind := .str content
          start := 0
          stop := (StringLiteral.encode content).utf8ByteSize } :: others) ∧
      ByteScanner.next { offset := 0, rest := textBytes (StringLiteral.encode content ++ rest) } =
        some ({ kind := .str (textBytes content)
                start := 0
                stop := ByteScanner.spanOffset (StringLiteral.encode content).utf8ByteSize },
          { offset := (StringLiteral.encode content).utf8ByteSize, rest := textBytes rest }) ∧
      ((StringLiteral.encode content).utf8ByteSize < 2 ^ 32 →
        ByteScanner.next { offset := 0, rest := textBytes (StringLiteral.encode content ++ rest) } =
          some (ByteScanner.ofToken
              { kind := .str content, start := 0, stop := (StringLiteral.encode content).utf8ByteSize },
            { offset := (StringLiteral.encode content).utf8ByteSize, rest := textBytes rest })) :=
  ⟨fun _ member _ isLiteral => standsFor_of_mem_ofText member isLiteral,
    exists_ofText_encode_append content rest, next_encode_append content rest,
    next_encode_append_of_lt content rest⟩

/-- A letter of two bytes behind a backslash, and a string of a quote and a backslash in front of a bracket. -/
theorem ofText_literals_escapes :
    StringLiteral.StandsFor "(\"\\é\\n\")" 1 8 "é\n" ∧
      (∃ others, ofText (StringLiteral.encode "\"\\" ++ ")") = ⟨.str "\"\\", 0, 6⟩ :: others) ∧
        ByteScanner.next { offset := 0, rest := textBytes (StringLiteral.encode "\"\\" ++ ")") } =
          some (ByteScanner.ofToken ⟨.str "\"\\", 0, 6⟩, { offset := 6, rest := textBytes ")" }) := by
  have tokens : ofText "(\"\\é\\n\")" = [⟨.opening, 0, 1⟩, ⟨.str "é\n", 1, 8⟩, ⟨.closing, 8, 9⟩] := by
    decide +kernel
  have size : (StringLiteral.encode "\"\\").utf8ByteSize = 6 := by
    decide +kernel
  obtain ⟨stands, found, -, same⟩ := ofText_literals "(\"\\é\\n\")" "\"\\" ")"
  rw [tokens] at stands
  rw [size] at found same
  exact ⟨stands ⟨.str "é\n", 1, 8⟩ (.tail _ (.head _)) "é\n" rfl, found, same (by decide)⟩

end Token

end MiniScheme
