import Mathlib.Data.String.Basic

/-! # Bytes of a text

In UTF-8 a character of ASCII is one byte, its code, and any other character is several bytes that are no codes
of ASCII characters. So a test that only ASCII characters pass, or one that all others pass, tells the same of
a character and of each of its bytes, and a text may be searched byte by byte with such a test. -/

namespace MiniScheme

/-- The bytes of a text in UTF-8. -/
def textBytes (text : String) : List UInt8 :=
  text.toUTF8.data.toList

/-- The bytes of characters in UTF-8. -/
def utf8 (chars : List Char) : List UInt8 :=
  chars.flatMap String.utf8EncodeChar

/-- The character that a byte is the code of. -/
def codeChar (byte : UInt8) : Char :=
  Char.ofNat byte.toNat

/-- The bytes of a text are those of its characters. -/
theorem textBytes_eq (text : String) : textBytes text = utf8 text.toList := by
  rw [textBytes, String.toUTF8_eq_toByteArray, ← String.utf8Encode_toList, List.utf8Encode,
    List.data_toByteArray]
  rfl

/-- The text that bytes are, if they are valid UTF-8. -/
def ofBytes? (bytes : List UInt8) : Option String :=
  String.fromUTF8? { data := { toList := bytes } }

/-- The bytes of a text are valid UTF-8. -/
theorem ofBytes?_textBytes (text : String) : ofBytes? (textBytes text) = some text := by
  rw [ofBytes?, String.fromUTF8?]
  exact dif_pos text.isValidUTF8

/-- The bytes of characters and of more characters. -/
theorem utf8_append (chars more : List Char) : utf8 (chars ++ more) = utf8 chars ++ utf8 more :=
  List.flatMap_append

/-- The number of bytes of characters. -/
theorem length_utf8 (chars : List Char) : (utf8 chars).length = String.utf8Len chars := by
  induction chars with
  | nil => rfl
  | cons c chars ih =>
      rw [← List.singleton_append, utf8_append, List.length_append, ih, String.utf8Len_append]
      simp [utf8]

/-- A character is one byte, which is its code, or the bytes are no codes of ASCII characters and neither is
its own. -/
theorem utf8EncodeChar_ascii_or_not (c : Char) :
    c.toNat < 128 ∧ String.utf8EncodeChar c = [UInt8.ofNat c.toNat] ∨
      128 ≤ c.toNat ∧ ∀ byte ∈ String.utf8EncodeChar c, 128 ≤ byte.toNat := by
  have code : c.val.toNat = c.toNat := rfl
  have upper {n k : Nat} (low : 128 ≤ k) (fits : n + k < 256) : 128 ≤ (UInt8.ofNat (n + k)).toNat := by
    rw [UInt8.toNat_ofNat', Nat.mod_eq_of_lt fits]
    omega
  unfold String.utf8EncodeChar
  simp only [code]
  split
  · exact .inl ⟨by omega, rfl⟩
  -- Each of several bytes has its upper bit set.
  · refine .inr ⟨by omega, ?_⟩
    split
    · simp only [List.forall_mem_cons]
      exact ⟨upper (by decide) (by omega), upper (by decide) (by omega), List.forall_mem_nil _⟩
    split
    · simp only [List.forall_mem_cons]
      exact ⟨upper (by decide) (by omega), upper (by decide) (by omega), upper (by decide) (by omega),
        List.forall_mem_nil _⟩
    · simp only [List.forall_mem_cons]
      exact ⟨upper (by decide) (by omega), upper (by decide) (by omega), upper (by decide) (by omega),
        upper (by decide) (by omega), List.forall_mem_nil _⟩

/-- A character has a first byte, and further ones are no codes of ASCII characters. -/
theorem exists_bytes_eq_cons (c : Char) :
    ∃ first others, String.utf8EncodeChar c = first :: others ∧ ∀ byte ∈ others, 128 ≤ byte.toNat := by
  rcases utf8EncodeChar_ascii_or_not c with ⟨-, bytes⟩ | ⟨-, upper⟩
  · exact ⟨_, [], bytes, List.forall_mem_nil _⟩
  · have nonempty : String.utf8EncodeChar c ≠ [] := by
      intro empty
      have length := String.length_utf8EncodeChar c
      rw [empty] at length
      exact absurd c.utf8Size_pos (by simp [← length])
    obtain ⟨first, others, bytes⟩ := List.exists_cons_of_ne_nil nonempty
    rw [bytes, List.forall_mem_cons] at upper
    exact ⟨first, others, bytes, upper.2⟩

/-- The byte of an ASCII character is its code. -/
theorem codeChar_ofNat {c : Char} (ascii : c.toNat < 128) : codeChar (UInt8.ofNat c.toNat) = c := by
  rw [codeChar, UInt8.toNat_ofNat', Nat.mod_eq_of_lt (by omega), Char.ofNat_toNat]

/-- The code of a character that a byte is the code of. -/
theorem toNat_codeChar (byte : UInt8) : (codeChar byte).toNat = byte.toNat := by
  have small := byte.toNat_lt
  have valid : byte.toNat.isValidChar := .inl (by omega)
  rw [codeChar, Char.ofNat, dif_pos valid]
  rfl

/-- A byte with its upper bit set is no code of an ASCII character. -/
theorem codeChar_ne {byte : UInt8} (upper : 128 ≤ byte.toNat) {c : Char} (ascii : c.toNat < 128) :
    codeChar byte ≠ c := by
  rintro rfl
  rw [toNat_codeChar] at ascii
  omega

/-! ## Tests -/

/-- Whether a test tells the same of a character and of each of its bytes. -/
def Bytewise (test : Char → Bool) : Prop :=
  ∀ c, ∀ byte ∈ String.utf8EncodeChar c, test (codeChar byte) = test c

namespace Bytewise

variable {test : Char → Bool}

/-- A test that only ASCII characters pass. -/
theorem of_ascii (ascii : ∀ c, test c = true → c.toNat < 128) : Bytewise test := by
  intro c byte member
  have fails {d : Char} (other : 128 ≤ d.toNat) : test d = false :=
    Bool.eq_false_iff.2 fun passes => absurd (ascii d passes) (by omega)
  rcases utf8EncodeChar_ascii_or_not c with ⟨small, bytes⟩ | ⟨large, bytes⟩
  · rw [bytes, List.mem_singleton] at member
    rw [member, codeChar_ofNat small]
  · rw [fails large, fails]
    rw [toNat_codeChar]
    exact bytes byte member

/-- A test that a bytewise one fails. -/
theorem not (bytewise : Bytewise test) : Bytewise fun c => !test c :=
  fun c byte member => congrArg (!·) (bytewise c byte member)

/-- The bytes in front of the first one that fails the test are those of the characters in front of the first
one that fails it. -/
theorem takeWhile_utf8 (bytewise : Bytewise test) (chars : List Char) :
    (utf8 chars).takeWhile (fun byte => test (codeChar byte)) = utf8 (chars.takeWhile test) := by
  induction chars with
  | nil => rfl
  | cons c chars ih =>
      obtain ⟨first, others, bytes, -⟩ := exists_bytes_eq_cons c
      have split : utf8 (c :: chars) = String.utf8EncodeChar c ++ utf8 chars := List.flatMap_cons
      cases passes : test c with
      | true =>
          rw [split, List.takeWhile_append_of_pos fun byte member => (bytewise c byte member).trans passes,
            ih, List.takeWhile_cons_of_pos passes]
          rfl
      | false =>
          have fails := (bytewise c first (bytes ▸ List.mem_cons_self)).trans passes
          rw [split, bytes, List.cons_append, List.takeWhile_cons, fails, List.takeWhile_cons, passes]
          rfl

/-- So are the bytes behind. -/
theorem dropWhile_utf8 (bytewise : Bytewise test) (chars : List Char) :
    (utf8 chars).dropWhile (fun byte => test (codeChar byte)) = utf8 (chars.dropWhile test) := by
  -- What is taken in front is the same on both sides.
  refine (List.append_right_inj (utf8 (chars.takeWhile test))).1 ?_
  rw [← utf8_append, List.takeWhile_append_dropWhile, ← bytewise.takeWhile_utf8,
    List.takeWhile_append_dropWhile]

end Bytewise

end MiniScheme
