import MiniScheme.Text.Extending
import MiniScheme.Text.Unassigned

/-! # Printable characters

A character is printable when it stands as a mark of its own in a line of text: it is assigned, it is no
control or format character, no private one and no separator other than the space, and it does not extend
the character before it. The classes are those of Unicode 17, as lists of closed ranges. -/

namespace MiniScheme

namespace Printable

/-- The code points of the format characters. -/
def formats : List (Nat × Nat) :=
  [(0xAD, 0xAD), (0x600, 0x605), (0x61C, 0x61C), (0x6DD, 0x6DD), (0x70F, 0x70F), (0x890, 0x891),
    (0x8E2, 0x8E2), (0x180E, 0x180E), (0x200B, 0x200F), (0x202A, 0x202E), (0x2060, 0x2064),
    (0x2066, 0x206F), (0xFEFF, 0xFEFF), (0xFFF9, 0xFFFB), (0x110BD, 0x110BD), (0x110CD, 0x110CD),
    (0x13430, 0x1343F), (0x1BCA0, 0x1BCA3), (0x1D173, 0x1D17A), (0xE0001, 0xE0001),
    (0xE0020, 0xE007F)]

/-- The code points of the separators of words, lines and paragraphs, without the space. -/
def separators : List (Nat × Nat) :=
  [(0xA0, 0xA0), (0x1680, 0x1680), (0x2000, 0x200A), (0x2028, 0x2029), (0x202F, 0x202F),
    (0x205F, 0x205F), (0x3000, 0x3000)]

/-- The code points for private use. -/
def privateUse : List (Nat × Nat) :=
  [(0xE000, 0xF8FF), (0xF0000, 0xFFFFD), (0x100000, 0x10FFFD)]

/-- Whether a code point lies in one of the given ranges. -/
def inRanges (ranges : List (Nat × Nat)) (code : Nat) : Bool :=
  ranges.any fun range => range.1 ≤ code && code ≤ range.2

end Printable

/-- Whether a character has a visible mark of its own, or is the space. Below U+00A0 all characters
are controls but those from the space to the tilde. -/
def isPrintable (c : Char) : Bool :=
  if c.toNat < 0xA0 then 0x20 ≤ c.toNat && c.toNat < 0x7F
  else
    !([Printable.formats, Printable.separators, Printable.privateUse, Printable.extending,
      Printable.unassigned].any fun ranges => Printable.inRanges ranges c.toNat)

/-- Of the characters below U+00A0, those from the space to the tilde are printable. -/
theorem isPrintable_iff_of_toNat_lt {c : Char} (h : c.toNat < 0xA0) :
    isPrintable c = true ↔ 0x20 ≤ c.toNat ∧ c.toNat < 0x7F := by
  simp [isPrintable, h]

end MiniScheme
