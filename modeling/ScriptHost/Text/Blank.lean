/-!
White space and characters that have no visible form, as two Unicode properties.
-/

namespace ScriptHost.Text

/-- The Unicode property `White_Space`. -/
def isBlank (c : Char) : Bool :=
  let n := c.toNat
  (0x09 ≤ n && n ≤ 0x0d) || n = 0x20 || n = 0x85 || n = 0xa0 || n = 0x1680 ||
  (0x2000 ≤ n && n ≤ 0x200a) || n = 0x2028 || n = 0x2029 || n = 0x202f || n = 0x205f || n = 0x3000

/-- Every character that core counts as white space is blank. -/
theorem isBlank_of_isWhitespace {c : Char} (h : c.isWhitespace = true) : isBlank c = true := by
  simp [Char.isWhitespace] at h
  rcases h with ((h | h) | h) | h <;> subst h <;> decide

/-- No character is left once blanks are set aside. -/
def allBlank (s : String) : Bool := s.toList.all isBlank

/-- Ranges of characters that are written as code points inside a quoted text: controls, marks that
combine with the character before them, formatting marks, blanks other than the space, and code
points that stand for nothing. -/
def unprintableRanges : List (Nat × Nat) :=
  [(0x00, 0x1f), (0x7f, 0xa0), (0xad, 0xad), (0x300, 0x36f), (0x378, 0x379), (0x483, 0x489),
   (0x591, 0x5bd), (0x600, 0x605), (0x610, 0x61a), (0x61c, 0x61c), (0x64b, 0x65f), (0x6dd, 0x6dd),
   (0x70f, 0x70f), (0x1680, 0x1680), (0x180e, 0x180e), (0x1ab0, 0x1aff), (0x1dc0, 0x1dff),
   (0x2000, 0x200f), (0x2028, 0x202f), (0x205f, 0x206f), (0x20d0, 0x20f0), (0x3000, 0x3000),
   (0x302a, 0x302f), (0x3099, 0x309a), (0xd7fc, 0xf8ff), (0xfe00, 0xfe0f), (0xfe20, 0xfe2f),
   (0xfeff, 0xfeff), (0xfff0, 0xfffb), (0xfffe, 0xffff), (0xe0000, 0x10ffff)]

/-- A character is written as it is inside a quoted text. -/
def isPrintable (c : Char) : Bool :=
  unprintableRanges.all fun (lo, hi) => c.toNat < lo || hi < c.toNat

end ScriptHost.Text
