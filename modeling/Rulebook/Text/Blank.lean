/-!
# Blank characters

Which characters count as white space in a rule text, and the two ways of taking them off.
The class is the one of Unicode, with the four information separators beside it.
-/

namespace Rulebook.Text

/-- Code point ranges, both ends included, of the blank characters. -/
def blankRanges : List (Nat × Nat) :=
  [(0x09, 0x0D), (0x1C, 0x20), (0x85, 0x85), (0xA0, 0xA0), (0x1680, 0x1680), (0x2000, 0x200A),
    (0x2028, 0x2029), (0x202F, 0x202F), (0x205F, 0x205F), (0x3000, 0x3000)]

/-- Whether a character is white space. -/
def isBlank (c : Char) : Bool :=
  blankRanges.any fun r => r.1 ≤ c.toNat && c.toNat ≤ r.2

/-- The text from its first character that is not blank. -/
def skipBlanks (s : List Char) : List Char :=
  s.dropWhile isBlank

/-! ## Laws -/

theorem length_skipBlanks_le (s : List Char) : (skipBlanks s).length ≤ s.length :=
  (List.dropWhile_suffix isBlank).length_le

/-- What stands behind the first character that is not blank is shorter. -/
theorem length_lt_of_skipBlanks_eq_cons {c : Char} {s t : List Char} (h : skipBlanks s = c :: t) :
    t.length < s.length := by
  have hle := length_skipBlanks_le s
  rw [h, List.length_cons] at hle
  exact hle

end Rulebook.Text
