/-!
# Base 64

Which texts can be decoded as bytes in base 64: letters, digits, `+` and `/` stand for six bits
each, four of them make a group, and `=` fills up the last group. Other characters are passed over,
and nothing behind a group that was filled up counts.
-/

namespace Rulebook.Text

/-- Whether a character stands for six bits. -/
def isBase64Digit (c : Char) : Bool :=
  c.isAlphanum || c = '+' || c = '/'

/-- Whether a text completes the group that it begins in, of which `digits` characters have been
read and then `fills` signs that fill it up. A sign fills up only a group with two characters. -/
def completesGroups : (digits fills : Nat) → List Char → Bool
  | digits, _, [] => digits = 0
  | digits, fills, c :: rest =>
    if c = '=' then
      if digits < 2 then completesGroups digits fills rest
      else 4 ≤ digits + fills + 1 || completesGroups digits (fills + 1) rest
    else if isBase64Digit c then completesGroups ((digits + 1) % 4) 0 rest
    else completesGroups digits fills rest

/-- Whether a text can be decoded; it has to be ASCII. -/
def isBase64 (s : List Char) : Bool :=
  s.all (·.toNat < 128) && completesGroups 0 0 s

example : isBase64 "aGk=".toList = true := by decide

example : isBase64 "aGk".toList = false := by decide

end Rulebook.Text
