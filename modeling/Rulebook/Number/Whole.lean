import Rulebook.Number.Numeral
import Rulebook.Text.Blank
import Rulebook.Text.Hex

/-!
# Numbers that fill a text

The number that a whole text writes, with blanks around it. Its digits may be those of any script.
A double may also be written as a word for infinity or for what is no number. An integer may have
the mark of its base in front of its digits.
-/

namespace Rulebook.Number

open Rulebook.Text

/-- Whether a character may stand around a number: a blank other than the information
separators. -/
def isPadding (c : Char) : Bool :=
  isBlank c && !(0x1C ≤ c.toNat && c.toNat ≤ 0x1F)

/-- A text without the blanks around it. -/
def trimPadding (s : List Char) : List Char :=
  ((s.dropWhile isPadding).reverse.dropWhile isPadding).reverse

/-- The double that a text writes. -/
def floatOfText? (s : List Char) : Option Float :=
  let number := trimPadding s
  let (negative, magnitude) := Numeral.takeSign number
  let word := magnitude.map Char.toLower
  if word = "inf".toList ∨ word = "infinity".toList then some (signed negative infinityBits)
  else if word = "nan".toList then some (0.0 / 0.0)
  else (Numeral.ofText? number).map (·.toFloat)

/-- The value of a digit: a decimal one of any script, or a letter up to `f`. -/
def digitOf? (c : Char) : Option Nat :=
  (hexValue? c).or (digitValue? c)

/-- The letter that marks a base behind a zero. -/
def baseMark? : Nat → Option Char
  | 2 => some 'b'
  | 8 => some 'o'
  | 16 => some 'x'
  | _ => none

/-- A text without the mark of a base. -/
def dropBaseMark (base : Nat) (s : List Char) : List Char :=
  match s with
  | zero :: mark :: digits =>
    if digitOf? zero = some 0 ∧ baseMark? base = some mark.toLower then digits else s
  | _ => s

/-- The number that digits write in a base; there has to be one. -/
def naturalOfDigits? (base : Nat) (digits : List Char) : Option Nat :=
  if digits.isEmpty then none
  else digits.foldlM (fun n c => do
    let d ← digitOf? c
    if d < base then some (base * n + d) else none) 0

/-- The integer that a text writes in a base. -/
def intOfText? (base : Nat) (s : List Char) : Option Int :=
  let (negative, digits) := Numeral.takeSign (trimPadding s)
  (naturalOfDigits? base (dropBaseMark base digits)).map fun n =>
    if negative then -(n : Int) else n

example : intOfText? 16 " 0x1F ".toList = some 31 := by decide

example : intOfText? 2 "-1".toList = some (-1) := by decide

example : intOfText? 10 "1 0".toList = none := by decide

end Rulebook.Number
