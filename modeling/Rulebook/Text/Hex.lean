/-!
# Hexadecimal digits
-/

namespace Rulebook.Text

/-- The value of a hexadecimal digit of either case. -/
def hexValue? (c : Char) : Option Nat :=
  if c.isDigit then some (c.toNat - 48)
  else if 'a' ≤ c ∧ c ≤ 'f' then some (c.toNat - 87)
  else if 'A' ≤ c ∧ c ≤ 'F' then some (c.toNat - 55)
  else none

/-- The hexadecimal digit of a number below sixteen, in lower case. -/
def hexDigit (n : Nat) : Char :=
  if n < 10 then Char.ofNat (48 + n) else Char.ofNat (87 + n)

/-- The digits of a number, as many as asked for and the last ones if there are more. -/
def hexDigits (places n : Nat) : List Char :=
  (List.range places).map fun i => hexDigit ((n >>> (4 * (places - 1 - i))) % 16)

/-- The number that a fixed count of digits writes in front of a text. -/
def hexNumber? (places : Nat) (s : List Char) : Option Nat :=
  let digits := s.take places
  if digits.length < places then none
  else digits.foldlM (fun n c => (hexValue? c).map (16 * n + ·)) 0

end Rulebook.Text
