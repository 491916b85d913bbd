import Rulebook.Number.Nearest

/-!
# Shortest decimal of a double

The decimal with the fewest digits that reads back as a given double; of two such decimals the one
nearer to the double, and on a tie the even one. On each decimal grid only the two neighbours of
the double need a look: if any point of the grid reads back, one of these does.
-/

namespace Rulebook.Number

/-- A positive finite double as a ratio, from the bits of its magnitude. -/
def ratioOfBits (bits : Nat) : Nat × Nat :=
  let unit := 0x10000000000000
  let e := bits / unit
  let f := bits % unit
  let m := if e = 0 then f else f + unit
  let q : Int := (max e 1 : Nat) - 1075
  if 0 ≤ q then (m <<< q.toNat, 1) else (m, 1 <<< (-q).toNat)

/-- A ratio times a power of ten. -/
def scaleByTen (r : Nat × Nat) (e : Int) : Nat × Nat :=
  if 0 ≤ e then (r.1 * powerOfTen e.toNat, r.2) else (r.1, r.2 * powerOfTen (-e).toNat)

/-- The exponent `p` of the leading decimal digit: `10 ^ p ≤ r < 10 ^ (p + 1)`. -/
def leadingDecimalExponent (r : Nat × Nat) : Int :=
  -- log₁₀ 2 = 0.30103 to the precision that 1100 binary places need, so the guess is off by one
  let p := leadingExponent r.1 r.2 * 30103 / 100000
  let atLeast (p : Int) : Bool := let s := scaleByTen r (-p); s.2 ≤ s.1
  if atLeast (p + 1) then p + 1 else if atLeast p then p else p - 1

/-- Bits of the double nearest to `digits · 10 ^ e`. -/
def decimalBits (digits : Nat) (e : Int) : Nat :=
  let s := scaleByTen (digits, 1) e
  nearestBits s.1 s.2

/-- The neighbour of a double on the grid of the multiples of `10 ^ e` that reads back as it. -/
def neighbour? (bits : Nat) (e : Int) : Option Nat :=
  let s := scaleByTen (ratioOfBits bits) (-e)
  let below := s.1 / s.2
  let twice := 2 * (s.1 % s.2)
  -- where both neighbours read back, the nearer one is taken
  match decimalBits below e == bits, decimalBits (below + 1) e == bits with
  | true, false => some below
  | false, true => some (below + 1)
  | true, true =>
    some (if twice < s.2 || (twice == s.2 && below % 2 == 0) then below else below + 1)
  | false, false => none

/-- The shortest decimal `digits · 10 ^ e` of a positive finite double; 17 digits always do. -/
def shortestDecimal (bits : Nat) : Nat × Int :=
  let p := leadingDecimalExponent (ratioOfBits bits)
  -- from the coarsest grid on, so that the first hit has the fewest digits
  let grids : List Int := (List.range 17).map fun (n : Nat) => p - (n : Int)
  (grids.findSome? fun e => (neighbour? bits e).map (·, e)).getD (0, 0)

end Rulebook.Number
