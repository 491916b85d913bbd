/-!
# Nearest double

The double nearest to a ratio of natural numbers, by exact arithmetic: the ratio is brought to a
53 bit integer times a power of two, the remainder decides the rounding, and a tie goes to the
even neighbour. Very small ratios lose bits as subnormal numbers do, very large ones are infinite.
-/

namespace Rulebook.Number

/-- Quotient rounded to the nearest integer, a tie going to the even one. -/
def divideToEven (num den : Nat) : Nat :=
  let q := num / den
  let twice := 2 * (num % den)
  if twice < den || (twice == den && q % 2 == 0) then q else q + 1

/-- Exponent `e` of the leading bit of `num / den`, so that `2 ^ e ≤ num / den < 2 ^ (e + 1)`. -/
def leadingExponent (num den : Nat) : Int :=
  let e : Int := (num.log2 : Int) - (den.log2 : Int)
  let reached := if 0 ≤ e then den <<< e.toNat ≤ num else den ≤ num <<< (-e).toNat
  if reached then e else e - 1

/-- A power of ten. -/
def powerOfTen (n : Nat) : Nat :=
  Nat.pow 10 n

/-- Bits of positive infinity; a larger pattern means nothing here. -/
def infinityBits : Nat := 0x7FF0000000000000

/-- Bits of the double nearest to `num / den`, where `den` is not zero.

The unit in the last place is `2 ^ q`. An integer multiple `m` of the unit has the bits
`(q + 1074) * 2 ^ 52 + m`, also when `m` rounds up to `2 ^ 53` and when it is subnormal. -/
def nearestBits (num den : Nat) : Nat :=
  if num = 0 then 0
  else
    let q : Int := max (leadingExponent num den - 52) (-1074)
    let m :=
      if 0 ≤ q then divideToEven num (den <<< q.toNat) else divideToEven (num <<< (-q).toNat) den
    min infinityBits (((q + 1074).toNat <<< 52) + m)

/-- The bit of the sign. -/
def signBit : Nat := 0x8000000000000000

/-- The double with a sign and the bits of its magnitude. -/
def signed (negative : Bool) (bits : Nat) : Float :=
  Float.ofBits (UInt64.ofNat (if negative then bits + signBit else bits))

/-- The double nearest to an integer, or nothing if the integer is too large for a finite one. -/
def ofInt? (n : Int) : Option Float :=
  let bits := nearestBits n.natAbs 1
  if bits = infinityBits then none else some (signed (n < 0) bits)

/-! ## Laws -/

/-- Rounding misses the quotient by at most one half. -/
theorem divideToEven_error (num : Nat) {den : Nat} (h : 0 < den) :
    2 * num ≤ 2 * (den * divideToEven num den) + den ∧
      2 * (den * divideToEven num den) ≤ 2 * num + den := by
  have hdiv := Nat.div_add_mod num den
  have hmod := Nat.mod_lt num h
  unfold divideToEven
  simp only
  split
  · rename_i hc
    simp only [Bool.or_eq_true, Bool.and_eq_true, decide_eq_true_eq, beq_iff_eq] at hc
    omega
  · rename_i hc
    simp only [Bool.or_eq_true, Bool.and_eq_true, decide_eq_true_eq, beq_iff_eq, not_or] at hc
    rw [Nat.mul_add]
    omega

end Rulebook.Number
