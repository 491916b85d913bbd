import Mathlib.Algebra.Order.Ring.Nat
import Mathlib.Tactic.Common
import Rulebook.Number.Nearest

/-!
# Integers that are too large

Which integers have no nearest finite double: those from `(2 ^ 54 - 1) * 2 ^ 970` on, which lies
halfway between the greatest finite double and the power of two behind it. A tie there goes to the
power of two, whose last bit is even, and that is no finite double.
-/

namespace Rulebook.Number

variable {num den k n : Nat}

/-! ## Rounding -/

/-- What rounds past an odd number is the half behind it and more. -/
theorem odd_lt_divideToEven_iff (hden : 0 < den) (hk : k % 2 = 1) :
    k < divideToEven num den ↔ den * (2 * k + 1) ≤ 2 * num := by
  have hdiv := Nat.div_add_mod num den
  have hmod := Nat.mod_lt num hden
  have hexpand : den * (2 * k + 1) = 2 * (den * k) + den := by
    rw [Nat.mul_add, Nat.mul_one, Nat.mul_left_comm]
  rw [hexpand]
  constructor
  · intro h
    have herror := (divideToEven_error num hden).2
    have hle : den * k + den ≤ den * divideToEven num den := Nat.mul_le_mul_left den h
    omega
  · intro h
    have hq : k ≤ num / den := by
      rw [Nat.le_div_iff_mul_le hden, Nat.mul_comm]
      omega
    rcases Nat.eq_or_lt_of_le hq with hq | hq
    · -- at the odd number itself the remainder is half and more, and a tie goes up
      rw [← hq] at hdiv
      unfold divideToEven
      simp only
      split
      · rename_i hc
        simp only [Bool.or_eq_true, Bool.and_eq_true, decide_eq_true_eq, beq_iff_eq] at hc
        omega
      · omega
    · unfold divideToEven
      simp only
      split <;> omega

theorem divideToEven_one (n : Nat) : divideToEven n 1 = n := by
  simp [divideToEven, Nat.mod_one]

/-! ## The nearest double of an integer -/

/-- The 53 bits of the nearest double of an integer, or the power of two behind them. -/
def significand (n : Nat) : Nat :=
  if 52 ≤ n.log2 then divideToEven n (2 ^ (n.log2 - 52)) else n * 2 ^ (52 - n.log2)

theorem leadingExponent_one (h : n ≠ 0) : leadingExponent n 1 = n.log2 := by
  have hle := Nat.log2_self_le h
  have hone : Nat.log2 1 = 0 := by decide
  unfold leadingExponent
  simp [hone, Nat.one_shiftLeft, hle]

theorem nearestBits_one (h : n ≠ 0) :
    nearestBits n 1 = min infinityBits ((n.log2 + 1022) * 2 ^ 52 + significand n) := by
  have hmax : max ((n.log2 : Int) - 52) (-1074) = (n.log2 : Int) - 52 := by omega
  have hexponent : ((n.log2 : Int) - 52 + 1074).toNat = n.log2 + 1022 := by omega
  unfold nearestBits significand
  rw [if_neg h]
  simp only [leadingExponent_one h, hmax, hexponent, Nat.shiftLeft_eq, Nat.one_mul]
  by_cases hlog : 52 ≤ n.log2
  · have hshift : ((n.log2 : Int) - 52).toNat = n.log2 - 52 := by omega
    rw [if_pos (by omega), if_pos hlog, hshift]
  · have hshift : (-((n.log2 : Int) - 52)).toNat = 52 - n.log2 := by omega
    rw [if_neg (by omega), if_neg hlog, hshift, divideToEven_one]

theorem le_significand (h : n ≠ 0) : 2 ^ 52 ≤ significand n := by
  have hle := Nat.log2_self_le h
  unfold significand
  split
  · rename_i hlog
    have hpos : 0 < 2 ^ (n.log2 - 52) := Nat.two_pow_pos _
    have hsplit : 2 ^ n.log2 = 2 ^ (n.log2 - 52) * 2 ^ 52 := by
      rw [← pow_add, Nat.sub_add_cancel hlog]
    have hlt : 2 ^ 52 - 1 < divideToEven n (2 ^ (n.log2 - 52)) := by
      rw [odd_lt_divideToEven_iff hpos (by decide)]
      omega
    omega
  · rename_i hlog
    calc 2 ^ 52 = 2 ^ n.log2 * 2 ^ (52 - n.log2) := by
          rw [← pow_add, Nat.add_sub_cancel' (by omega)]
      _ ≤ n * 2 ^ (52 - n.log2) := Nat.mul_le_mul_right _ hle

theorem significand_le (n : Nat) : significand n ≤ 2 ^ 53 := by
  have hlt : n < 2 ^ (n.log2 + 1) := Nat.lt_log2_self
  unfold significand
  split
  · rename_i hlog
    have hpos : 0 < 2 ^ (n.log2 - 52) := Nat.two_pow_pos _
    have hsplit : 2 ^ (n.log2 + 1) = 2 ^ (n.log2 - 52) * 2 ^ 53 := by
      rw [← pow_add]
      congr 1
      omega
    have herror := (divideToEven_error n hpos).2
    by_contra hgt
    have hle : 2 ^ (n.log2 - 52) * (2 ^ 53 + 1) ≤
        2 ^ (n.log2 - 52) * divideToEven n (2 ^ (n.log2 - 52)) :=
      Nat.mul_le_mul_left _ (by omega)
    omega
  · rename_i hlog
    calc n * 2 ^ (52 - n.log2) ≤ 2 ^ (n.log2 + 1) * 2 ^ (52 - n.log2) :=
          Nat.mul_le_mul_right _ (Nat.le_of_lt hlt)
      _ = 2 ^ 53 := by
          rw [← pow_add]
          congr 1
          omega

/-! ## The bound -/

/-- An integer has no finite nearest double. -/
def TooLarge (n : Int) : Prop :=
  (2 ^ 54 - 1) * 2 ^ 970 ≤ n.natAbs

theorem nearestBits_one_eq_infinityBits_iff :
    nearestBits n 1 = infinityBits ↔ (2 ^ 54 - 1) * 2 ^ 970 ≤ n := by
  have hinfinity : infinityBits = 2047 * 2 ^ 52 := by decide
  by_cases hzero : n = 0
  · subst hzero
    have hzero : nearestBits 0 1 = 0 := rfl
    rw [hzero, hinfinity]
    omega
  · have hle := Nat.log2_self_le hzero
    have hlt : n < 2 ^ (n.log2 + 1) := Nat.lt_log2_self
    have hlow := le_significand hzero
    have hhigh := significand_le n
    rw [nearestBits_one hzero, hinfinity]
    -- by the leading bit: below the greatest doubles, among them, or above
    rcases Nat.lt_trichotomy n.log2 1023 with hlog | hlog | hlog
    · have hexponent : n.log2 + 1 ≤ 53 + 970 := by omega
      have hpow := pow_le_pow_right₀ (show 1 ≤ 2 by decide) hexponent
      rw [pow_add 2 53 970] at hpow
      omega
    · have hden : 2 ^ (n.log2 - 52) = 2 * 2 ^ 970 := by
        rw [show n.log2 - 52 = 1 + 970 by rw [hlog], pow_add 2 1 970, pow_one]
      -- here the rounding decides, and the greatest significand is odd
      have hround : 2 ^ 53 - 1 < divideToEven n (2 * 2 ^ 970) ↔
          2 * 2 ^ 970 * (2 * (2 ^ 53 - 1) + 1) ≤ 2 * n :=
        odd_lt_divideToEven_iff (by omega) (by decide)
      have hsignificand : significand n = divideToEven n (2 * 2 ^ 970) := by
        rw [significand, if_pos (by omega), hden]
      rw [hsignificand] at hlow hhigh ⊢
      rw [hlog]
      omega
    · have hexponent : 54 + 970 ≤ n.log2 := by omega
      have hpow := pow_le_pow_right₀ (show 1 ≤ 2 by decide) hexponent
      rw [pow_add 2 54 970] at hpow
      omega

/-- The conversion of an integer fails exactly for those. -/
theorem ofInt?_eq_none_iff {n : Int} : ofInt? n = none ↔ TooLarge n := by
  unfold ofInt? TooLarge
  rw [← nearestBits_one_eq_infinityBits_iff]
  simp only
  split <;> simp_all

end Rulebook.Number
