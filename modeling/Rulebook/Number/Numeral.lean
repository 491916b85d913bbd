import Rulebook.Number.Nearest
import Rulebook.Text.DecimalDigit
import Rulebook.Text.Run

/-!
# Decimal numerals

A numeral is an optional sign, digits with an optional point (`12`, `12.`, `12.5`, `.5`), and an
optional exponent (`e3`, `E-3`). An `e` that no exponent follows is not part of the numeral.
-/

namespace Rulebook.Number

open Rulebook.Text

/-- A numeral's value `± digits · 10 ^ exponent`. -/
structure Numeral where
  negative : Bool
  digits : Nat
  exponent : Int
deriving DecidableEq, Repr

namespace Numeral

/-- The double nearest to a numeral.

Powers of ten past the double range are cut: `10 ^ 400` is already infinite, and `digits` has fewer
than `log2 digits + 1` bits, so `10 ^ (log2 digits + 1100)` below it nothing but zero is left. -/
def toFloat (x : Numeral) : Float :=
  signed x.negative <|
    if 0 ≤ x.exponent then nearestBits (x.digits * powerOfTen (min x.exponent.toNat 400)) 1
    else nearestBits x.digits (powerOfTen (min (-x.exponent).toNat (x.digits.log2 + 1100)))

/-! ## Reading a numeral -/

/-- An optional sign: whether it is a minus, and what follows. -/
def takeSign : List Char → Bool × List Char
  | '+' :: s => (false, s)
  | '-' :: s => (true, s)
  | s => (false, s)

/-- The digits in front, as `digit` has them, and what follows them. -/
def takeDigits (digit : Char → Bool) (s : List Char) : List Char × List Char :=
  (s.takeWhile digit, s.dropWhile digit)

/-- The whole digits, the digits after the point, and what follows; at least one digit. -/
def takeMantissa? (s : List Char) : Option ((List Char × List Char) × List Char) :=
  match takeDigits isDigit s with
  | ([], '.' :: s₁) =>
    match takeDigits isDigit s₁ with
    | ([], _) => none
    | (fraction, s₂) => some (([], fraction), s₂)
  | ([], _) => none
  | (whole, '.' :: s₁) =>
    let (fraction, s₂) := takeDigits isDigit s₁
    some ((whole, fraction), s₂)
  | (whole, s₁) => some ((whole, []), s₁)

/-- The exponent in front of a text and what follows it. -/
def takeExponent? (digit : Char → Bool) : List Char → Option (Int × List Char)
  | [] => none
  | c :: s =>
    if c = 'e' ∨ c = 'E' then
      (takeRun? digit (takeSign s).2).map fun (ds, rest) =>
        (if (takeSign s).1 then -(digitsValue ds : Int) else digitsValue ds, rest)
    else none

/-- The longest numeral in front of a text and what follows it. -/
def read? (s : List Char) : Option (Numeral × List Char) :=
  let (negative, s₁) := takeSign s
  match takeMantissa? s₁ with
  | none => none
  | some ((whole, fraction), s₂) =>
    let (exponent, s₃) := (takeExponent? isDigit s₂).getD (0, s₂)
    some (⟨negative, digitsValue (whole ++ fraction), exponent - fraction.length⟩, s₃)

/-- The numeral that a whole text writes. -/
def ofText? (s : List Char) : Option Numeral :=
  match read? s with
  | some (x, []) => some x
  | _ => none

/-! ## Laws -/

theorem length_takeSign_le (s : List Char) : (takeSign s).2.length ≤ s.length := by
  unfold takeSign
  split <;> simp

theorem takeDigits_append (digit : Char → Bool) (s : List Char) :
    (takeDigits digit s).1 ++ (takeDigits digit s).2 = s :=
  List.takeWhile_append_dropWhile

theorem length_takeDigits (digit : Char → Bool) (s : List Char) :
    (takeDigits digit s).1.length + (takeDigits digit s).2.length = s.length := by
  rw [← List.length_append, takeDigits_append]

/-- An exponent takes at least one character. -/
theorem length_takeExponent?_lt {digit : Char → Bool} {s rest : List Char} {e : Int}
    (h : takeExponent? digit s = some (e, rest)) : rest.length < s.length := by
  cases s with
  | nil => simp [takeExponent?] at h
  | cons c s =>
    rw [takeExponent?] at h
    split at h
    · obtain ⟨⟨ds, r⟩, hr, h⟩ := Option.map_eq_some_iff.1 h
      obtain ⟨_, rfl⟩ := Prod.mk.inj h
      have h₁ := length_takeRun?_lt hr
      have h₂ := length_takeSign_le s
      rw [List.length_cons]
      omega
    · simp at h

theorem length_takeExponent?_getD_le (digit : Char → Bool) (s : List Char) (e : Int) :
    ((takeExponent? digit s).getD (e, s)).2.length ≤ s.length := by
  cases h : takeExponent? digit s with
  | none => simp
  | some r => exact Nat.le_of_lt (length_takeExponent?_lt h)

theorem length_takeMantissa?_lt {s : List Char} {p : (List Char × List Char) × List Char}
    (h : takeMantissa? s = some p) : p.2.length < s.length := by
  have hd := length_takeDigits isDigit s
  unfold takeMantissa? at h
  split at h
  · rename_i s₁ heq
    have hd₁ := length_takeDigits isDigit s₁
    rw [heq] at hd
    split at h
    · simp at h
    · rename_i heq₁
      obtain rfl := Option.some.inj h
      rw [heq₁] at hd₁
      simp only [List.length_cons, List.length_nil] at *
      omega
  · simp at h
  · rename_i whole s₁ hne heq
    have hd₁ := length_takeDigits isDigit s₁
    rw [heq] at hd
    obtain rfl := Option.some.inj h
    show (takeDigits isDigit s₁).2.length < s.length
    simp only [List.length_cons] at hd
    omega
  · rename_i whole s₁ _ hne _ heq
    rw [heq] at hd
    obtain rfl := Option.some.inj h
    have : 0 < whole.length := List.length_pos_iff.2 hne
    show s₁.length < s.length
    simp only at hd
    omega

/-- A numeral takes at least one character. -/
theorem length_read?_lt {s : List Char} {x : Numeral} {r : List Char} (h : read? s = some (x, r)) :
    r.length < s.length := by
  unfold read? at h
  simp only at h
  split at h
  · simp at h
  · rename_i hm
    have h₁ := length_takeSign_le s
    have h₂ := length_takeMantissa?_lt hm
    obtain ⟨_, rfl⟩ := Prod.mk.inj (Option.some.inj h)
    rename_i s₂ _
    have h₃ := length_takeExponent?_getD_le isDigit s₂ 0
    simp only at *
    omega

end Numeral

end Rulebook.Number
