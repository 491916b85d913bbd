import Rulebook.Number.Shortest

/-!
# Text of a double

How the shortest decimal of a double is laid out: with a point among its digits where the leading
digit's exponent is small, else as digits and a signed exponent of at least two digits. What two
formats write differently is held in one record.
-/

namespace Rulebook.Number

/-- The choices of a number format. -/
structure Layout where
  /-- Least exponent of the leading digit that is written with a point alone. -/
  leastPositional : Int := -4
  /-- Greatest such exponent. -/
  mostPositional : Int := 15
  /-- Whether a single digit before an exponent is followed by `.0`. -/
  pointBeforeExponent : Bool
  infinity : String
  notANumber : String

/-- The layout of numbers in plain text: `0.5`, `1.0`, `1e+16`, `inf`. -/
def Layout.plain : Layout where
  pointBeforeExponent := false
  infinity := "inf"
  notANumber := "nan"

namespace Layout

/-- The decimal digits of a natural number. -/
def digitsOf (n : Nat) : List Char :=
  Nat.toDigits 10 n

/-- Digits without the zeros at their end. -/
def dropTrailingZeros (ds : List Char) : List Char :=
  (ds.reverse.dropWhile (· == '0')).reverse

/-- Digits with the point after the first `point` of them, zeros filling any gap. -/
def positional (ds : List Char) (point : Int) : List Char :=
  if point ≤ 0 then
    '0' :: '.' :: List.replicate (-point).toNat '0' ++ ds
  else
    let n := point.toNat
    let fraction := ds.drop n
    ds.take n ++ List.replicate (n - ds.length) '0' ++
      '.' :: (if fraction.isEmpty then ['0'] else fraction)

/-- Digits with the point after the first, and the exponent. -/
def scientific (l : Layout) (ds : List Char) (exponent : Int) : List Char :=
  let fraction := ds.drop 1
  let mantissa :=
    if fraction.isEmpty then ds ++ (if l.pointBeforeExponent then ['.', '0'] else [])
    else ds.take 1 ++ '.' :: fraction
  let es := digitsOf exponent.natAbs
  mantissa ++ 'e' :: (if exponent < 0 then '-' else '+') ::
    List.replicate (2 - es.length) '0' ++ es

/-- The text of a magnitude from its bits. -/
def magnitude (l : Layout) (bits : Nat) : List Char :=
  if bits > infinityBits then l.notANumber.toList
  else if bits = infinityBits then l.infinity.toList
  else if bits = 0 then ['0', '.', '0']
  else
    let (digits, e) := shortestDecimal bits
    let all := digitsOf digits
    let exponent := e + all.length - 1
    let ds := dropTrailingZeros all
    if l.leastPositional ≤ exponent ∧ exponent ≤ l.mostPositional then positional ds (exponent + 1)
    else l.scientific ds exponent

/-- The text of a double; zero keeps its sign, a NaN has none. -/
def render (l : Layout) (x : Float) : String :=
  let bits := x.toBits.toNat
  let body := l.magnitude (bits % signBit)
  let negative := signBit ≤ bits && bits % signBit ≤ infinityBits
  String.ofList (if negative then '-' :: body else body)

end Layout

end Rulebook.Number
