import Rulebook.Number.Whole
import Rulebook.Text.Base64
import Rulebook.Value
import Rulebook.Yaml.Tag
import Rulebook.Yaml.Timestamp

/-!
# Values of scalars

The value of a scalar's text under the tag of the scalar. Underscores in numbers do not count. Parts
of a number between colons are its places to the base sixty; the places of an integer are exact,
those of a float are doubles.
-/

namespace Rulebook.Yaml

/-- Why a text has no value. -/
inductive ReadFault where
  /-- The text is not of the format. -/
  | malformed
  /-- The worth of a place of a float is too large for a double. -/
  | overflow
  /-- A scalar has the tag for something that its text does not write. -/
  | noValue
deriving DecidableEq, Repr

/-- What is there, or else a text that is not of the format. -/
def orMalformed {α : Type} : Option α → Except ReadFault α
  | some a => .ok a
  | none => .error .malformed

/-- What a text writes, or else a scalar without a value. -/
def orNoValue {α : Type} : Option α → Except ReadFault α
  | some a => .ok a
  | none => .error .noValue

namespace ScalarValue

/-- The value of a truth value's written form, in any case. -/
def bool? (s : List Char) : Option Bool :=
  let low := s.map Char.toLower
  if low ∈ ["yes".toList, "true".toList, "on".toList] then some true
  else if low ∈ ["no".toList, "false".toList, "off".toList] then some false
  else none

/-- Text without underscores. -/
def withoutUnderscores (s : List Char) : List Char :=
  s.filter (· ≠ '_')

/-- The parts of a text between colons. -/
def colonParts : List Char → List (List Char)
  | [] => [[]]
  | c :: rest =>
    match colonParts rest with
    | [] => [[c]]
    | part :: parts => if c = ':' then [] :: part :: parts else (c :: part) :: parts

/-- The integer that decimal digits write, of which there may be 4300. -/
def decimal? (s : List Char) : Option Int :=
  if s.countP (fun c => (Number.digitOf? c).isSome) ≤ 4300 then Number.intOfText? 10 s else none

/-- The value of an integer without its sign. -/
def magnitude? (s : List Char) : Option Int :=
  match s with
  | ['0'] => some 0
  | '0' :: 'b' :: digits => Number.intOfText? 2 digits
  | '0' :: 'x' :: digits => Number.intOfText? 16 digits
  | '0' :: _ => Number.intOfText? 8 s
  | _ =>
    if s.contains ':' then
      ((colonParts s).mapM decimal?).map fun places =>
        places.foldl (fun n place => 60 * n + place) 0
    else decimal? s

/-- The value of an integer. -/
def int? (s : List Char) : Option Int :=
  let (negative, rest) := Number.Numeral.takeSign (withoutUnderscores s)
  (magnitude? rest).map fun n => if negative then -n else n

example : int? "1:-30".toList = some 30 := by decide

example : int? "-0b11".toList = some (-3) := by decide

example : int? "0o17".toList = some 15 := by decide

/-- The sum of some places, the last one first, each times the power of sixty that it is worth. -/
def sumPlaces (sum : Float) (worth : Nat) : List Float → Except ReadFault Float
  | [] => .ok sum
  | place :: places =>
    match Number.ofInt? worth with
    | some factor => sumPlaces (sum + place * factor) (worth * 60) places
    | none => .error .overflow

/-- The value of a float. -/
def float (s : List Char) : Except ReadFault Float := do
  let (negative, rest) := Number.Numeral.takeSign ((withoutUnderscores s).map Char.toLower)
  if rest = ".nan".toList then return 0.0 / 0.0
  let x ←
    if rest = ".inf".toList then .ok (1.0 / 0.0)
    else if rest.contains ':' then do
      sumPlaces 0.0 1 (← orNoValue ((colonParts rest).mapM Number.floatOfText?)).reverse
    else orNoValue (Number.floatOfText? rest)
  return if negative then -x else x

end ScalarValue

/-- The value of a text under a tag. The tags of collections and of the special keys are not for
texts. -/
def Tag.value (tag : Tag) (raw : RawText) : Except ReadFault Value :=
  let s := raw.chars
  match tag with
  | null => .ok .null
  | bool => (orNoValue (ScalarValue.bool? s)).map .bool
  | int => (orNoValue (ScalarValue.int? s)).map .int
  | float => (ScalarValue.float s).map .float
  | binary => if Text.isBase64 s then .ok .other else .error .malformed
  | timestamp =>
    if (Timestamp.ofText? s).any (fun t => t.Exists) then .ok .other else .error .noValue
  | text => .ok (.text raw)
  | sequence | orderedMap | pairs | mapping | set | merge | default | unknown =>
    .error .malformed

end Rulebook.Yaml
