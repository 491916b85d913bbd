import Rulebook.Number.Whole

/-!
# Points in time

A date, or a date with a time of day and perhaps a zone. Nothing asks which point in time it is, but
there has to be one: its parts are those of a calendar and of a clock, and its zone is less than a
day away.
-/

namespace Rulebook.Yaml

/-- The parts of a point in time. -/
structure Timestamp where
  year : Nat
  month : Nat
  day : Nat
  hour : Nat := 0
  minute : Nat := 0
  second : Nat := 0
  /-- How many minutes the zone is away. -/
  zone : Nat := 0
deriving DecidableEq, Repr

namespace Timestamp

/-- The days of a month. -/
def daysOf (year month : Nat) : Nat :=
  if month = 2 then
    if year % 4 = 0 ∧ (year % 100 ≠ 0 ∨ year % 400 = 0) then 29 else 28
  else if month ∈ [4, 6, 9, 11] then 30 else 31

/-- Whether there is such a point in time. -/
def Exists (t : Timestamp) : Prop :=
  1 ≤ t.year ∧ 1 ≤ t.month ∧ t.month ≤ 12 ∧ 1 ≤ t.day ∧ t.day ≤ daysOf t.year t.month ∧
    t.hour < 24 ∧ t.minute < 60 ∧ t.second < 60 ∧ t.zone < 24 * 60

instance (t : Timestamp) : Decidable t.Exists :=
  inferInstanceAs (Decidable (_ ∧ _))

/-! ## The written form -/

/-- The number that the digits in front write, at least and at most so many, and the text behind. -/
def number? (least most : Nat) (s : List Char) : Option (Nat × List Char) :=
  let digits := (s.take most).takeWhile Char.isDigit
  if digits.length < least then none
  else (Number.naturalOfDigits? 10 digits).map fun n => (n, s.drop digits.length)

/-- The text behind one of some marks. -/
def behind? (marks : List Char) : List Char → Option (List Char)
  | c :: s => if c ∈ marks then some s else none
  | [] => none

/-- How many minutes a zone is away. -/
def zone? (s : List Char) : Option Nat :=
  if s = ['Z'] then some 0
  else do
    let (hours, s) ← number? 1 2 (← behind? ['+', '-'] s)
    if s.isEmpty then return 60 * hours
    let (minutes, s) ← number? 2 2 (← behind? [':'] s)
    if s.isEmpty then return 60 * hours + minutes else none

/-- The text behind a fraction of a second, which need not be there. -/
def dropFraction : List Char → List Char
  | '.' :: s => s.dropWhile Char.isDigit
  | s => s

/-- Whether a character may stand between a date and a time, or between a time and a zone. -/
def isGap (c : Char) : Bool :=
  c = ' ' || c = '\t'

/-- The text behind the mark between a date and a time. -/
def dropGap? (s : List Char) : Option (List Char) :=
  if s.head?.any isGap then some (s.dropWhile isGap) else behind? ['T', 't'] s

/-- The point in time that a text writes. One line end may stand behind it. -/
def ofText? (s : List Char) : Option Timestamp := do
  let s := if s.getLast? = some '\n' then s.dropLast else s
  let (year, s) ← number? 4 4 s
  let (month, s) ← number? 1 2 (← behind? ['-'] s)
  let (day, s) ← number? 1 2 (← behind? ['-'] s)
  if s.isEmpty then return { year, month, day }
  let (hour, s) ← number? 1 2 (← dropGap? s)
  let (minute, s) ← number? 2 2 (← behind? [':'] s)
  let (second, s) ← number? 2 2 (← behind? [':'] s)
  let s := dropFraction s
  let zone ← if s.isEmpty then some 0 else zone? (s.dropWhile isGap)
  return { year, month, day, hour, minute, second, zone }

example : ofText? "2001-12-14 21:59:43.10 -5".toList =
    some ⟨2001, 12, 14, 21, 59, 43, 300⟩ := by decide

example : (ofText? "2001-02-29".toList).any (fun t => decide t.Exists) = false := by decide

end Timestamp

end Rulebook.Yaml
