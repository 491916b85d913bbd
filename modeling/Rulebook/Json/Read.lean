import Rulebook.Number.Numeral
import Rulebook.Reading
import Rulebook.Text.Hex
import Rulebook.Text.RawText
import Rulebook.Text.Run
import Rulebook.Value

/-!
# Reading JSON

The value that a JSON text writes. Beside the standard, `NaN`, `Infinity` and `-Infinity` are
numbers, and a surrogate escape without its partner is kept as it is. A number without a point and
an exponent is an integer, of at most 4300 digits. Blanks are the four of the standard, and nothing
but blanks may follow the value.
-/

namespace Rulebook.Json

/-- Whether a character may stand between tokens. -/
def isSpace (c : Char) : Bool :=
  c = ' ' || c = '\t' || c = '\n' || c = '\r'

/-- The text without the blanks in front. -/
def skipSpaces (s : List Char) : List Char :=
  s.dropWhile isSpace

theorem length_skipSpaces_le (s : List Char) : (skipSpaces s).length ≤ s.length :=
  (List.dropWhile_suffix isSpace).length_le

/-! ## Strings -/

/-- The character of an escape that is a single letter. -/
def escaped? : Char → Option Char
  | '"' => some '"'
  | '\\' => some '\\'
  | '/' => some '/'
  | 'b' => some '\x08'
  | 'f' => some '\x0c'
  | 'n' => some '\n'
  | 'r' => some '\r'
  | 't' => some '\t'
  | _ => none

/-- The code units of a string up to its closing quote, and what follows the quote. Characters
beyond the first plane stand for themselves. -/
def takeUnits? : List Char → Option (List Nat × List Char)
  | '"' :: s => some ([], s)
  | '\\' :: 'u' :: a :: b :: c :: d :: s => do
    let unit ← Text.hexNumber? 4 [a, b, c, d]
    let (units, rest) ← takeUnits? s
    return (unit :: units, rest)
  | '\\' :: c :: s => do
    let c ← escaped? c
    let (units, rest) ← takeUnits? s
    return (c.toNat :: units, rest)
  | c :: s => do
    if c.toNat < 0x20 || c = '\\' then none
    else
      let (units, rest) ← takeUnits? s
      return (c.toNat :: units, rest)
  | [] => none

theorem length_takeUnits?_lt {s rest : List Char} {units : List Nat}
    (h : takeUnits? s = some (units, rest)) : rest.length < s.length := by
  fun_induction takeUnits? s generalizing units rest with
  | case1 => simp_all
  | case2 a b c d s ih =>
    simp only [bind, Option.bind_eq_some_iff] at h
    obtain ⟨_, _, ⟨us, r⟩, hs, h⟩ := h
    have := ih hs
    simp_all
    omega
  | case3 c s _ ih =>
    simp only [bind, Option.bind_eq_some_iff] at h
    obtain ⟨_, _, ⟨us, r⟩, hs, h⟩ := h
    have := ih hs
    simp_all
    omega
  | case4 => simp at h
  | case5 c s _ _ _ _ ih =>
    simp only [bind, Option.bind_eq_some_iff] at h
    obtain ⟨⟨us, r⟩, hs, h⟩ := h
    have := ih hs
    simp_all
    omega
  | case6 => simp at h

/-- Reads the rest of a string behind its opening quote. -/
def readString (s : List Char) : Option (Reading RawText s) :=
  match h : takeUnits? s with
  | some (units, rest) => some ⟨.ofUnits units, rest, length_takeUnits?_lt h⟩
  | none => none

/-! ## Numbers and words -/

/-- The whole digits of a number, without a needless zero in front, and what follows them. -/
def takeWhole? : List Char → Option (List Char × List Char)
  | '0' :: s => some (['0'], s)
  | s => Text.takeRun? Char.isDigit s

/-- The digits behind a point, and what follows them. -/
def takeFraction? : List Char → Option (List Char × List Char)
  | '.' :: s => Text.takeRun? Char.isDigit s
  | _ => none

/-- An optional minus: whether it is there, and what follows. -/
def takeMinus : List Char → Bool × List Char
  | '-' :: s => (true, s)
  | s => (false, s)

/-- The number in front of a text and what follows it: whole digits, then an optional fraction and
an optional exponent, both of which need digits. -/
def number? (s : List Char) : Option (Value × List Char) := do
  let (negative, s₁) := takeMinus s
  let (whole, s₂) ← takeWhole? s₁
  let fraction? := takeFraction? s₂
  let (fraction, s₃) := fraction?.getD ([], s₂)
  let exponent? := Number.Numeral.takeExponent? Char.isDigit s₃
  let (exponent, s₄) := exponent?.getD (0, s₃)
  -- without a fraction and an exponent the number is an integer of any size up to the limit
  if fraction?.isSome || exponent?.isSome then
    let x : Number.Numeral :=
      ⟨negative, Text.digitsValue (whole ++ fraction), exponent - fraction.length⟩
    return (.float x.toFloat, s₄)
  else if whole.length > 4300 then none
  else
    let n := Text.digitsValue whole
    return (.int (if negative then -(n : Int) else n), s₄)

/-- The words that are values. -/
def words : List (String × Value) :=
  [("null", .null), ("true", .bool true), ("false", .bool false), ("NaN", .float (0.0 / 0.0)),
    ("Infinity", .float (1.0 / 0.0)), ("-Infinity", .float (-1.0 / 0.0))]

/-- The word in front of a text and what follows it. -/
def word? (s : List Char) : Option (Value × List Char) :=
  words.findSome? fun w => (Text.dropToken? w.1 s).map (w.2, ·)

theorem length_takeWhole?_lt {s ds rest : List Char} (h : takeWhole? s = some (ds, rest)) :
    rest.length < s.length := by
  unfold takeWhole? at h
  split at h
  · obtain ⟨_, rfl⟩ := Prod.mk.inj (Option.some.inj h)
    simp
  · exact Text.length_takeRun?_lt h

theorem length_takeFraction?_getD_le (s : List Char) :
    ((takeFraction? s).getD ([], s)).2.length ≤ s.length := by
  unfold takeFraction?
  split
  · rename_i t
    cases h : Text.takeRun? Char.isDigit t with
    | none => simp
    | some r =>
      have := Text.length_takeRun?_lt h
      simp only [Option.getD_some, List.length_cons]
      omega
  · simp

theorem length_takeMinus_le (s : List Char) : (takeMinus s).2.length ≤ s.length := by
  unfold takeMinus
  split <;> simp

/-- A number takes at least one character. -/
theorem length_number?_lt {s rest : List Char} {x : Value} (h : number? s = some (x, rest)) :
    rest.length < s.length := by
  obtain ⟨⟨whole, s₂⟩, hw, h⟩ := Option.bind_eq_some_iff.1 h
  have h₁ := length_takeMinus_le s
  have h₂ : s₂.length < (takeMinus s).2.length := length_takeWhole?_lt hw
  have h₃ := length_takeFraction?_getD_le s₂
  have h₄ := Number.Numeral.length_takeExponent?_getD_le Char.isDigit
    ((takeFraction? s₂).getD ([], s₂)).2 0
  have hrest : rest = ((Number.Numeral.takeExponent? Char.isDigit
      ((takeFraction? s₂).getD ([], s₂)).2).getD (0, ((takeFraction? s₂).getD ([], s₂)).2)).2 := by
    simp only at h
    split at h
    · exact (Prod.mk.inj (Option.some.inj h)).2.symm
    · split at h
      · simp at h
      · exact (Prod.mk.inj (Option.some.inj h)).2.symm
  rw [hrest]
  omega

/-- A word takes at least one character. -/
theorem length_word?_lt {s rest : List Char} {x : Value} (h : word? s = some (x, rest)) :
    rest.length < s.length := by
  obtain ⟨w, hw, h⟩ := List.exists_of_findSome?_eq_some h
  obtain ⟨r, hr, h⟩ := Option.map_eq_some_iff.1 h
  obtain ⟨_, rfl⟩ := Prod.mk.inj h
  have hne : ∀ w ∈ words, 0 < w.1.toList.length := by simp [words]
  have := hne w hw
  rw [← Text.append_of_dropToken? hr, List.length_append]
  omega

/-- Reads a word or a number. -/
def readScalar (s : List Char) : Option (Reading Value s) :=
  match hw : word? s with
  | some (value, rest) => some ⟨value, rest, length_word?_lt hw⟩
  | none =>
    match hn : number? s with
    | some (value, rest) => some ⟨value, rest, length_number?_lt hn⟩
    | none => none

/-! ## Values -/

mutual

/-- Reads a value in front of which no blanks stand. -/
def readValue (s : List Char) : Option (Reading Value s) :=
  match s with
  | '[' :: t =>
    have ht := length_skipSpaces_le t
    match h : skipSpaces t with
    | ']' :: rest => some ⟨.list [], rest, by simp [h] at ht ⊢; omega⟩
    | u => (readItems u).map fun r => (r.map Value.list).widen (by simp [h] at ht ⊢; omega)
  | '\x7b' :: t =>
    have ht := length_skipSpaces_le t
    match h : skipSpaces t with
    | '\x7d' :: rest => some ⟨.record [], rest, by simp [h] at ht ⊢; omega⟩
    | u => (readFields u).map fun r => (r.map Value.record).widen (by simp [h] at ht ⊢; omega)
  | '"' :: t => (readString t).map fun r => (r.map Value.text).widen (by simp)
  | u => readScalar u
termination_by 2 * s.length
decreasing_by all_goals simp_all; omega

/-- Reads the items of a list and the bracket that closes it. -/
def readItems (s : List Char) : Option (Reading (List Value) s) :=
  match readValue s with
  | none => none
  | some ⟨x, rest, h⟩ =>
    have hr := length_skipSpaces_le rest
    match h' : skipSpaces rest with
    | ',' :: t =>
      have ht := length_skipSpaces_le t
      (readItems (skipSpaces t)).map fun r => (r.map (x :: ·)).widen (by simp [h'] at hr; omega)
    | ']' :: t => some ⟨[x], t, by simp [h'] at hr; omega⟩
    | _ => none
termination_by 2 * s.length + 1
decreasing_by
  · omega
  · simp_all; omega

/-- Reads the fields of a record and the brace that closes it. -/
def readFields (s : List Char) : Option (Reading (List (String × Value)) s) :=
  match s with
  | '"' :: s₁ =>
    match readString s₁ with
    | none => none
    | some ⟨name, s₂, h₂⟩ =>
      have l₂ := length_skipSpaces_le s₂
      match h₃ : skipSpaces s₂ with
      | ':' :: s₃ =>
        have l₃ := length_skipSpaces_le s₃
        match readValue (skipSpaces s₃) with
        | none => none
        | some ⟨x, s₄, h₄⟩ =>
          have l₄ := length_skipSpaces_le s₄
          match h₅ : skipSpaces s₄ with
          | ',' :: s₅ =>
            have l₅ := length_skipSpaces_le s₅
            (readFields (skipSpaces s₅)).map fun r =>
              (r.map ((name.legible, x) :: ·)).widen (by simp [h₃, h₅] at *; omega)
          | '\x7d' :: s₅ => some ⟨[(name.legible, x)], s₅, by simp [h₃, h₅] at *; omega⟩
          | _ => none
      | _ => none
  | _ => none
termination_by 2 * s.length + 1
decreasing_by all_goals simp_all; omega

end

/-- The value that a whole text writes. -/
def read? (text : String) : Option Value :=
  match readValue (skipSpaces text.toList) with
  | some ⟨value, rest, _⟩ => if rest.all isSpace then some value else none
  | none => none

end Rulebook.Json
