/-!
# Raw texts

Escapes can write half of a surrogate pair. Two halves that belong together are one character in
some formats and stay two codes in others, and a half without its partner is no character at all,
so a text out of escapes is not always a `String`. A raw text is the list of its codes. Whoever
reads it sees the replacement character in place of a half; whoever shows it shows the half.
-/

namespace Rulebook

/-- A text by the codes of its characters, among which halves of surrogate pairs may stand. -/
structure RawText where
  codes : List Nat
deriving DecidableEq, Repr

namespace RawText

/-- The raw text of some characters. -/
def ofChars (s : List Char) : RawText :=
  ⟨s.map Char.toNat⟩

/-- The raw text of a string. -/
def ofString (s : String) : RawText :=
  ofChars s.toList

instance : Coe String RawText := ⟨ofString⟩

instance : Append RawText := ⟨fun s t => ⟨s.codes ++ t.codes⟩⟩

/-- The character of a code; what is no character reads as the replacement character. -/
def charOfCode (code : Nat) : Char :=
  if code.isValidChar then Char.ofNat code else '\ufffd'

/-- The characters of a raw text. -/
def chars (t : RawText) : List Char :=
  t.codes.map charOfCode

/-- A raw text as it reads. -/
def legible (t : RawText) : String :=
  String.ofList t.chars

/-! ## Code units -/

/-- Whether a code unit is the high half of a pair. -/
def isHighHalf (u : Nat) : Bool :=
  0xD800 ≤ u && u ≤ 0xDBFF

/-- Whether a code unit is the low half of a pair. -/
def isLowHalf (u : Nat) : Bool :=
  0xDC00 ≤ u && u ≤ 0xDFFF

/-- The codes of code units: a high half and the low half behind it are one character. -/
def joinHalves : List Nat → List Nat
  | [] => []
  | [u] => [u]
  | u :: v :: units =>
    if isHighHalf u && isLowHalf v then
      (0x10000 + (u - 0xD800) * 0x400 + (v - 0xDC00)) :: joinHalves units
    else u :: joinHalves (v :: units)

/-- The raw text of code units. -/
def ofUnits (units : List Nat) : RawText :=
  ⟨joinHalves units⟩

/-! ## Laws -/

/-- The code of a character reads as the character. -/
@[simp]
theorem charOfCode_toNat (c : Char) : charOfCode c.toNat = c := by
  simp [charOfCode, show c.toNat.isValidChar from c.valid]

/-- Characters are read as they were written. -/
@[simp]
theorem chars_ofChars (s : List Char) : (ofChars s).chars = s := by
  simp only [chars, ofChars, List.map_map]
  exact List.map_id'' charOfCode_toNat s

/-- The characters of a string are its own. -/
@[simp]
theorem chars_ofString (s : String) : (ofString s).chars = s.toList :=
  chars_ofChars s.toList

/-- A string reads as itself. -/
@[simp]
theorem legible_ofString (s : String) : (ofString s).legible = s := by
  simp [legible]

/-- Two strings with the same codes are the same. -/
theorem ofString_injective {s t : String} (h : ofString s = ofString t) : s = t := by
  rw [← legible_ofString s, h, legible_ofString]

end RawText

end Rulebook
