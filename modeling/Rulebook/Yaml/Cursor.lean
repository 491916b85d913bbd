/-!
# A place in a YAML text

What is left of a text together with the line and the column where it begins, since columns carry
meaning. Lines end at LF, CR, CR LF, NEL, LS and PS.
-/

namespace Rulebook.Yaml

/-- The text from a place on, and where the place is. -/
structure Cursor where
  rest : List Char
  /-- How many characters are left, kept so that they need not be counted again. -/
  left : Nat
  line : Nat
  column : Nat
  left_eq : left = rest.length

/-- Whether a character ends a line, or begins the end of one. -/
def endsLine (c : Char) : Bool :=
  c = '\n' || c = '\r' || c = '\x85' || c = '\u2028' || c = '\u2029'

/-- Whether a character, or the end of the text, ends a word. -/
def endsWord : Option Char → Bool
  | some c => c = ' ' || c = '\t' || endsLine c
  | none => true

/-- Whether a character, or the end of the text, is a blank or ends a line. -/
def atBlank : Option Char → Bool
  | some c => c = ' ' || endsLine c
  | none => true

namespace Cursor

/-- The cursor in front of a text. -/
def ofText (text : List Char) : Cursor :=
  ⟨text, text.length, 0, 0, rfl⟩

/-- The character at a distance. -/
def peek (c : Cursor) (n : Nat := 0) : Option Char :=
  c.rest[n]?

/-- Whether a text stands at the cursor. -/
def startsWith (c : Cursor) (text : String) : Bool :=
  text.toList.isPrefixOf c.rest

/-- The cursor behind the next character. A byte order mark takes no column, and a CR before an LF
does not end the line yet. -/
def next (c : Cursor) : Cursor :=
  match h : c.rest with
  | [] => c
  | x :: rest =>
    have left_eq : c.left - 1 = rest.length := by simp [c.left_eq, h]
    if endsLine x ∧ ¬ (x = '\r' ∧ rest.head? = some '\n') then
      ⟨rest, c.left - 1, c.line + 1, 0, left_eq⟩
    else ⟨rest, c.left - 1, c.line, if x = '\ufeff' then c.column else c.column + 1, left_eq⟩

/-- The cursor behind the next `n` characters. -/
def advance (c : Cursor) (n : Nat) : Cursor :=
  n.repeat next c

/-- The characters in front that are in a class, and the cursor behind them. -/
def takeWhile (c : Cursor) (p : Char → Bool) : List Char × Cursor :=
  let taken := c.rest.takeWhile p
  (taken, c.advance taken.length)

/-- The cursor behind the characters in front that are in a class. -/
def skipWhile (c : Cursor) (p : Char → Bool) : Cursor :=
  (c.takeWhile p).2

/-- The cursor behind blanks. -/
def skipSpaces (c : Cursor) : Cursor :=
  c.skipWhile (· = ' ')

/-- The cursor behind blanks up to a column. -/
def skipSpacesTo (c : Cursor) (column : Nat) : Cursor :=
  c.advance ((c.rest.take (column - c.column)).takeWhile (· = ' ')).length

/-- The end of a line in front: how it is read, and the cursor behind it. All but LS and PS are
read as LF. -/
def takeBreak? (c : Cursor) : Option (Char × Cursor) :=
  match c.rest with
  | '\r' :: '\n' :: _ => some ('\n', c.advance 2)
  | '\n' :: _ => some ('\n', c.next)
  | '\r' :: _ => some ('\n', c.next)
  | '\x85' :: _ => some ('\n', c.next)
  | '\u2028' :: _ => some ('\u2028', c.next)
  | '\u2029' :: _ => some ('\u2029', c.next)
  | _ => none

/-- The cursor behind a comment. -/
def skipComment (c : Cursor) : Cursor :=
  if c.peek = some '#' then c.skipWhile (!endsLine ·) else c

/-- The cursor behind the rest of a line that may hold blanks and a comment only. -/
def finishLine? (c : Cursor) : Option Cursor :=
  let c := c.skipSpaces.skipComment
  match c.takeBreak? with
  | some (_, c) => some c
  | none => if c.rest.isEmpty then some c else none

/-- Whether a document marker stands at the cursor. -/
def atMarker (c : Cursor) (marker : String) : Bool :=
  c.startsWith marker && endsWord (c.peek 3)

/-- Whether a document begins or ends at the cursor. -/
def atDocumentEdge (c : Cursor) : Bool :=
  c.atMarker "---" || c.atMarker "..."

end Cursor

/-! ## Loops -/

/-- How a step of a loop ends. -/
inductive Progress (σ α : Type) where
  | more (state : σ)
  | done (result : α)

/-- Repeats a step until it is done. A step has to bring a measure down; one that does not would
never end, and gives nothing. -/
def loop {σ α : Type} (left : σ → Nat) (step : σ → Option (Progress σ α)) (state : σ) : Option α :=
  match step state with
  | none => none
  | some (.done result) => some result
  | some (.more state') => if left state' < left state then loop left step state' else none
termination_by left state

end Rulebook.Yaml
