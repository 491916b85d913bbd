import Rulebook.Number.Layout
import Rulebook.Text.Hex
import Rulebook.Value
import Rulebook.Yaml.Tag

/-!
# Writing YAML

The text of a value in block style: one field or item a line, nested records two columns further
in, the items of a list at the column of the key that holds it. A text is plain where that reads
back as the same text, else it stands in single quotes, and in double quotes with escapes if it
holds anything but printable ASCII and simple line breaks. Long texts are folded at a blank once
they have passed column 80.
-/

namespace Rulebook.Yaml

/-- Numbers are laid out so that every exponent has a point before it. -/
def layout : Number.Layout where
  pointBeforeExponent := true
  infinity := ".inf"
  notANumber := ".nan"

/-- The column past which a text is folded. -/
def width : Nat := 80

/-! ## Which style a text allows -/

/-- Whether a character ends a line. -/
def isBreak (c : Char) : Bool :=
  c = '\n' || c = '\x85' || c = '\u2028' || c = '\u2029'

/-- Whether a character separates words in a plain scalar. -/
def isSeparator (c : Char) : Bool :=
  c = ' ' || c = '\t' || c = '\r' || isBreak c

/-- Whether a character can stand in a text that has no escapes. -/
def isWritable (c : Char) : Bool :=
  c = '\n' || (' ' ≤ c && c ≤ '~')

/-- Whether what stands behind a character is a separator or the end. -/
def atWordEnd : List Char → Bool
  | [] => true
  | c :: _ => isSeparator c

/-- Whether the first character of a text would be taken for an indicator. -/
def startsIndicator : List Char → Bool
  | [] => false
  | c :: rest =>
    "#,[]\x7b\x7d&*!|>'\"%@\x60".toList.contains c ||
      ((c = '?' || c = ':' || c = '-') && atWordEnd rest)

/-- Whether a later character would be taken for an indicator: a colon at the end of a word, or a
number sign at the start of one. -/
def holdsIndicator : List Char → Bool
  | [] => false
  | c :: rest =>
    (match rest with
      | ':' :: more => atWordEnd more
      | '#' :: _ => isSeparator c
      | _ => false) || holdsIndicator rest

/-- Whether two neighbours somewhere in a text are in a relation. -/
def hasNeighbours (r : Char → Char → Bool) : List Char → Bool
  | c :: d :: rest => r c d || hasNeighbours r (d :: rest)
  | _ => false

/-- Whether a text can be written without quotes in block style. -/
def allowsPlain (s : List Char) : Bool :=
  let blankEnd (c : Option Char) : Bool := c.any fun c => c = ' ' || isBreak c
  s ≠ [] && s.all (fun c => isWritable c && !isBreak c) &&
    !(blankEnd s.head? || blankEnd s.getLast?) &&
    !(startsIndicator s || holdsIndicator s) &&
    !(['-', '-', '-'].isPrefixOf s || ['.', '.', '.'].isPrefixOf s)

/-- Whether a text can be written in single quotes. -/
def allowsSingleQuotes (s : List Char) : Bool :=
  s.all isWritable && !hasNeighbours (fun c d => isBreak c && d = ' ') s &&
    !hasNeighbours (fun c d => c = ' ' && isBreak d) s

/-! ## Folding -/

/-- A new line with blanks up to a column. -/
def newLine (indent : Nat) : List Char :=
  '\n' :: List.replicate indent ' '

/-- Runs of blanks, of line breaks, and of other characters. -/
def runs (s : List Char) : List (List Char) :=
  s.splitBy fun c d => (c = ' ') = (d = ' ') && isBreak c = isBreak d

/-- Writes runs from a column on. A single blank past the width becomes a new line, at the first
run only if `foldFirst` and at the last only if more follows; line breaks are written with one
more line, since the first one folds away. -/
def writeRuns (encode : List Char → List Char) (indent : Nat) :
    (column : Nat) → (first : Bool) → List (List Char) → List Char
  | _, _, [] => []
  | column, first, run :: more =>
    if run = [' '] ∧ width < column ∧ !first ∧ more ≠ [] then
      newLine indent ++ writeRuns encode indent indent false more
    else if run.any isBreak then
      '\n' :: run ++ List.replicate indent ' ' ++ writeRuns encode indent indent false more
    else
      let written := encode run
      written ++ writeRuns encode indent (column + written.length) false more

/-- A text without quotes. -/
def plain (column indent : Nat) (s : List Char) : List Char :=
  writeRuns id indent column false (runs s)

/-- A text in single quotes, each of which is doubled inside. -/
def singleQuoted (column indent : Nat) (s : List Char) : List Char :=
  let double (run : List Char) : List Char :=
    run.flatMap fun c => if c = '\'' then ['\'', '\''] else [c]
  '\'' :: writeRuns double indent (column + 1) true (runs s) ++ ['\'']

/-- Hexadecimal digits in upper case. -/
def upperHex (places n : Nat) : List Char :=
  (Text.hexDigits places n).map Char.toUpper

/-- The escape of a character that does not stand for itself in double quotes. -/
def escape? (c : Char) : Option (List Char) :=
  let short? : Option Char := match c with
    | '\x00' => some '0'
    | '\x07' => some 'a'
    | '\x08' => some 'b'
    | '\t' => some 't'
    | '\n' => some 'n'
    | '\x0b' => some 'v'
    | '\x0c' => some 'f'
    | '\r' => some 'r'
    | '\x1b' => some 'e'
    | '"' => some '"'
    | '\\' => some '\\'
    | '\x85' => some 'N'
    | '\xa0' => some '_'
    | '\u2028' => some 'L'
    | '\u2029' => some 'P'
    | _ => none
  match short? with
  | some e => some ['\\', e]
  | none =>
    if ' ' ≤ c ∧ c ≤ '~' then none
    else if c.toNat ≤ 0xFF then some ('\\' :: 'x' :: upperHex 2 c.toNat)
    else if c.toNat ≤ 0xFFFF then some ('\\' :: 'u' :: upperHex 4 c.toNat)
    else some ('\\' :: 'U' :: upperHex 8 c.toNat)

/-- Writes what stands between double quotes. Past the width the line is broken behind an escape,
before a character that follows one, and before a blank, but not before the first and the last
character; a blank at the start of a line is escaped. -/
def writeEscaped (indent : Nat) :
    (column : Nat) → (first afterEscape : Bool) → List Char → List Char
  | _, _, _, [] => []
  | column, first, afterEscape, c :: rest =>
    let inner := !first && !rest.isEmpty
    match escape? c with
    | some e =>
      let column := column + e.length
      -- behind an escape the line is broken once the next character would stand past the width
      if inner ∧ width + 1 < column then
        if rest.head? = some ' ' then
          e ++ '\\' :: newLine indent ++ '\\' :: writeEscaped indent (indent + 1) false true rest
        else e ++ '\\' :: newLine indent ++ writeEscaped indent indent false true rest
      else e ++ writeEscaped indent column false true rest
    | none =>
      if inner ∧ (c = ' ' ∨ afterEscape) ∧ width < column then
        if c = ' ' then
          '\\' :: newLine indent ++ '\\' :: c :: writeEscaped indent (indent + 2) false false rest
        else '\\' :: newLine indent ++ c :: writeEscaped indent (indent + 1) false false rest
      else c :: writeEscaped indent (column + 1) false false rest

/-- A text in double quotes. -/
def doubleQuoted (column indent : Nat) (s : List Char) : List Char :=
  '"' :: writeEscaped indent (column + 1) true false s ++ ['"']

/-- A text in the first style that it allows, from a column on; its further lines are indented. -/
def writeText (column indent : Nat) (s : List Char) : List Char :=
  if allowsPlain s ∧ Tag.ofForm s = .text then plain column indent s
  else if allowsSingleQuotes s then singleQuoted column indent s
  else doubleQuoted column indent s

/-! ## Values -/

/-- The text of a scalar or of an empty collection, which stands on the line of its key. -/
def writeInline? (column indent : Nat) : Value → Option (List Char)
  | .null => some "null".toList
  | .bool true => some "true".toList
  | .bool false => some "false".toList
  | .int n => some (toString n).toList
  | .float x => some (layout.render x).toList
  | .text t => some (writeText column indent t.chars)
  | .list [] => some ['[', ']']
  | .record [] => some ['\x7b', '\x7d']
  | .other => some "null".toList
  | .list (_ :: _) => none
  | .record (_ :: _) => none

mutual

/-- A value behind its key, where the key stands at column `indent`. -/
def writeAfterKey (indent column : Nat) (value : Value) : List Char :=
  match writeInline? (column + 1) (indent + 2) value with
  | some inline => ' ' :: inline ++ ['\n']
  | none =>
    match value with
    | .list items => '\n' :: writeItems indent items
    | .record fields => '\n' :: writeFields (indent + 2) true fields
    | _ => []

/-- The items of a list whose dashes stand at column `indent`. -/
def writeItems (indent : Nat) : List Value → List Char
  | [] => []
  | item :: items =>
    List.replicate indent ' ' ++ '-' :: ' ' :: writeItem (indent + 2) item ++
      writeItems indent items

/-- An item behind its dash, where it stands at column `indent`. -/
def writeItem (indent : Nat) (value : Value) : List Char :=
  match writeInline? indent indent value with
  | some inline => inline ++ ['\n']
  | none =>
    match value with
    | .list items => (writeItems indent items).drop indent
    | .record fields => writeFields indent false fields
    | _ => []

/-- The fields of a record whose keys stand at column `indent`; the first key may already be at
its column. -/
def writeFields (indent : Nat) (indentFirst : Bool) : List (String × Value) → List Char
  | [] => []
  | (key, value) :: fields =>
    let name := writeText indent indent key.toList
    (if indentFirst then List.replicate indent ' ' else []) ++ name ++
      ':' :: writeAfterKey indent (indent + name.length + 1) value ++
      writeFields indent true fields

end

/-- The text of a value as a document. -/
def render (value : Value) : String :=
  String.ofList <| match value with
    | .record fields@(_ :: _) => writeFields 0 true fields
    | .list items@(_ :: _) => writeItems 0 items
    | scalar => ((writeInline? 0 0 scalar).getD []) ++ ['\n']

end Rulebook.Yaml
