import Rulebook.Text.Hex
import Rulebook.Text.RawText
import Rulebook.Yaml.Cursor

/-!
# Bodies of scalars

The text of a scalar in each of its styles: plain, in single or double quotes, and as a block of
lines. A single line break inside a plain or quoted scalar is read as a blank, further ones are
kept, and blanks around breaks do not count.
-/

namespace Rulebook.Yaml

/-! ## Breaks between the lines of a scalar -/

/-- What a first line break and those behind it are read as: the first one folds to a blank, or
to nothing if there are more, unless it is LS or PS. -/
def foldBreaks (first : Char) (more : List Char) : List Char :=
  if first ≠ '\n' then first :: more
  else if more.isEmpty then [' ']
  else more

/-! ## Plain scalars -/

/-- The characters of a plain scalar up to a blank, a line end, a colon that ends a word, or in a
flow collection an indicator of one. -/
def plainWord (flow : Bool) : List Char → List Char
  | [] => []
  | c :: rest =>
    let closes : Bool := match rest.head? with
      | some d => endsWord (some d) || (flow && ",[]\x7b\x7d".toList.contains d)
      | none => true
    if endsWord (some c) || (c = ':' && closes) ||
        (flow && ",?[]\x7b\x7d".toList.contains c) then []
    else c :: plainWord flow rest

/-- The blanks between two words of a plain scalar. -/
structure PlainGap where
  /-- What the gap is read as; nothing if the scalar ends here. -/
  text : List Char
  cursor : Cursor
  /-- Whether a line ended in it. -/
  broken : Bool

/-- The lines that are empty behind a line break of a plain scalar, and whether a document begins
or ends behind them. -/
def emptyLines (c : Cursor) : Option (List Char × Cursor × Bool) :=
  loop (fun s => s.2.left)
    (fun (breaks, c) =>
      match c.takeBreak? with
      | some (b, c) =>
        if c.atDocumentEdge then some (.done ((b :: breaks).reverse, c, true))
        else some (.more (b :: breaks, c))
      | none =>
        if c.peek = some ' ' then some (.more (breaks, c.next))
        else some (.done (breaks.reverse, c, false)))
    ([], c)

/-- The gap at a cursor behind a word. -/
def plainGap (c : Cursor) : Option PlainGap :=
  let (spaces, c) := c.takeWhile (· = ' ')
  match c.takeBreak? with
  | none => some ⟨spaces, c, false⟩
  | some (first, c) =>
    if c.atDocumentEdge then some ⟨[], c, true⟩
    else do
      let (breaks, c, edge) ← emptyLines c
      return ⟨if edge then [] else foldBreaks first breaks, c, true⟩

/-- A plain scalar: its text, the cursor behind it, and whether that is on a later line. Outside
flow collections further lines have to be indented to a column. -/
def plainScalar (flow : Bool) (indent : Int) (c : Cursor) : Option (List Char × Cursor × Bool) :=
  loop (fun s => s.2.1.left)
    (fun (read, c, gap, broken) => do
      let word := if c.peek = some '#' then [] else plainWord flow c.rest
      if word.isEmpty then return .done (read.reverse, c, broken)
      let read := word.reverse ++ (gap.reverse ++ read)
      let gap ← plainGap (c.advance word.length)
      -- without a blank no further word can follow, and behind one a `#` begins a comment
      if gap.text.isEmpty || gap.cursor.peek = some '#' ||
          (!flow && (gap.cursor.column : Int) < indent) then
        return .done (read.reverse, gap.cursor, gap.broken)
      return .more (read, gap.cursor, gap.text, gap.broken))
    (([] : List Char), c, ([] : List Char), false)

/-! ## Quoted scalars -/

/-- The lines that are empty behind a line break of a quoted scalar. A document cannot begin or end
inside quotes. -/
def quotedBreaks (c : Cursor) : Option (List Char × Cursor) :=
  loop (fun s => s.2.left)
    (fun (breaks, c) =>
      if c.atDocumentEdge then none
      else
        let c := c.skipWhile fun x => x = ' ' || x = '\t'
        match c.takeBreak? with
        | some (b, c) => some (.more (b :: breaks, c))
        | none => some (.done (breaks.reverse, c)))
    ([], c)

/-- The escapes of a single letter. -/
def shortEscape? : Char → Option Char
  | '0' => some '\x00'
  | 'a' => some '\x07'
  | 'b' => some '\x08'
  | 't' => some '\t'
  | '\t' => some '\t'
  | 'n' => some '\n'
  | 'v' => some '\x0b'
  | 'f' => some '\x0c'
  | 'r' => some '\r'
  | 'e' => some '\x1b'
  | ' ' => some ' '
  | '"' => some '"'
  | '\\' => some '\\'
  | '/' => some '/'
  | 'N' => some '\x85'
  | '_' => some '\xa0'
  | 'L' => some '\u2028'
  | 'P' => some '\u2029'
  | _ => none

/-- How many hexadecimal digits follow the letter of an escape. -/
def escapePlaces? : Char → Option Nat
  | 'x' => some 2
  | 'u' => some 4
  | 'U' => some 8
  | _ => none

/-- The codes that an escape is read as, from the cursor behind its backslash. -/
def readEscape? (c : Cursor) : Option (List Nat × Cursor) := do
  let letter ← c.peek
  match shortEscape? letter, escapePlaces? letter with
  | some x, _ => return ([x.toNat], c.next)
  | none, some places =>
    let code ← Text.hexNumber? places c.next.rest
    if 0x10FFFF < code then none else return ([code], c.advance (places + 1))
  | none, none =>
    let (_, c) ← c.takeBreak?
    let (breaks, c) ← quotedBreaks c
    return (breaks.map Char.toNat, c)

/-- The codes of a scalar in quotes, from the cursor behind the opening one, and the cursor behind
the closing one. -/
def quotedCodes (double : Bool) (c : Cursor) : Option (List Nat × Cursor) :=
  let quote := if double then '"' else '\''
  loop (fun s => s.2.left)
    (fun (read, c) => do
      let x ← c.peek
      if !double && x = '\'' && c.peek 1 = some '\'' then
        return .more ('\''.toNat :: read, c.advance 2)
      if x = quote then return .done (read.reverse, c.next)
      if double && x = '\\' then
        let (codes, c) ← readEscape? c.next
        return .more (codes.reverse ++ read, c)
      if endsWord (some x) then
        let (spaces, c) := c.takeWhile fun x => x = ' ' || x = '\t'
        match c.takeBreak? with
        | none => return .more ((spaces.map Char.toNat).reverse ++ read, c)
        | some (first, c) =>
          let (breaks, c) ← quotedBreaks c
          return .more (((foldBreaks first breaks).map Char.toNat).reverse ++ read, c)
      return .more (x.toNat :: read, c.next))
    (([] : List Nat), c)

/-- A scalar in quotes, from the cursor behind the opening one: its text and the cursor behind the
closing one. Halves of surrogate pairs stay as the escapes write them, also side by side. -/
def quotedScalar (double : Bool) (c : Cursor) : Option (RawText × Cursor) :=
  (quotedCodes double c).map fun (codes, c) => (⟨codes⟩, c)

/-! ## Block scalars -/

/-- What becomes of the line breaks at the end of a block. -/
inductive Chomping where
  | strip
  | clip
  | keep
deriving DecidableEq

/-- The indicators behind the one of the style: chomping and indentation in either order. -/
def blockHeader? (c : Cursor) : Option (Chomping × Option Nat × Cursor) := do
  let chomping? (c : Cursor) : Option Chomping × Cursor :=
    match c.peek with
    | some '+' => (some .keep, c.next)
    | some '-' => (some .strip, c.next)
    | _ => (none, c)
  let increment? (c : Cursor) : Option Nat × Cursor :=
    match c.peek with
    | some d => if d.isDigit then (some (d.toNat - 48), c.next) else (none, c)
    | none => (none, c)
  let (chomping, c) := chomping? c
  let (increment, c) := increment? c
  let (chomping, c) := if chomping.isNone then chomping? c else (chomping, c)
  if increment = some 0 ∨ !atBlank c.peek then none
  else return (chomping.getD .clip, increment, ← c.finishLine?)

/-- The empty lines in front of a block whose indentation is not given, and the greatest column of
blanks in them and in the first line. -/
def blockIndentation (c : Cursor) : Option (List Char × Nat × Cursor) :=
  loop (fun s => s.2.2.left)
    (fun (breaks, column, c) =>
      match c.takeBreak? with
      | some (b, c) => some (.more (b :: breaks, column, c))
      | none =>
        if c.peek = some ' ' then some (.more (breaks, max column c.next.column, c.next))
        else some (.done (breaks.reverse, column, c)))
    ([], 0, c)

/-- The empty lines in front of the next line of a block. -/
def blockBreaks (indent : Nat) (c : Cursor) : Option (List Char × Cursor) :=
  loop (fun s => s.2.left)
    (fun (breaks, c) =>
      match c.takeBreak? with
      | some (b, c) => some (.more (b :: breaks, c.skipSpacesTo indent))
      | none => some (.done (breaks.reverse, c)))
    ([], c.skipSpacesTo indent)

/-- Whether a line is folded into the one before: neither may begin with a blank. -/
def startsText (c : Cursor) : Bool :=
  !(c.peek = some ' ' || c.peek = some '\t')

/-- The lines of a block at a column, from the empty lines before the first one on. -/
def blockLines (folded : Bool) (indent : Nat) (chomping : Chomping) (breaks : List Char)
    (c : Cursor) : Option (List Char × Cursor) :=
  let finish (read lastBreak breaks : List Char) (c : Cursor) : List Char × Cursor :=
    (read.reverse ++ (if chomping = .strip then [] else lastBreak) ++
      (if chomping = .keep then breaks else []), c)
  let atLine (c : Cursor) : Bool := c.column = indent && !c.rest.isEmpty
  loop (fun s => s.2.2.left)
    (fun (read, breaks, c) => do
      if !atLine c then return .done (finish read [] breaks c)
      let wasText := startsText c
      let (line, c) := c.takeWhile (!endsLine ·)
      let read := line.reverse ++ (breaks.reverse ++ read)
      let (lastBreak, c) := match c.takeBreak? with
        | some (b, c) => ([b], c)
        | none => ([], c)
      let (breaks, c) ← blockBreaks indent c
      if !atLine c then return .done (finish read lastBreak breaks c)
      -- a single line break between two lines of text is read as a blank
      let folds := folded && lastBreak = ['\n'] && wasText && startsText c
      let join := if !folds then lastBreak else if breaks.isEmpty then [' '] else []
      return .more (join ++ read, breaks, c))
    (([] : List Char), breaks, c)

/-- A scalar in block style, from the cursor behind the indicator of the style, inside a block
collection at column `indent`. -/
def blockScalar (folded : Bool) (indent : Int) (c : Cursor) : Option (List Char × Cursor) := do
  let (chomping, increment, c) ← blockHeader? c
  let least : Nat := (max (indent + 1) 1).toNat
  match increment with
  | some n =>
    let column := least + n - 1
    let (breaks, c) ← blockBreaks column c
    blockLines folded column chomping breaks c
  | none =>
    let (breaks, column, c) ← blockIndentation c
    blockLines folded (max least column) chomping breaks c

end Rulebook.Yaml
