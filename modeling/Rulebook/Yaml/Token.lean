import Rulebook.Yaml.Scalar

/-!
# Tokens of YAML

The tokens of a text, with the indentation of block collections made explicit: a collection opens
where a line is indented further than the ones around it, and closes where a later line is not.
A scalar or a flow collection may turn out to be a key only at the colon behind it, on the same
line and at most 1024 characters later; the tokens that open its mapping are put in front of it
then.
-/

namespace Rulebook.Yaml

/-- A line about the document that follows. -/
inductive Directive where
  | version (major minor : Nat)
  /-- The text that a tag handle stands for. -/
  | tag (handle stem : String)
  | reserved

/-- A token. -/
inductive Token where
  | directive (d : Directive)
  | documentStart
  | documentEnd
  | blockSequenceStart
  | blockMappingStart
  | blockEnd
  | flowSequenceStart
  | flowSequenceEnd
  | flowMappingStart
  | flowMappingEnd
  | flowEntry
  | blockEntry
  | key
  | value
  | reference (name : String)
  | anchor (name : String)
  | tag (handle : Option String) (suffix : String)
  | scalar (text : RawText) (plain : Bool)

/-- A token that may turn out to begin a key. -/
structure KeyCandidate where
  /-- How many tokens stand before it. -/
  before : Nat
  /-- Whether it cannot be anything else, since it stands at the column of a mapping. -/
  required : Bool
  /-- How many characters were left where it begins. -/
  left : Nat
  line : Nat
  column : Nat

/-- What has been read, and what decides how to go on. -/
structure Lexer where
  cursor : Cursor
  /-- The tokens so far, the last one first. -/
  tokens : List Token := []
  /-- How many tokens there are. -/
  count : Nat := 0
  /-- The column of the innermost block collection. -/
  indent : Int := -1
  /-- The columns of the block collections around it. -/
  outer : List Int := []
  /-- The candidates of the block context and of each open flow collection, the innermost first. -/
  candidates : List (Option KeyCandidate) := [none]
  /-- Whether a key may begin at the cursor. -/
  keyAllowed : Bool := true

namespace Lexer

/-- Whether a flow collection is open. -/
def inFlow (l : Lexer) : Bool :=
  1 < l.candidates.length

/-- One more token. -/
def push (l : Lexer) (t : Token) : Lexer :=
  { l with tokens := t :: l.tokens, count := l.count + 1 }

/-- One more token behind the first `before` ones. -/
def insert (l : Lexer) (before : Nat) (t : Token) : Lexer :=
  { l with tokens := l.tokens.insertIdx (l.count - before) t, count := l.count + 1 }

/-- The cursor moved. -/
def moveTo (l : Lexer) (c : Cursor) : Lexer :=
  { l with cursor := c }

/-- One more token of so many characters. -/
def take (l : Lexer) (t : Token) (n : Nat) : Lexer :=
  (l.moveTo (l.cursor.advance n)).push t

/-! ## Keys -/

/-- Whether a candidate is too far away to be a key. -/
def isStale (l : Lexer) (k : KeyCandidate) : Bool :=
  k.line ≠ l.cursor.line || 1024 < k.left - l.cursor.left

/-- The candidates that are still near enough; a required one may not be lost. -/
def dropStale? (l : Lexer) : Option Lexer := do
  let candidates ← l.candidates.mapM fun
    | some k => if l.isStale k then (if k.required then none else some none) else some (some k)
    | none => some none
  return { l with candidates }

/-- The innermost candidate given up; a required one may not be. -/
def dropCandidate? (l : Lexer) : Option Lexer :=
  match l.candidates with
  | some k :: rest => if k.required then none else some { l with candidates := none :: rest }
  | _ => some l

/-- The cursor noted as a place where a key may begin. -/
def noteCandidate? (l : Lexer) : Option Lexer :=
  if l.keyAllowed then do
    let required := !l.inFlow && l.indent = l.cursor.column
    let l ← l.dropCandidate?
    let k : KeyCandidate :=
      ⟨l.count, required, l.cursor.left, l.cursor.line, l.cursor.column⟩
    return { l with candidates := some k :: l.candidates.drop 1 }
  else some l

/-! ## Indentation -/

/-- A block collection at a column opened, unless one is open there: whether it was. -/
def openBlock (l : Lexer) (column : Nat) : Bool × Lexer :=
  if l.indent < column then
    (true, { l with indent := column, outer := l.indent :: l.outer })
  else (false, l)

/-- The block collections to the right of a column closed. -/
def closeBlocks (l : Lexer) (column : Int) : Lexer :=
  if l.inFlow then l
  else
    let inner := (l.indent :: l.outer).takeWhile (column < ·)
    let remaining := (l.indent :: l.outer).drop inner.length
    { l with
      indent := remaining.headD (-1)
      outer := remaining.drop 1
      tokens := inner.map (fun _ => Token.blockEnd) ++ l.tokens
      count := l.count + inner.length }

/-! ## Directives, anchors and tags -/

/-- Whether a character can stand in a name of a directive, an anchor or a handle. -/
def isNameChar (c : Char) : Bool :=
  c.isAlphanum || c = '-' || c = '_'

/-- Whether a character can stand in a tag; a percent sign begins an escaped byte. -/
def isTagChar (c : Char) : Bool :=
  c.isAlphanum || "-;/?:@&=+$,_.!~*'()[]".toList.contains c

/-- A name, which is not empty. -/
def name? (c : Cursor) : Option (String × Cursor) :=
  match c.takeWhile isNameChar with
  | ([], _) => none
  | (name, c) => some (String.ofList name, c)

/-- A run of escaped bytes, which has to be valid text. -/
def escapedBytes? (c : Cursor) : Option (List Char × Cursor) :=
  loop (fun s => s.2.left)
    (fun (bytes, c) => do
      if c.peek = some '%' then
        let byte ← Text.hexNumber? 2 c.next.rest
        return .more (bytes.push (UInt8.ofNat byte), c.advance 3)
      else
        let text ← String.fromUTF8? bytes
        return .done (text.toList, c))
    (ByteArray.empty, c)

/-- The text of a tag behind its handle, which is not empty. -/
def tagText? (c : Cursor) : Option (String × Cursor) := do
  let (text, c) ← loop (fun s => s.2.left)
    (fun (read, c) => do
      let (text, c) := c.takeWhile isTagChar
      if c.peek = some '%' then
        let (escaped, c) ← escapedBytes? c
        return .more (read ++ text ++ escaped, c)
      return .done (read ++ text, c))
    (([] : List Char), c)
  if text.isEmpty then none else return (String.ofList text, c)

/-- A handle: one exclamation mark before a blank, or two with a name between them. -/
def handle? (c : Cursor) : Option (String × Cursor) := do
  if c.peek ≠ some '!' then none
  else if c.peek 1 = some ' ' then return ("!", c.next)
  else
    let (name, c) := c.next.takeWhile isNameChar
    if c.peek ≠ some '!' then none
    else return (String.ofList ('!' :: name ++ ['!']), c.next)

/-- A run of digits, which is not empty. -/
def number? (c : Cursor) : Option (Nat × Cursor) :=
  match c.takeWhile Char.isDigit with
  | ([], _) => none
  | (ds, c) => some (ds.foldl (fun n d => 10 * n + (d.toNat - 48)) 0, c)

/-- A directive and the rest of its line, from the cursor behind the percent sign. -/
def directive? (c : Cursor) : Option (Directive × Cursor) := do
  let (name, c) ← name? c
  if !atBlank c.peek then none
  else if name = "YAML" then
    let (major, c) ← number? c.skipSpaces
    if c.peek ≠ some '.' then none
    else
      let (minor, c) ← number? c.next
      if atBlank c.peek then return (.version major minor, ← c.finishLine?) else none
  else if name = "TAG" then
    let (handle, c) ← handle? c.skipSpaces
    if c.peek ≠ some ' ' then none
    else
      let (stem, c) ← tagText? c.skipSpaces
      if atBlank c.peek then return (.tag handle stem, ← c.finishLine?) else none
  else return (.reserved, ← (c.skipWhile (!endsLine ·)).finishLine?)

/-- The name behind the indicator of an anchor or an alias. -/
def reference? (c : Cursor) : Option (String × Cursor) := do
  let (name, c) ← name? c
  match c.peek with
  | some x =>
    if endsWord (some x) || "?:,]\x7d%@\x60".toList.contains x then return (name, c) else none
  | none => return (name, c)

/-- A tag: given in full between angle brackets, or by a handle, or the lone exclamation mark. -/
def tag? (c : Cursor) : Option (Token × Cursor) := do
  let (t, c) ←
    if c.peek 1 = some '<' then do
      let (text, c) ← tagText? (c.advance 2)
      if c.peek = some '>' then some (Token.tag none text, c.next) else none
    else if endsWord (c.peek 1) then some (Token.tag none "!", c.next)
    else do
      let word := c.next.rest.takeWhile fun x => !(x = ' ' || endsLine x)
      let (handle, c) ← if word.contains '!' then handle? c else some ("!", c.next)
      let (suffix, c) ← tagText? c
      some (Token.tag (some handle) suffix, c)
  if atBlank c.peek then return (t, c) else none

/-! ## One token -/

/-- The blanks, comments and line ends in front of a token. Outside flow collections a key may
begin on a new line. -/
def skipToToken (l : Lexer) : Option Lexer :=
  loop (fun l => l.cursor.left)
    (fun l =>
      let c := l.cursor.skipSpaces.skipComment
      match c.takeBreak? with
      | some (_, c) => some (.more { l with cursor := c, keyAllowed := l.keyAllowed || !l.inFlow })
      | none => some (.done (l.moveTo c)))
    l

/-- A marker of a document or a directive, which closes all blocks. -/
def atTopLevel? (l : Lexer) : Option Lexer := do
  let l ← (l.closeBlocks (-1)).dropCandidate?
  return { l with keyAllowed := false }

/-- The start of a flow collection. -/
def openFlow? (l : Lexer) (t : Token) : Option Lexer := do
  let l ← l.noteCandidate?
  return { l.take t 1 with candidates := none :: l.candidates, keyAllowed := true }

/-- The end of a flow collection. -/
def closeFlow? (l : Lexer) (t : Token) : Option Lexer := do
  let l ← l.dropCandidate?
  if l.inFlow then
    return { l.take t 1 with candidates := l.candidates.drop 1, keyAllowed := false }
  else none

/-- The dash of an item. -/
def blockEntry? (l : Lexer) : Option Lexer := do
  if !l.inFlow && !l.keyAllowed then none
  else
    let (opened, l) := if l.inFlow then (false, l) else l.openBlock l.cursor.column
    let l := if opened then l.push .blockSequenceStart else l
    let l ← { l with keyAllowed := true }.dropCandidate?
    return l.take .blockEntry 1

/-- The question mark of a key. -/
def key? (l : Lexer) : Option Lexer := do
  if !l.inFlow && !l.keyAllowed then none
  else
    let (opened, l) := if l.inFlow then (false, l) else l.openBlock l.cursor.column
    let l := if opened then l.push .blockMappingStart else l
    let l ← { l with keyAllowed := !l.inFlow }.dropCandidate?
    return l.take .key 1

/-- The colon of a value. What stands before it on the line may turn out to be its key. -/
def value? (l : Lexer) : Option Lexer := do
  match l.candidates with
  | some k :: rest =>
    let l := { l with candidates := none :: rest, keyAllowed := false }
    let (opened, l) := if l.inFlow then (false, l) else l.openBlock k.column
    let l := l.insert k.before .key
    let l := if opened then l.insert k.before .blockMappingStart else l
    return l.take .value 1
  | _ =>
    if !l.inFlow && !l.keyAllowed then none
    else
      let (opened, l) := if l.inFlow then (false, l) else l.openBlock l.cursor.column
      let l := if opened then l.push .blockMappingStart else l
      let l ← { l with keyAllowed := !l.inFlow }.dropCandidate?
      return l.take .value 1

/-- A token that may begin a key, behind which no key begins. -/
def inline? (l : Lexer) (read : Cursor → Option (Token × Cursor)) : Option Lexer := do
  let l ← l.noteCandidate?
  let (t, c) ← read l.cursor
  return { (l.moveTo c).push t with keyAllowed := false }

/-- A plain scalar; on a later line a key may begin behind it. -/
def plain? (l : Lexer) : Option Lexer := do
  let l ← l.noteCandidate?
  let (text, c, broken) ← plainScalar l.inFlow (l.indent + 1) l.cursor
  return { (l.moveTo c).push (.scalar (.ofChars text) true) with keyAllowed := broken }

/-- A block scalar, behind which a key may begin. -/
def block? (l : Lexer) (folded : Bool) : Option Lexer := do
  let l ← { l with keyAllowed := true }.dropCandidate?
  let (text, c) ← blockScalar folded l.indent l.cursor.next
  return (l.moveTo c).push (.scalar (.ofChars text) false)

/-- Whether a plain scalar may begin at a cursor. -/
def startsPlain (flow : Bool) (c : Cursor) : Bool :=
  match c.peek with
  | none => false
  | some x =>
    !(endsWord (some x) || "-?:,[]\x7b\x7d#&*!|>'\"%@\x60".toList.contains x) ||
      (!endsWord (c.peek 1) && (x = '-' || (!flow && (x = '?' || x = ':'))))

/-- The next token and those that the indentation puts before it; done at the end of the text. -/
def step (l : Lexer) : Option (Progress Lexer (List Token)) := do
  let l ← l.skipToToken
  let l ← l.dropStale?
  let l := l.closeBlocks l.cursor.column
  let c := l.cursor
  match c.peek with
  | none =>
    let l ← (l.closeBlocks (-1)).dropCandidate?
    return .done l.tokens.reverse
  | some x =>
    let scalar (double : Bool) (c : Cursor) : Option (Token × Cursor) := do
      let (text, c) ← quotedScalar double c.next
      return (.scalar text false, c)
    let l' ←
      -- what stands at the start of a line and belongs to the document
      if x = '%' ∧ c.column = 0 then do
        let l ← l.atTopLevel?
        let (d, c) ← directive? c.next
        some ((l.moveTo c).push (.directive d))
      else if c.column = 0 ∧ c.atMarker "---" then do
        some ((← l.atTopLevel?).take .documentStart 3)
      else if c.column = 0 ∧ c.atMarker "..." then do
        some ((← l.atTopLevel?).take .documentEnd 3)
      -- the indicators of flow collections, which count wherever they stand
      else if x = '[' then l.openFlow? .flowSequenceStart
      else if x = '\x7b' then l.openFlow? .flowMappingStart
      else if x = ']' then l.closeFlow? .flowSequenceEnd
      else if x = '\x7d' then l.closeFlow? .flowMappingEnd
      else if x = ',' then do
        some ((← { l with keyAllowed := true }.dropCandidate?).take .flowEntry 1)
      -- those of block collections, which have to end a word
      else if x = '-' ∧ endsWord (c.peek 1) then l.blockEntry?
      else if x = '?' ∧ (l.inFlow ∨ endsWord (c.peek 1)) then l.key?
      else if x = ':' ∧ (l.inFlow ∨ endsWord (c.peek 1)) then l.value?
      -- properties and scalars
      else if x = '*' then
        l.inline? fun c => (reference? c.next).map fun (name, c) => (.reference name, c)
      else if x = '&' then
        l.inline? fun c => (reference? c.next).map fun (name, c) => (.anchor name, c)
      else if x = '!' then l.inline? tag?
      else if x = '|' ∧ !l.inFlow then l.block? false
      else if x = '>' ∧ !l.inFlow then l.block? true
      else if x = '\'' then l.inline? (scalar false)
      else if x = '"' then l.inline? (scalar true)
      else if startsPlain l.inFlow c then l.plain?
      else none
    return .more l'

end Lexer

/-- The tokens of a text, in front of which a byte order mark may stand. -/
def Token.ofText? (text : List Char) : Option (List Token) :=
  let start := Cursor.ofText text
  loop (fun l => l.cursor.left) Lexer.step
    { cursor := if start.peek = some '\ufeff' then start.next else start }

end Rulebook.Yaml
