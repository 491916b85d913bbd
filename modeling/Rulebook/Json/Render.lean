import Rulebook.Number.Layout
import Rulebook.Text.Hex
import Rulebook.Value

/-!
# Writing JSON

The text of a value on one line, in ASCII: a space behind every comma and colon, and an escape of
code units for every code that is not printable ASCII.
-/

namespace Rulebook.Json

/-- The escape of a code unit. -/
def unitEscape (u : Nat) : List Char :=
  '\\' :: 'u' :: Text.hexDigits 4 u

/-- A code inside a string. -/
def encodeCode (code : Nat) : List Char :=
  match Char.ofNat code with
  | '"' => ['\\', '"']
  | '\\' => ['\\', '\\']
  | '\n' => ['\\', 'n']
  | '\r' => ['\\', 'r']
  | '\t' => ['\\', 't']
  | '\x08' => ['\\', 'b']
  | '\x0c' => ['\\', 'f']
  | c =>
    if ' ' ≤ c ∧ c ≤ '~' then [c]
    else if code < 0x10000 then unitEscape code
    else
      let u := code - 0x10000
      unitEscape (0xD800 + u / 0x400) ++ unitEscape (0xDC00 + u % 0x400)

/-- A string in its quotes, in front of what follows it. -/
def encodeText (text : RawText) (rest : List Char) : List Char :=
  '"' :: text.codes.foldr (fun code rest => encodeCode code ++ rest) ('"' :: rest)

mutual

/-- The characters of a value in front of what follows it. -/
def encode (rest : List Char) : Value → List Char
  | .null => "null".toList ++ rest
  | .bool true => "true".toList ++ rest
  | .bool false => "false".toList ++ rest
  | .int n => (toString n).toList ++ rest
  | .float x => (Number.Layout.plain.render x).toList ++ rest
  | .text t => encodeText t rest
  | .list [] => '[' :: ']' :: rest
  | .list (x :: xs) => '[' :: encode (encodeItems (']' :: rest) xs) x
  | .record [] => '\x7b' :: '\x7d' :: rest
  | .record ((name, x) :: fields) =>
    '\x7b' :: encodeText name (':' :: ' ' :: encode (encodeFields ('\x7d' :: rest) fields) x)
  | .other => "null".toList ++ rest

/-- The items behind the first one, in front of what follows them. -/
def encodeItems (rest : List Char) : List Value → List Char
  | [] => rest
  | x :: xs => ',' :: ' ' :: encode (encodeItems rest xs) x

/-- The fields behind the first one, in front of what follows them. -/
def encodeFields (rest : List Char) : List (String × Value) → List Char
  | [] => rest
  | (name, x) :: fields =>
    ',' :: ' ' :: encodeText name (':' :: ' ' :: encode (encodeFields rest fields) x)

end

/-- The text of a value. -/
def render (value : Value) : String :=
  String.ofList (encode [] value)

end Rulebook.Json
