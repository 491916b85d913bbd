import Rulebook.Text.Pattern

/-!
# Tags

The tag of a node says what is made of it. A plain scalar without a tag gets the one whose written
form it has: null, a truth value, a number, a date, one of the two special mapping keys, or else
text. Integers may be binary, octal, hexadecimal or sexagesimal, and underscores between digits do
not count. An exponent of a float needs a point before it and a sign in it.
-/

namespace Rulebook.Yaml

open Rulebook.Text

/-- The standard tags, and all others as one. -/
inductive Tag where
  | null
  | bool
  | int
  | float
  | binary
  | timestamp
  | text
  | sequence
  | orderedMap
  | pairs
  | mapping
  | set
  /-- The key `<<`, which takes over the fields of another mapping. -/
  | merge
  /-- The key `=`, whose value stands for the mapping where a scalar is asked for. -/
  | default
  | unknown
deriving DecidableEq, Repr

namespace Tag

/-! ## The written forms -/

/-- An optional sign. -/
def sign : Pattern :=
  .optional (.char '+' ||| .char '-')

/-- A digit or an underscore. -/
def loose : Pattern :=
  .one fun c => c.isDigit || c == '_'

/-- Colons with sexagesimal digits, at least once. -/
def sixties : Pattern :=
  .some (.char ':' ++ .optional (.one fun c => '0' ≤ c && c ≤ '5') ++ .digit)

def nullForm : Pattern :=
  .oneOf ["~", "null", "Null", "NULL", ""]

def trueForm : Pattern :=
  .oneOf ["yes", "Yes", "YES", "true", "True", "TRUE", "on", "On", "ON"]

def falseForm : Pattern :=
  .oneOf ["no", "No", "NO", "false", "False", "FALSE", "off", "Off", "OFF"]

def intForm : Pattern :=
  let leading : Pattern := .one fun c => '1' ≤ c && c ≤ '9'
  sign ++
    (.text "0b" ++ .some (.one fun c => c == '0' || c == '1' || c == '_') |||
      .char '0' ++ .some (.one fun c => ('0' ≤ c && c ≤ '7') || c == '_') |||
      .char '0' |||
      leading ++ .many loose |||
      .text "0x" ++ .some (.one fun c =>
        c.isDigit || ('a' ≤ c && c ≤ 'f') || ('A' ≤ c && c ≤ 'F') || c == '_') |||
      leading ++ .many loose ++ sixties)

def floatForm : Pattern :=
  let exponent : Pattern :=
    .optional ((.char 'e' ||| .char 'E') ++ (.char '+' ||| .char '-') ++ .some .digit)
  sign ++ .digit ++ .many loose ++ .char '.' ++ .many loose ++ exponent |||
    .char '.' ++ .digit ++ .many loose ++ exponent |||
    sign ++ .digit ++ .many loose ++ sixties ++ .char '.' ++ .many loose |||
    sign ++ .oneOf [".inf", ".Inf", ".INF"] |||
    .oneOf [".nan", ".NaN", ".NAN"]

def timestampForm : Pattern :=
  let two : Pattern := .digit ++ .digit
  let oneOrTwo : Pattern := .digit ++ .optional .digit
  let blank : Pattern := .one fun c => c == ' ' || c == '\t'
  two ++ two ++ .char '-' ++ two ++ .char '-' ++ two |||
    two ++ two ++ .char '-' ++ oneOrTwo ++ .char '-' ++ oneOrTwo ++
      (.char 'T' ||| .char 't' ||| .some blank) ++ oneOrTwo ++ .char ':' ++ two ++ .char ':' ++
      two ++ .optional (.char '.' ++ .many .digit) ++
      .optional (.many blank ++
        (.char 'Z' ||| (.char '+' ||| .char '-') ++ oneOrTwo ++ .optional (.char ':' ++ two)))

/-- The tag of the written form of a text. One line end behind it does not matter. -/
def ofForm (s : List Char) : Tag :=
  let t := if s.getLast? = some '\n' ∧ s ≠ ['\n'] then s.dropLast else s
  if (trueForm ||| falseForm).accepts t then bool
  else if floatForm.accepts t then float
  else if intForm.accepts t then int
  else if t = ['<', '<'] then merge
  else if nullForm.accepts t then null
  else if timestampForm.accepts t then timestamp
  else if t = ['='] then default
  else if t = ['!'] ∨ t = ['&'] ∨ t = ['*'] then unknown
  else text

/-! ## Tags that are given -/

/-- What the names of the standard tags begin with. -/
def standardStem : String :=
  "tag:yaml.org,2002:"

/-- The names of the standard tags behind their stem. -/
def standardNames : List (String × Tag) :=
  [("null", null), ("bool", bool), ("int", int), ("float", float), ("binary", binary),
    ("timestamp", timestamp), ("str", text), ("seq", sequence), ("omap", orderedMap),
    ("pairs", pairs), ("map", mapping), ("set", set), ("merge", merge), ("value", default)]

/-- The tag of a full name. -/
def ofName (name : String) : Tag :=
  match standardNames.find? fun e => standardStem ++ e.1 = name with
  | some e => e.2
  | none => unknown

/-- The tag of a scalar. The lone exclamation mark asks for the tag of the written form, also of a
text in quotes. -/
def ofScalar (given : Option String) (plain : Bool) (s : List Char) : Tag :=
  match given with
  | none => if plain then ofForm s else text
  | some "!" => ofForm s
  | some name => ofName name

/-- The tag of a collection, of which `kind` is the usual one. -/
def ofCollection (kind : Tag) : Option String → Tag
  | none => kind
  | some "!" => kind
  | some name => ofName name

end Tag

end Rulebook.Yaml
