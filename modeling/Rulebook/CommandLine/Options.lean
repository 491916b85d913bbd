import Rulebook.Rejection
import Rulebook.Text.DecimalDigit

/-!
# Options of the command line

The arguments of a call: a path to a request, and options in any order around it. Long options
can be abbreviated as long as only one begins so, and take a value as the next argument or behind
an equals sign; short ones can be written together. The last of a repeated option counts, and
behind `--` everything is a path.
-/

namespace Rulebook.CommandLine

/-- What a call asks for. -/
structure Options where
  /-- The path of the request, `-` for standard input. -/
  request : String := "-"
  format : Option Format := none
  /-- The path of a file with further rules; the empty path stands for none. -/
  rules : Option String := none
  dumpRules : Bool := false
  verbose : Bool := false

/-- Why a call is not carried out. -/
inductive Refusal where
  | help
  | usage
deriving DecidableEq, Repr

/-- The options. -/
inductive Switch where
  | help
  | format
  | rules
  | dumpRules
  | verbose
deriving DecidableEq, Repr

/-- Whether an option takes a value. -/
def Switch.takesValue : Switch → Bool
  | format | rules => true
  | help | dumpRules | verbose => false

/-- The spellings of the options. -/
def switchNames : List (String × Switch) :=
  [("-h", .help), ("--help", .help), ("--format", .format), ("--rules", .rules),
    ("--dump-rules", .dumpRules), ("-v", .verbose), ("--verbose", .verbose)]

/-- The option of a spelling. -/
def switch? (name : List Char) : Option Switch :=
  (switchNames.find? fun e => e.1.toList = name).map Prod.snd

/-- An argument by its form. -/
inductive Argument where
  /-- A path or the value of an option. -/
  | operand (text : String)
  /-- An option; `short` if its spelling has one dash, and what is attached to it. -/
  | switch (switch : Switch) (short : Bool) (attached : Option (List Char))
  /-- What looks like an option and is none. -/
  | unknown
  /-- The mark behind which there are no options. -/
  | separator

/-! ## The form of an argument -/

/-- Splits a text at its first equals sign. -/
def splitEquals (s : List Char) : List Char × Option (List Char) :=
  match s.dropWhile (· ≠ '=') with
  | [] => (s, none)
  | _ :: value => (s.takeWhile (· ≠ '='), some value)

/-- Whether an argument is a negative number, and so no option. One line end may stand behind it. -/
def isNegativeNumber (s : List Char) : Bool :=
  match if s.getLast? = some '\n' then s.dropLast else s with
  | '-' :: digits =>
    match digits.dropWhile Text.isDigit with
    | [] => !digits.isEmpty
    | '.' :: fraction => !fraction.isEmpty && fraction.all Text.isDigit
    | _ => false
  | _ => false

/-- The options that an argument may abbreviate, with what is attached. -/
def candidates (s : List Char) : List Argument :=
  match s with
  | '-' :: '-' :: _ =>
    let (stem, value) := splitEquals s
    switchNames.filterMap fun e =>
      if stem <+: e.1.toList then some (.switch e.2 false value) else none
  | '-' :: c :: more =>
    (switch? ['-', c]).toList.map fun sw => .switch sw true (some more)
  | _ => []

/-- The form of an argument in front of which no separator stands. -/
def classify (text : String) : Except Refusal Argument :=
  let s := text.toList
  if s.head? ≠ some '-' ∨ s = ['-'] then .ok (.operand text)
  else match switch? s with
    | some sw => .ok (.switch sw (s.length = 2) none)
    | none =>
      let (name, value) := splitEquals s
      match switch? name, value with
      | some sw, some value => .ok (.switch sw (name.length = 2) (some value))
      | _, _ =>
        match candidates s with
        | [argument] => .ok argument
        | [] =>
          if isNegativeNumber s || s.contains ' ' then .ok (.operand text) else .ok .unknown
        | _ => .error .usage

/-- The forms of all arguments. -/
def classifyAll : List String → Except Refusal (List Argument)
  | [] => .ok []
  | "--" :: rest => .ok (.separator :: rest.map .operand)
  | text :: rest => do return (← classify text) :: (← classifyAll rest)

/-! ## The options of a call -/

/-- How far the arguments of a call have been read. -/
structure Progress where
  options : Options := {}
  /-- Whether the path of the request has been given. -/
  hasRequest : Bool := false
  /-- Whether an argument was left over. -/
  hasExtra : Bool := false

/-- Sets an option that takes no value. -/
def Progress.set (p : Progress) : Switch → Except Refusal Progress
  | .help => .error .help
  | .dumpRules => .ok { p with options := { p.options with dumpRules := true } }
  | .verbose => .ok { p with options := { p.options with verbose := true } }
  | .format | .rules => .error .usage

/-- Sets an option to a value. -/
def Progress.setValue (p : Progress) (sw : Switch) (value : String) : Except Refusal Progress :=
  match sw with
  | .format =>
    match value with
    | "json" => .ok { p with options := { p.options with format := some .json } }
    | "yaml" => .ok { p with options := { p.options with format := some .yaml } }
    | _ => .error .usage
  | .rules => .ok { p with options := { p.options with rules := some value } }
  | .help | .dumpRules | .verbose => .error .usage

/-- The short options written together behind the first one. -/
def cluster : List Char → Except Refusal (List Switch)
  | [] => .ok []
  | c :: more =>
    match switch? ['-', c] with
    | some sw => do return sw :: (← cluster more)
    | none => .error .usage

/-- Reads the arguments of a call from left to right. Only the first operand is the request, the
separator is passed over beside it, and what is left over is an error at the end. -/
def Progress.read (p : Progress) : List Argument → Except Refusal Progress
  | [] => .ok p
  | .unknown :: rest => { p with hasExtra := true }.read rest
  | .separator :: rest =>
    if p.hasRequest then { p with hasExtra := true }.read rest else p.read rest
  -- a separator right behind the request belongs to it, and then nothing can follow
  | [.operand text, .separator] =>
    if p.hasRequest then .ok { p with hasExtra := true }
    else .ok { p with options := { p.options with request := text }, hasRequest := true }
  | .operand text :: .separator :: .operand _ :: _ =>
    .ok { p with options := { p.options with request := text }, hasExtra := true }
  | .operand text :: rest =>
    if p.hasRequest then { p with hasExtra := true }.read rest
    else
      { p with options := { p.options with request := text }, hasRequest := true }.read rest
  | .switch sw short attached :: rest =>
    match attached with
    | some value =>
      if sw.takesValue then do (← p.setValue sw (String.ofList value)).read rest
      else if short ∧ value ≠ [] then do
        let more ← cluster value
        ((← (sw :: more).foldlM Progress.set p)).read rest
      else .error .usage
    | none =>
      if sw.takesValue then
        match rest with
        | .operand value :: rest => do (← p.setValue sw value).read rest
        | _ => .error .usage
      else do (← p.set sw).read rest

/-- The options of a call. -/
def Options.parse (arguments : List String) : Except Refusal Options := do
  let p ← Progress.read {} (← classifyAll arguments)
  if p.hasExtra then .error .usage else return p.options

end Rulebook.CommandLine
