import Rulebook.CommandLine.Options
import Rulebook.Expression.Form
import Rulebook.Json.Render
import Rulebook.Request.Document
import Rulebook.Service
import Rulebook.Text.Newline

/-!
# A call of the command line

What a call prints and its exit code. The request is read and checked first, then the file of
further rules; the answer is printed as one line of JSON, or the rules as YAML where only they are
asked for. What a call relies on is its `Host`: files and standard input, decoders and an encoder.
All of them may fail with an error that the call does not catch, and then it has no outcome.
-/

namespace Rulebook.CommandLine

/-- What a call relies on. -/
structure Host (ε : Type) extends Codec ε where
  /-- The text on standard input, which can be read once; after that it is empty. -/
  input : Except ε String
  /-- The text of a file. -/
  file : String → Except (Failure FileFault ε) String

/-- What a call prints, and its exit code. -/
structure Outcome where
  code : Nat
  output : String
deriving DecidableEq, Repr

section AnyHost

variable {ε : Type}

/-- The text at a path, its line ends made the same. -/
def Host.text (host : Host ε) (path : String) : Except (Failure Rejection ε) String := do
  let text ←
    if path = "-" then host.input.mapError .escapes
    else (host.file path).mapError (.map (.unreadable path))
  return String.ofList (Text.unifyNewlines text.toList)

/-- What is left to read behind the text at a path. -/
def Host.after (host : Host ε) (path : String) : Host ε :=
  if path = "-" then { host with input := .ok "" } else host

/-- The format of a request: as given, else by the end of its path. -/
def Options.requestFormat (o : Options) : Format :=
  match o.format with
  | some format => format
  | none =>
    if ".yaml".toList <:+ o.request.toList ∨ ".yml".toList <:+ o.request.toList then .yaml
    else .json

/-- The request of a call, with the rules of the further file behind its own. -/
def Options.load (o : Options) (host : Host ε) : Except (Failure Rejection ε) Request := do
  let request ← host.request o.requestFormat (← host.text o.request)
  match o.rules with
  | none => return request
  | some path =>
    if path.isEmpty then return request
    else
      let more ← host.rules (← (host.after o.request).text path)
      return { request with rules := request.rules ++ more }

/-- A line of JSON. -/
def line (body : Value) : String :=
  Json.render body ++ "\n"

/-- The outcome of an answer. -/
def Outcome.ofResponse (r : Response) : Outcome :=
  ⟨if r.status = 200 then 0 else 1, line r.body⟩

variable [Limits]

/-- The outcome of a request: the rules as YAML where they are asked for, else the answer. -/
def Options.outcome (o : Options) (host : Host ε) (request : Request) : Except ε Outcome :=
  if o.dumpRules then
    match request.store with
    | .ok store => (host.encode store.form).map fun yaml => ⟨0, yaml⟩
    | .error e => .ok (Outcome.ofResponse (.unsolved e))
  else .ok (Outcome.ofResponse request.answer)

/-- The outcome of a call with some options. Where an error is not caught there is none. -/
def Options.run (o : Options) (host : Host ε) : Except ε Outcome :=
  match o.load host with
  | .ok request => o.outcome host request
  | .error (.known rejection) => .ok (Outcome.ofResponse (.rejected rejection))
  | .error (.escapes error) => .error error

/-- The help text. -/
def help : String :=
  "usage: rulebook [-h] [--format FORMAT] [--rules FILE] [--dump-rules] [-v] [REQUEST]\n\n" ++
  "Solve a request against the base rules and its additional rules.\n\n" ++
  "  REQUEST          path of a JSON or YAML request (default: standard input)\n" ++
  "  -h, --help       show this text\n" ++
  "  --format FORMAT  json or yaml (default: by the end of the path, else json)\n" ++
  "  --rules FILE     YAML list of rules to append to those of the request\n" ++
  "  --dump-rules     print the rules as YAML and solve nothing\n" ++
  "  -v, --verbose    report more while solving\n"

/-- The outcome of a call with some arguments. -/
def Host.run (host : Host ε) (arguments : List String) : Except ε Outcome :=
  match Options.parse arguments with
  | .ok options => options.run host
  | .error .help => .ok ⟨0, help⟩
  | .error .usage => .ok ⟨2, ""⟩

end AnyHost

/-! ## With the codec of this library -/

/-- Texts that a call can read. -/
structure Surroundings where
  input : String
  file : String → Except FileFault String

/-- The host that has these texts. It does not tell apart the errors that are not caught. -/
def Surroundings.host (s : Surroundings) : Host Overflow where
  toCodec := .standard .integer .integer
  input := .ok s.input
  file path := (s.file path).mapError .known

/-- The outcome of a call with some arguments, among these texts. -/
def run [Limits] (arguments : List String) (s : Surroundings) : Except Overflow Outcome :=
  s.host.run arguments

end Rulebook.CommandLine
