import Rulebook.CommandLine.Run

/-!
# The program

Reads what a call names, and prints its outcome. Everything that is decided is decided in
`Rulebook.CommandLine`; an error that is not caught there is printed as it is.
-/

open Rulebook CommandLine

/-- What the system calls an error. -/
def systemName : IO.Error → String
  | .alreadyExists _ _ name | .interrupted _ _ name | .noFileOrDirectory _ _ name
  | .invalidArgument _ _ name | .permissionDenied _ _ name | .resourceExhausted _ _ name
  | .inappropriateType _ _ name | .noSuchThing _ _ name => name
  | .otherError _ name | .resourceBusy _ name | .resourceVanished _ name
  | .unsupportedOperation _ name | .hardwareFault _ name | .unsatisfiedConstraints _ name
  | .illegalOperation _ name | .protocolError _ name | .timeExpired _ name => name
  | .unexpectedEof => "End of file"
  | .userError message => message

/-- The text in some bytes. -/
def textOf (source : String) (bytes : ByteArray) : Except String String :=
  match String.fromUTF8? bytes with
  | some text => .ok text
  | none => .error (source ++ " is not in UTF-8")

/-- The text of a file. -/
def readFileText (path : String) : IO (Except (Failure FileFault String) String) := do
  try
    return (textOf path (← IO.FS.readBinFile path)).mapError .escapes
  catch error =>
    return .error (.known (.other (systemName error)))

/-- Reads the files and the input that the arguments name. -/
def gather (arguments : List String) : IO (Host String) := do
  let paths := match Options.parse arguments with
    | .ok o => o.request :: o.rules.toList
    | .error _ => []
  let files ← (paths.filter (· ≠ "-")).mapM fun path => do return (path, ← readFileText path)
  let input ←
    if paths.contains "-" then pure (textOf "standard input" (← (← IO.getStdin).readBinToEnd))
    else pure (.ok "")
  return {
    toCodec := .standard "an integer is too large for a double" "a scalar has no value"
    input
    file := fun path => (files.lookup path).getD (.error (.known .missing)) }

/-- Carries out a call. -/
def main (arguments : List String) : IO UInt32 := do
  let host ← gather arguments
  match host.run arguments with
  | .ok outcome =>
    IO.print outcome.output
    return UInt32.ofNat outcome.code
  | .error message =>
    IO.eprintln message
    return 1
