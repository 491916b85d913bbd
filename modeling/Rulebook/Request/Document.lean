import Rulebook.Json.Read
import Rulebook.Request
import Rulebook.Yaml.Read
import Rulebook.Yaml.Render

/-!
# Requests and files of rules as texts

A request is written in JSON or in YAML. A file of rules is a YAML list of texts; an empty one
holds no rules. Texts are decoded and values are encoded by a `Codec`, which may be any. What it
complains about is a reason to reject a text; any other error of it is not caught here or later.
-/

namespace Rulebook

/-- A failure: one that is known and has a cause to tell, or an error that nobody catches. -/
inductive Failure (κ ε : Type) where
  | known (cause : κ)
  | escapes (error : ε)

/-- The failure with its cause put in other terms. -/
def Failure.map {κ κ' ε : Type} (f : κ → κ') : Failure κ ε → Failure κ' ε
  | known cause => known (f cause)
  | escapes error => escapes error

/-- What decodes texts and encodes values. Errors of the type `ε` are caught by nobody. -/
structure Codec (ε : Type) where
  /-- The value of a text, or a complaint about the text, which need not have words. -/
  decode : Format → String → Except (Failure (Option String) ε) Value
  /-- The value in YAML. -/
  encode : Value → Except ε String
  /-- The error of an integer that is too large for a double. -/
  overflow : ε

/-- The rules of a decoded file. -/
def rulesOfValue : Value → Except Rejection (List RawText)
  | .null => .ok []
  | value =>
    match value.texts? with
    | some rules => .ok rules
    | none => .error .fileNotTexts

namespace Codec

variable {ε : Type} (codec : Codec ε)

/-- The value of a text that is rejected where the decoder complains about it. -/
def read (format : Format) (text : String) : Except (Failure Rejection ε) Value :=
  (codec.decode format text).mapError (.map (.malformed format))

/-- The failure of a value that is no request. -/
def failure : RequestFault → Failure Rejection ε
  | .rejected rejection => .known rejection
  | .overflow => .escapes codec.overflow

/-- The request that a text writes. -/
def request (format : Format) (text : String) : Except (Failure Rejection ε) Request := do
  let value ← codec.read format text
  (Request.ofValue value).mapError codec.failure

/-- The rules that a text writes. -/
def rules (text : String) : Except (Failure Rejection ε) (List RawText) := do
  let value ← codec.read .yaml text
  (rulesOfValue value).mapError .known

end Codec

/-! ## The codec of this library -/

/-- The decoders and the encoder of this library. Their complaints have no words, and of YAML two
levels are decoded: a request has its fields there, and the variables and rules in them. -/
def Codec.standard {ε : Type} (overflow noValue : ε) : Codec ε where
  decode
    | .json, text =>
      match Json.read? text with
      | some value => .ok value
      | none => .error (.known none)
    | .yaml, text => (Yaml.read 2 text).mapError fun
      | .malformed => .known none
      | .overflow => .escapes overflow
      | .noValue => .escapes noValue
  encode value := .ok (Yaml.render value)
  overflow := overflow

/-- The failure of a text as a fault of a request, which does not tell errors apart. -/
def RequestFault.ofFailure : Failure Rejection Unit → RequestFault
  | .known rejection => .rejected rejection
  | .escapes () => .overflow

/-- The request that a text writes. -/
def Request.ofText (format : Format) (text : String) : Except RequestFault Request :=
  ((Codec.standard () ()).request format text).mapError .ofFailure

/-- The rules that a text writes. -/
def rulesOfText (text : String) : Except RequestFault (List RawText) :=
  ((Codec.standard () ()).rules text).mapError .ofFailure

end Rulebook
