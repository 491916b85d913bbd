import Rulebook.Bindings
import Rulebook.Number.Nearest
import Rulebook.Rejection
import Rulebook.Value

/-!
# Requests

A request asks for the solution of the base rules and some additional ones under six variables:
the truth values A, B and C for the matchers, the numbers D, E and F for the formulas. A decoded
value is checked in a fixed order, and the first check that fails gives the reason.
-/

namespace Rulebook

/-- The values of the six variables. -/
structure Variables where
  a : Bool
  b : Bool
  c : Bool
  d : Float
  e : Float
  f : Float

namespace Variables

/-- The truth values by name. -/
def truthTable (v : Variables) : List (String × Bool) :=
  [("A", v.a), ("B", v.b), ("C", v.c)]

/-- The numbers by name. -/
def numberTable (v : Variables) : List (String × Float) :=
  [("D", v.d), ("E", v.e), ("F", v.f)]

/-- The bindings of the matchers. -/
def truths (v : Variables) : Bindings Bool :=
  Bindings.ofList v.truthTable

/-- The bindings of the formulas. -/
def numbers (v : Variables) : Bindings Float :=
  Bindings.ofList v.numberTable

end Variables

/-- Rules to add to the base rules, and variables to solve for. -/
structure Request where
  rules : List RawText
  values : Variables

/-- Why no request comes out of a value. -/
inductive RequestFault where
  /-- The sender is given a reason. -/
  | rejected (rejection : Rejection)
  /-- An integer is too large for a double; there is no answer to that. -/
  | overflow
deriving DecidableEq, Repr

/-! ## Checking a value -/

/-- A list of texts. -/
def Value.texts? : Value → Option (List RawText)
  | list items => items.mapM fun
    | text t => some t
    | _ => none
  | _ => none

/-- The truth value of a variable. -/
def Variables.truthOf (fields : List (String × Value)) (name : String) :
    Except RequestFault Bool :=
  match Value.field fields name with
  | .bool value => .ok value
  | _ => .error (.rejected (.variableNotTruth name))

/-- The number of a variable. -/
def Variables.numberOf (fields : List (String × Value)) (name : String) :
    Except RequestFault Float :=
  match Value.field fields name with
  | .float x => .ok x
  | .int n =>
    match Number.ofInt? n with
    | some x => .ok x
    | none => .error .overflow
  | _ => .error (.rejected (.variableNotNumber name))

/-- The six variables of a value. -/
def Variables.ofValue : Value → Except RequestFault Variables
  | .record fields => do
    return {
      a := ← truthOf fields "A"
      b := ← truthOf fields "B"
      c := ← truthOf fields "C"
      d := ← numberOf fields "D"
      e := ← numberOf fields "E"
      f := ← numberOf fields "F" }
  | _ => .error (.rejected .variablesNotObject)

/-- The request of a value. -/
def Request.ofValue : Value → Except RequestFault Request
  | .record fields =>
    match (Value.field fields "additional_rules").texts? with
    | none => .error (.rejected .rulesNotTexts)
    | some rules => do return ⟨rules, ← Variables.ofValue (Value.field fields "variables")⟩
  | _ => .error (.rejected .requestNotObject)

end Rulebook
