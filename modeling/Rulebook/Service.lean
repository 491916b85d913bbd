import Rulebook.Request
import Rulebook.Store.Solve

/-!
# Service

The answer to a request: every request starts from the base rules, adds its own and is solved. A
value that is no request is rejected with status 400, a request without a solution with 422.
-/

namespace Rulebook

/-- An answer to a request. -/
inductive Response where
  | solved (solution : Solution)
  | rejected (rejection : Rejection)
  | unsolved (error : SolveError)

namespace Response

/-- The status code of an answer. -/
def status : Response → Nat
  | solved _ => 200
  | rejected _ => 400
  | unsolved _ => 422

/-- The body that carries a reason. -/
def reasonBody (reason : RawText) : Value :=
  .record [("reason", .text reason)]

/-- A number, or null if it is not finite. -/
def finiteOrNull (x : Float) : Value :=
  if x.isFinite then .float x else .null

/-- The body of an answer. -/
def body : Response → Value
  | solved s => .record [("H", .text s.label), ("K", finiteOrNull s.value)]
  | rejected r => reasonBody r.reason
  | unsolved e => reasonBody e.message

end Response

variable [Limits]

namespace Request

/-- The store of the base rules and those of the request. -/
def store (request : Request) : Except SolveError Store :=
  match Store.base.extend request.rules with
  | .ok store => .ok store
  | .error e => .error (.parse e)

/-- The solution of a request. -/
def solve (request : Request) : Except SolveError Solution := do
  (← request.store).solve request.values.truths request.values.numbers

/-- The answer to a request. -/
def answer (request : Request) : Response :=
  match request.solve with
  | .ok solution => .solved solution
  | .error e => .unsolved e

end Request

/-- An integer in a request is too large for a double. -/
inductive Overflow where
  | integer
deriving DecidableEq, Repr

/-- The answer to a decoded value. -/
def Service.handle (value : Value) : Except Overflow Response :=
  match Request.ofValue value with
  | .ok request => .ok request.answer
  | .error (.rejected rejection) => .ok (.rejected rejection)
  | .error .overflow => .error .integer

end Rulebook
