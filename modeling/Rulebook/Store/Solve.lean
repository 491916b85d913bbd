import Rulebook.Store

/-!
# Solving

A solution of a store for given bindings is the label of the newest true matcher, and the value of
the newest formula for that label. Matchers older than the first true one are not looked at, and
neither is any other formula; a matcher that cannot be reduced is an error, not a false one.
-/

namespace Rulebook

/-- A label and its value. -/
structure Solution where
  label : String
  value : Float

/-- The error of a rule whose expression has no value. -/
def Rule.solveError {ε : Type} (rule : Rule ε) : ReduceFault → SolveError
  | .undefinedVariable name => .undefinedVariable name
  | .tooDeep => .parse ⟨rule.text, .shallowerNesting⟩

namespace Store

variable [Limits]

/-- The label of the first true matcher of a list. -/
def firstLabel (bindings : Bindings Bool) : List (Rule Matcher) → Except SolveError String
  | [] => .error (.noSolution none)
  | rule :: rules =>
    match rule.expression.reduce bindings with
    | .ok true => .ok rule.label
    | .ok false => firstLabel bindings rules
    | .error fault => .error (rule.solveError fault)

/-- The label of the newest true matcher. -/
def label (store : Store) (bindings : Bindings Bool) : Except SolveError String :=
  firstLabel bindings store.matchers.reverse

/-- The newest formula for a label. -/
def formula? (store : Store) (label : String) : Option (Rule Formula) :=
  store.formulas.reverse.find? fun rule => rule.label == label

/-- The value of a formula rule. -/
def value (bindings : Bindings Float) (rule : Rule Formula) : Except SolveError Float :=
  match rule.expression.reduce bindings nestingLimit with
  | .ok value => .ok value
  | .error fault => .error (rule.solveError fault)

/-- The solution of a store. -/
def solve (store : Store) (truths : Bindings Bool) (numbers : Bindings Float) :
    Except SolveError Solution := do
  let label ← store.label truths
  match store.formula? label with
  | none => throw (.noSolution (some label))
  | some rule => return ⟨label, ← value numbers rule⟩

end Store

end Rulebook
