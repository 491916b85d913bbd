import Rulebook.Text.RawText

/-!
# Errors of rules

What can go wrong between a rule text and a solution, as causes. The wording is in
`Expectation.hint` and `SolveError.message` only.
-/

namespace Rulebook

/-- What a reader was looking for where the text did not go on as it should. -/
inductive Expectation where
  /-- One of these operator tokens. -/
  | oneOf (tokens : List String)
  /-- A leaf of a matcher. -/
  | literal
  /-- A leaf of a formula. -/
  | factor
  /-- The clause at the end of a matcher rule. -/
  | matcherClause
  /-- The clause at the start of a formula rule. -/
  | formulaClause
  /-- Nothing more. -/
  | endOfExpression
  /-- Fewer parentheses open at once. -/
  | shallowerNesting
deriving DecidableEq, Repr

/-- The hint shown to the author of a rule. -/
def Expectation.hint : Expectation → String
  | oneOf tokens => " or ".intercalate (tokens.map fun t => "'" ++ t ++ "'")
  | literal => "true, false or a name"
  | factor => "number, name or parenthesized expression"
  | matcherClause => "=> H = <LABEL>"
  | formulaClause => "H = <LABEL> => K ="
  | endOfExpression => "end of expression"
  | shallowerNesting => "shallower nesting"

/-- A text that does not parse, verbatim, and what would have been expected in it. -/
structure ParseError where
  text : RawText
  expected : Expectation
deriving DecidableEq, Repr

/-- Why a store gives no solution. -/
inductive SolveError where
  /-- A rule nests too deeply, or a text does not parse. -/
  | parse (e : ParseError)
  /-- A rule mentions a variable that has no value. -/
  | undefinedVariable (name : String)
  /-- No matcher is true, or no formula requires the label of the first true one. -/
  | noSolution (label : Option String)
deriving DecidableEq, Repr

/-- The message of a text that does not parse. -/
def ParseError.message (e : ParseError) : RawText :=
  .ofString "Unable to parse the expression " ++ e.text

/-- The message of a failed solution. -/
def SolveError.message : SolveError → RawText
  | parse e => e.message
  | undefinedVariable name => .ofString ("Variable " ++ name ++ " is undefined")
  | noSolution _ => "Unable to find the solution"

end Rulebook
