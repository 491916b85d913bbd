import Rulebook.Formula
import Rulebook.Matcher

/-!
# Rules

A rule ties an expression to a label. A matcher rule `A && !B => H = P` produces its label when
its matcher is true, a formula rule `H = P => K = D + 1` computes the value for its label.
-/

namespace Rulebook

open Rulebook.Text

/-- An expression, its label, and the text that was read. -/
structure Rule (ε : Type) where
  expression : ε
  label : String
  text : String

/-! ## Matcher rules -/

/-- The label of the clause `=> H = <LABEL>`, behind which only blanks stand. -/
def matcherLabel? (s : List Char) : Option String := do
  let s ← dropToken? "=>" s
  let s ← dropToken? "H" (skipBlanks s)
  let s ← dropToken? "=" (skipBlanks s)
  let (label, s) ← takeWord? (skipBlanks s)
  if (skipBlanks s).isEmpty then some (String.ofList label) else none

/-- Reads a whole matcher rule: the matcher and the label. -/
def Matcher.readRule (s : List Char) : Except Fault (Matcher × String) := do
  let ⟨matcher, rest, _⟩ ← Matcher.read s
  match matcherLabel? rest with
  | some label => return (matcher, label)
  | none => throw (.mismatch rest .matcherClause)

/-! ## Formula rules -/

/-- The label of the clause `H = <LABEL> => K =` and what follows the clause. -/
def formulaLabel? (s : List Char) : Option (String × List Char) := do
  let s ← dropToken? "H" (skipBlanks s)
  let s ← dropToken? "=" (skipBlanks s)
  let (label, s) ← takeWord? (skipBlanks s)
  let s ← dropToken? "=>" (skipBlanks s)
  let s ← dropToken? "K" (skipBlanks s)
  let s ← dropToken? "=" (skipBlanks s)
  return (String.ofList label, s)

/-- Reads a whole formula rule: the formula and the label. -/
def Formula.readRule (limit : Nat) (s : List Char) : Except Fault (Formula × String) :=
  match formulaLabel? s with
  | some (label, rest) => do
    let formula ← (Formula.read limit).complete rest
    return (formula, label)
  | none => throw (.mismatch s .formulaClause)

end Rulebook
