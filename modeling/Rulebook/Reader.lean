import Rulebook.Error
import Rulebook.Reading
import Rulebook.Text.Blank

/-!
# Readers

A reader takes a value off the front of a text and leaves a rest that is strictly shorter, so that
whatever repeats a reader ends. A reader that meets another text than it wants reports a mismatch;
one that meets parentheses nested past the limit reports that instead. The two stay apart:
`attempt` turns a mismatch into "nothing here", and nothing turns the other fault into anything.
-/

namespace Rulebook

/-- Why a reader gives no value. -/
inductive Fault where
  /-- The text at hand, and what was expected in front of it. -/
  | mismatch (text : List Char) (expected : Expectation)
  /-- More parentheses are open at once than the limit allows. -/
  | tooDeep
deriving DecidableEq, Repr

/-- What a fault in a text says to its author. -/
def Fault.expected : Fault → Expectation
  | mismatch _ expected => expected
  | tooDeep => .shallowerNesting

/-- The error of a fault met while reading `whole`. -/
def Fault.toParseError (whole : List Char) : Fault → ParseError
  | mismatch text expected => ⟨.ofChars text, expected⟩
  | tooDeep => ⟨.ofChars whole, .shallowerNesting⟩

/-- A reader of values. -/
abbrev Reader (α : Type) := (s : List Char) → Except Fault (Reading α s)

/-- A mismatch means that there is nothing here; nesting too deep stays a fault. -/
def attempt {α : Type} : Except Fault α → Except Fault (Option α)
  | .ok a => .ok (some a)
  | .error (.mismatch _ _) => .ok none
  | .error .tooDeep => .error .tooDeep

namespace Reader

variable {α β : Type}

/-- One reader after the other. -/
def andThen (p : Reader α) (q : Reader β) : Reader (α × β) := fun s => do
  let ⟨a, s₁, h₁⟩ ← p s
  let ⟨b, s₂, h₂⟩ ← q s₁
  return ⟨(a, b), s₂, Nat.lt_trans h₂ h₁⟩

/-- The values of a reader that can be read one after the other, and the rest where the reader
first meets a mismatch. -/
def many (p : Reader α) (s : List Char) :
    Except Fault (List α × { rest : List Char // rest.length ≤ s.length }) := do
  match ← attempt (p s) with
  | none => return ([], ⟨s, Nat.le_refl _⟩)
  | some ⟨a, s₁, h₁⟩ =>
    let (as, ⟨s₂, h₂⟩) ← many p s₁
    return (a :: as, ⟨s₂, Nat.le_trans h₂ (Nat.le_of_lt h₁)⟩)
termination_by s.length

/-- A whole text, but for blanks at its end. -/
def complete (p : Reader α) (s : List Char) : Except Fault α := do
  let ⟨a, rest, _⟩ ← p s
  if rest.all Text.isBlank then return a
  throw (.mismatch rest .endOfExpression)

end Reader

end Rulebook
