import Rulebook.Bindings
import Rulebook.Chain
import Rulebook.Text.Word

/-!
# Matchers

A matcher is a condition on truth values: literals joined by `&&` and `||`, which bind equally
tight and are taken from left to right, so that `A || B && C` is `(A || B) && C`. There are no
parentheses. A literal is `true`, `false` or a name, each with an optional `!` that touches it;
the negation of a constant is carried out when it is read.
-/

namespace Rulebook

/-- A leaf of a matcher. -/
inductive Literal where
  | const (value : Bool)
  | var (name : String)
  | negated (name : String)
deriving DecidableEq, Repr

/-- Literals joined by connectives. -/
abbrev Matcher := Chain Connective Literal

namespace Literal

/-- The literal of a word and an optional negation. -/
def ofWord (negation : Bool) (word : List Char) : Literal :=
  if word = ['t', 'r', 'u', 'e'] then .const (!negation)
  else if word = ['f', 'a', 'l', 's', 'e'] then .const negation
  else if negation then .negated (String.ofList word)
  else .var (String.ofList word)

/-- An optional negation: whether it is there, and what follows. -/
def takeNegation : List Char → Bool × List Char
  | '!' :: s => (true, s)
  | s => (false, s)

theorem length_takeNegation_le (s : List Char) : (takeNegation s).2.length ≤ s.length := by
  unfold takeNegation
  split <;> simp

/-- Reads a literal and the blanks on both sides of it. -/
def read : Reader Literal := fun s =>
  match h : Text.takeWord? (takeNegation (Text.skipBlanks s)).2 with
  | none => .error (.mismatch s .literal)
  | some (word, rest) =>
    let negation := (takeNegation (Text.skipBlanks s)).1
    .ok ⟨ofWord negation word, Text.skipBlanks rest, by
      have h₁ := Text.length_skipBlanks_le s
      have h₂ := length_takeNegation_le (Text.skipBlanks s)
      have h₃ := Text.length_takeWord?_lt h
      have h₄ := Text.length_skipBlanks_le rest
      omega⟩

/-- The truth value of a literal. -/
def reduce (bindings : Bindings Bool) : Literal → Except ReduceFault Bool
  | .const value => .ok value
  | .var name => bindings.lookup name
  | .negated name => (bindings.lookup name).map (!·)

/-- The name in a literal, if any. -/
def names : Literal → List String
  | .const _ => []
  | .var name => [name]
  | .negated name => [name]

end Literal

namespace Matcher

/-- Reads a matcher. -/
def read : Reader Matcher :=
  Chain.read Literal.read

/-- Whether a matcher is true. -/
def reduce (bindings : Bindings Bool) (m : Matcher) : Except ReduceFault Bool :=
  Chain.reduce (Literal.reduce bindings) m

/-- The names in a matcher, from left to right. -/
def names (m : Matcher) : List String :=
  Chain.names Literal.names m

/-- How many nodes a matcher has. -/
def size (m : Matcher) : Nat :=
  Chain.size (fun _ => 1) m

/-- How many levels a matcher has. -/
def depth (m : Matcher) : Nat :=
  Chain.depth (fun _ => 1) m

end Matcher

end Rulebook
