import Rulebook.Reader

/-!
# Operators

A closed set of binary operators in the order in which their tokens are tried, so that a token
that begins another one has to stand behind it.
-/

namespace Rulebook

/-- Binary operators `ω` on values `β`. -/
class Operator (ω : Type) (β : outParam Type) where
  all : List ω
  token : ω → String
  apply : ω → β → β → β
  token_ne_nil : ∀ o, (token o).toList ≠ []

namespace Operator

variable {ω β : Type} [Operator ω β]

/-- The rest of a text behind the token of an operator. -/
def afterToken? (o : ω) (s : List Char) : Option { rest : List Char // rest.length < s.length } :=
  if h : (token o).toList <+: s then
    some ⟨s.drop (token o).toList.length, by
      have := List.length_pos_iff.2 (token_ne_nil o)
      have := h.length_le
      rw [List.length_drop]
      omega⟩
  else none

/-- The first of some operators whose token stands in front of the text. -/
def first? (s : List Char) : List ω → Option (Reading ω s)
  | [] => none
  | o :: os =>
    match afterToken? o s with
    | some ⟨rest, h⟩ => some ⟨o, rest, h⟩
    | none => first? s os

/-- Reads an operator. -/
def read : Reader ω := fun s =>
  match first? s all with
  | some r => .ok r
  | none => .error (.mismatch s (.oneOf ((all : List ω).map token)))

end Operator

/-! ## Division -/

/-- Division of doubles: a zero divisor gives a NaN for a zero or a NaN, else an infinity with the
sign of the quotient. -/
def divide (left right : Float) : Float :=
  left / right

/-! ## The three sets -/

/-- Operators between the literals of a matcher; neither binds tighter. -/
inductive Connective where
  | and
  | or
deriving DecidableEq, Repr

/-- Operators between the terms of a formula. -/
inductive Additive where
  | add
  | subtract
deriving DecidableEq, Repr

/-- Operators between the factors of a term. -/
inductive Multiplicative where
  | multiply
  | divide
deriving DecidableEq, Repr

instance : Operator Connective Bool where
  all := [.and, .or]
  token
    | .and => "&&"
    | .or => "||"
  apply
    | .and => fun a b => a && b
    | .or => fun a b => a || b
  token_ne_nil o := by cases o <;> decide

instance : Operator Additive Float where
  all := [.add, .subtract]
  token
    | .add => "+"
    | .subtract => "-"
  apply
    | .add => fun x y => x + y
    | .subtract => fun x y => x - y
  token_ne_nil o := by cases o <;> decide

instance : Operator Multiplicative Float where
  all := [.multiply, .divide]
  token
    | .multiply => "*"
    | .divide => "/"
  apply
    | .multiply => fun x y => x * y
    | .divide => Rulebook.divide
  token_ne_nil o := by cases o <;> decide

end Rulebook
