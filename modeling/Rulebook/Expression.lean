import Rulebook.Formula
import Rulebook.Matcher

/-!
# Expressions of either kind

A matcher, a formula, or a part of one, so that what all of them are asked for can be said once.
-/

namespace Rulebook

/-- An expression or a part of one. -/
inductive Expression where
  | literal (part : Literal)
  | matcher (whole : Matcher)
  | factor (part : Factor)
  | term (part : Term)
  | formula (whole : Formula)

namespace Expression

/-- The names in an expression, from left to right. -/
def names : Expression → List String
  | literal l => l.names
  | matcher m => m.names
  | factor f => f.names
  | term t => t.names
  | formula e => e.names

/-- How many nodes an expression has. -/
def size : Expression → Nat
  | literal _ => 1
  | matcher m => m.size
  | factor f => f.size
  | term t => t.size
  | formula e => e.size

/-- How many levels an expression has. -/
def depth : Expression → Nat
  | literal _ => 1
  | matcher m => m.depth
  | factor f => f.depth
  | term t => t.depth
  | formula e => e.depth

/-- Whether two expressions are of one kind and equal. -/
def equal : Expression → Expression → Bool
  | literal l, literal l' => l == l'
  | matcher m, matcher m' => m == m'
  | factor f, factor f' => f == f'
  | term t, term t' => t == t'
  | formula e, formula e' => e == e'
  | _, _ => false

instance : BEq Expression := ⟨equal⟩

end Expression

end Rulebook
