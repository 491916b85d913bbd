/-!
# Limits

Rules are read and reduced by going down into their parentheses, and there is room for so many only.
How many is up to the machine, so that stores and what is built on them are for any limit.
-/

namespace Rulebook

/-- What there is room for. -/
class Limits where
  /-- How many parentheses may be open at once. -/
  nesting : Nat

/-- How many parentheses may be open at once. -/
def nestingLimit [Limits] : Nat :=
  Limits.nesting

/-- The room that there is where nothing else is said. -/
instance Limits.standard : Limits where
  nesting := 330

end Rulebook
