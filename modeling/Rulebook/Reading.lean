/-!
# Readings

What a reader takes off the front of a text: a value and a rest that is strictly shorter, so that
whatever reads on ends.
-/

namespace Rulebook

/-- A value read off the front of `s`, and the shorter rest. -/
structure Reading (α : Type) (s : List Char) where
  value : α
  rest : List Char
  shorter : rest.length < s.length

namespace Reading

variable {α β : Type} {s t : List Char}

/-- The same reading, seen from a longer text. -/
def widen (r : Reading α s) (h : s.length ≤ t.length) : Reading α t :=
  ⟨r.value, r.rest, Nat.lt_of_lt_of_le r.shorter h⟩

/-- The reading with its value made into another one. -/
def map (f : α → β) (r : Reading α s) : Reading β s :=
  ⟨f r.value, r.rest, r.shorter⟩

end Reading

end Rulebook
