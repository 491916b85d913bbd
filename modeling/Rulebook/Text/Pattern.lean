/-!
# Regular patterns

Sets of texts built from classes of characters by sequence, choice and repetition. A text is
accepted by taking the derivative of the pattern for each of its characters in turn: what may
still follow. The smart constructors drop branches that accept nothing, so that a pattern that
has failed stays small.
-/

namespace Rulebook.Text

/-- A regular set of texts. -/
inductive Pattern where
  /-- No text. -/
  | nothing
  /-- The empty text. -/
  | empty
  /-- One character of a class. -/
  | one (member : Char → Bool)
  | andThen (first second : Pattern)
  | orElse (left right : Pattern)
  /-- Any number of times. -/
  | many (item : Pattern)

namespace Pattern

instance : Append Pattern := ⟨andThen⟩

instance : OrOp Pattern := ⟨orElse⟩

/-- A fixed character. -/
def char (c : Char) : Pattern :=
  one (· == c)

/-- A fixed text. -/
def text (t : String) : Pattern :=
  t.toList.foldr (fun c p => char c ++ p) empty

/-- One of some fixed texts. -/
def oneOf (ts : List String) : Pattern :=
  ts.foldr (fun t p => text t ||| p) nothing

/-- At least once. -/
def some (p : Pattern) : Pattern :=
  p ++ many p

/-- At most once. -/
def optional (p : Pattern) : Pattern :=
  p ||| empty

/-- An ASCII digit. -/
def digit : Pattern :=
  one Char.isDigit

/-! ## Derivatives -/

/-- Whether the empty text is accepted. -/
def acceptsEmpty : Pattern → Bool
  | nothing => false
  | empty => true
  | one _ => false
  | andThen p q => p.acceptsEmpty && q.acceptsEmpty
  | orElse p q => p.acceptsEmpty || q.acceptsEmpty
  | many _ => true

/-- A choice without branches that accept nothing. -/
def choice : Pattern → Pattern → Pattern
  | nothing, q => q
  | p, nothing => p
  | p, q => orElse p q

/-- A sequence that accepts nothing if its first part does. -/
def sequence : Pattern → Pattern → Pattern
  | nothing, _ => nothing
  | empty, q => q
  | p, q => andThen p q

/-- What may follow a character. -/
def derivative (c : Char) : Pattern → Pattern
  | nothing => nothing
  | empty => nothing
  | one member => if member c then empty else nothing
  | andThen p q =>
    if p.acceptsEmpty then choice (sequence (p.derivative c) q) (q.derivative c)
    else sequence (p.derivative c) q
  | orElse p q => choice (p.derivative c) (q.derivative c)
  | many p => sequence (p.derivative c) (many p)

/-- Whether a text is in the set. -/
def accepts (p : Pattern) (s : List Char) : Bool :=
  (s.foldl (fun p c => p.derivative c) p).acceptsEmpty

end Pattern

end Rulebook.Text
