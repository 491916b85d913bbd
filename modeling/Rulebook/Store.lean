import Rulebook.Limits
import Rulebook.Rule

/-!
# Stores of rules

A store holds matcher rules and formula rules, each in the order in which they were added. Order
is priority and the newest rule wins, so that rules added later override earlier ones wherever
both apply; nothing is ever removed.
-/

namespace Rulebook

/-- Matcher rules and formula rules, the oldest first. -/
structure Store where
  matchers : List (Rule Matcher) := []
  formulas : List (Rule Formula) := []

namespace Store

/-- A store without rules. -/
def empty : Store := {}

/-! ## Adding rules -/

variable [Limits]

/-- A rule of either kind. -/
inductive Entry where
  | matcher (rule : Rule Matcher)
  | formula (rule : Rule Formula)

/-- Reads a text as a matcher rule, else as a formula rule. The error names the whole text, and
its hint is that of the formula rule. Half of a surrogate pair reads as the replacement character,
which no rule contains. -/
def Entry.ofText (text : RawText) : Except ParseError Entry :=
  match Matcher.readRule text.chars with
  | .ok (m, label) => .ok (.matcher ⟨m, label, text.legible⟩)
  | .error _ =>
    match Formula.readRule nestingLimit text.chars with
    | .ok (e, label) => .ok (.formula ⟨e, label, text.legible⟩)
    | .error fault => .error ⟨text, fault.expected⟩

/-- The store with one more rule. -/
def push (store : Store) : Entry → Store
  | .matcher rule => { store with matchers := store.matchers ++ [rule] }
  | .formula rule => { store with formulas := store.formulas ++ [rule] }

/-- Adds the rule that a text writes. -/
def add (store : Store) (text : RawText) : Except ParseError Store :=
  (Entry.ofText text).map store.push

/-- Adds rules in order up to the first text that does not parse: the store so far, and the error
if there was one. -/
def addAll (store : Store) : List RawText → Store × Option ParseError
  | [] => (store, none)
  | text :: texts =>
    match store.add text with
    | .ok store => store.addAll texts
    | .error e => (store, some e)

/-- The store with all of some rules, if every text parses. -/
def extend (store : Store) (texts : List RawText) : Except ParseError Store :=
  match store.addAll texts with
  | (store, none) => .ok store
  | (_, some e) => .error e

/-! ## The base rules -/

/-- The rules every request starts from. -/
def baseTexts : List RawText :=
  ["A && B && !C => H = M",
    "A && B && C => H = P",
    "!A && B && C => H = T",
    "H = M => K = D + (D * E / 10)",
    "H = P => K = D + (D * (E - F) / 25.5)",
    "H = T => K = D - (D * F / 30)"]

/-- The store of the base rules, none of which opens more than two parentheses at once. -/
def base : Store :=
  (empty.addAll baseTexts).1

end Store

end Rulebook
