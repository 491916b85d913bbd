import Rulebook.Text.RawText

/-!
# Values

The data that requests are decoded to and that rules and answers are shown as: scalars, lists, and
records whose fields have names and an order. A decoder for a richer format puts `other` for what
no request and no rule can use, such as a date.
-/

namespace Rulebook

/-- A datum. -/
inductive Value where
  | null
  | bool (value : Bool)
  | int (value : Int)
  | float (value : Float)
  | text (value : RawText)
  | list (items : List Value)
  | record (fields : List (String × Value))
  | other

/-- The value of a field; of two fields with one name the later counts, and a field that is not
there is null. -/
def Value.field (fields : List (String × Value)) (name : String) : Value :=
  match fields.reverse.find? fun f => f.1 == name with
  | some f => f.2
  | none => .null

end Rulebook
