/-!
# Bindings

The values of variables by name. A name without a value is undefined.
-/

namespace Rulebook

/-- The value of each name that has one. -/
abbrev Bindings (α : Type) := String → Option α

/-- The bindings of a list; of two entries with one name the later counts. -/
def Bindings.ofList {α : Type} (entries : List (String × α)) : Bindings α := fun name =>
  (entries.reverse.find? fun e => e.1 == name).map Prod.snd

/-- Why an expression has no value. -/
inductive ReduceFault where
  /-- The first variable from the left without a value. -/
  | undefinedVariable (name : String)
  /-- More parentheses are nested than the limit allows. -/
  | tooDeep
deriving DecidableEq, Repr

/-- The value of a name. -/
def Bindings.lookup {α : Type} (bindings : Bindings α) (name : String) : Except ReduceFault α :=
  match bindings name with
  | some value => .ok value
  | none => .error (.undefinedVariable name)

end Rulebook
