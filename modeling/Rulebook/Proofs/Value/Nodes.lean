import Rulebook.Chain
import Rulebook.Proofs.Value.Fold

/-!
# Typed records inside a value

A value that shows an expression has a record for each node of it, and such a record has a type.
Here are the records inside a value, how many typed ones stand around one another, and the names in
those that show a variable.
-/

namespace Rulebook.Value

/-- The records inside a value, from left to right, each in front of those inside of it. -/
def records : Value → List (List (String × Value)) :=
  fold (fun _ => []) List.flatten fun fields inside => fields :: inside.flatMap Prod.snd

/-- Whether a record has a type. -/
def isTyped (fields : List (String × Value)) : Bool :=
  fields.any fun f => f.1 == "type"

/-- The typed records inside a value. -/
def nodes (v : Value) : List (List (String × Value)) :=
  v.records.filter isTyped

/-- How many typed records stand around one another at most, the innermost one included. -/
def typedDepth : Value → Nat :=
  fold (fun _ => 0) greatest fun fields inside =>
    (if isTyped fields then 1 else 0) + greatest (inside.map Prod.snd)

/-- The name in the record of a variable, negated or not. -/
def variableName? (fields : List (String × Value)) : Option String :=
  match field fields "type", field fields "name" with
  | .text type, .text name =>
    if type = "var" ∨ type = "not_var" then some name.legible else none
  | _, _ => none

/-! ## Laws -/

variable {items : List Value} {fields : List (String × Value)}

@[simp]
theorem nodes_text (t : RawText) : (text t).nodes = [] :=
  rfl

@[simp]
theorem typedDepth_text (t : RawText) : (text t).typedDepth = 0 :=
  rfl

theorem nodes_list : (list items).nodes = items.flatMap nodes := by
  have hrecords : (list items).records = items.flatMap records := by
    rw [records, fold_list, ← records, List.flatMap_def]
  rw [nodes, hrecords, List.filter_flatMap]
  rfl

theorem nodes_record :
    (record fields).nodes =
      if isTyped fields then fields :: fields.flatMap fun f => f.2.nodes
      else fields.flatMap fun f => f.2.nodes := by
  have hrecords : (record fields).records = fields :: fields.flatMap fun f => f.2.records := by
    rw [records, fold_record, List.flatMap_map]
  rw [nodes, hrecords, List.filter_cons, List.filter_flatMap]
  rfl

theorem typedDepth_list : (list items).typedDepth = greatest (items.map typedDepth) := by
  rw [typedDepth, fold_list]

theorem typedDepth_record :
    (record fields).typedDepth =
      (if isTyped fields then 1 else 0) + greatest (fields.map fun f => f.2.typedDepth) := by
  rw [typedDepth, fold_record, List.map_map]
  rfl

end Rulebook.Value
