import Rulebook.Value

/-!
# Folds over values

`Value.fold` says what becomes of a scalar, of the items of a list and of the fields of a record,
from the leaves up. What is asked of all the data inside a value is such a fold, so that the
recursion through lists and records is written once, here.
-/

namespace Rulebook.Value

section

variable {β : Type} (scalar : Value → β) (list : List β → β)
  (record : List (String × Value) → List (String × β) → β)

mutual

/-- Replaces lists and records by what their parts give. A record is seen as it stands as well. -/
def fold : Value → β
  | .list items => list (foldItems items)
  | .record fields => record fields (foldFields fields)
  | v => scalar v

/-- `Value.fold` of every item of a list. -/
def foldItems : List Value → List β
  | [] => []
  | v :: rest => v.fold :: foldItems rest

/-- `Value.fold` of every field of a record. -/
def foldFields : List (String × Value) → List (String × β)
  | [] => []
  | (name, v) :: rest => (name, v.fold) :: foldFields rest

end

theorem foldItems_eq (items : List Value) :
    foldItems scalar list record items = items.map (fold scalar list record) := by
  induction items with
  | nil => rfl
  | cons v rest ih => simp [foldItems, ih]

theorem foldFields_eq (fields : List (String × Value)) :
    foldFields scalar list record fields =
      fields.map fun f => (f.1, f.2.fold scalar list record) := by
  induction fields with
  | nil => rfl
  | cons f rest ih => obtain ⟨name, v⟩ := f; simp [foldFields, ih]

/-- A fold of a list is what the list makes of the folds of its items. -/
theorem fold_list (items : List Value) :
    (Value.list items).fold scalar list record = list (items.map (fold scalar list record)) := by
  rw [fold, foldItems_eq]

/-- A fold of a record is what the record makes of the folds of its fields. -/
theorem fold_record (fields : List (String × Value)) :
    (Value.record fields).fold scalar list record =
      record fields (fields.map fun f => (f.1, f.2.fold scalar list record)) := by
  rw [fold, foldFields_eq]

end

end Rulebook.Value
