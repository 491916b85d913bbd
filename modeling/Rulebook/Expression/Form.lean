import Rulebook.Expression
import Rulebook.Store
import Rulebook.Value

/-!
# Expressions and stores as data

The form in which expressions and stores of rules are shown: every node is a record that begins
with its type, a chain holds its head and a list of operators with operands.
-/

namespace Rulebook

/-- The record of a leaf. -/
def leafForm (type field : String) (content : Value) : Value :=
  .record [("type", .text type), (field, content)]

/-- The record of a chain of a given type. -/
def Chain.form {ω α β : Type} [Operator ω β] (type : String) (operand : α → Value)
    (c : Chain ω α) : Value :=
  .record [("type", .text type), ("head", operand c.head),
    ("tail", .list (c.tail.map fun p =>
      .record [("operator", .text (Operator.token p.1)), ("operand", operand p.2)]))]

/-- The form of a literal. -/
def Literal.form : Literal → Value
  | const value => leafForm "const" "value" (.bool value)
  | var name => leafForm "var" "name" (.text name)
  | negated name => leafForm "not_var" "name" (.text name)

/-- The form of a matcher. -/
def Matcher.form (m : Matcher) : Value :=
  Chain.form "expression" Literal.form m

/-- The form of a factor. -/
def Factor.form : Factor → Value :=
  fold (fun value => leafForm "const" "value" (.float value))
    (fun name => leafForm "var" "name" (.text name))
    (fun e => leafForm "parens" "expression" (e.form "expression" (Chain.form "term" id)))

/-- The form of a term. -/
def Term.form (t : Term) : Value :=
  Chain.form "term" Factor.form t

/-- The form of a formula. -/
def Formula.form (e : Formula) : Value :=
  Chain.form "expression" Term.form e

/-- The form of an expression or a part of one. -/
def Expression.form : Expression → Value
  | literal l => l.form
  | matcher m => m.form
  | factor f => f.form
  | term t => t.form
  | formula e => e.form

/-- The form of a rule, given that of expressions. -/
def Rule.form {ε : Type} (expression : ε → Value) (rule : Rule ε) : Value :=
  .record [("label", .text rule.label), ("text", .text rule.text),
    ("expression", expression rule.expression)]

/-- The form of a store. -/
def Store.form (store : Store) : Value :=
  .record [("boolean_rules", .list (store.matchers.map (Rule.form Matcher.form))),
    ("arithmetic_rules", .list (store.formulas.map (Rule.form Formula.form)))]

/-! ## Laws -/

/-- The form of a chain of replaced operands. -/
theorem Chain.form_map {ω α β γ : Type} [Operator ω γ] (type : String) (f : β → Value) (g : α → β)
    (c : Chain ω α) : (c.map g).form type f = c.form type fun a => f (g a) := by
  simp [form, map, Function.comp_def]

/-- The form of parentheses holds that of the formula in them. -/
theorem Factor.form_parens (e : Formula) :
    (Factor.parens e).form = leafForm "parens" "expression" e.form := by
  unfold Factor.form
  rw [Factor.fold_parens]
  simp only [Chain.form_map]
  rfl

end Rulebook
