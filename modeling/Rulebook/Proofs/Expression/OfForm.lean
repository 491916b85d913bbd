import Rulebook.Proofs.Expression.Metrics
import Rulebook.Proofs.Value.Equal

/-!
# Expressions from their form

A decoder of forms. A record of a leaf does not tell the two grammars apart, as both have constants
and variables; what does is the type of the operands of an outermost chain, which are leaves in a
matcher and terms in a formula.

Main statement: whatever is shown is read back, with the grammar it is of
(`Expression.ofForm?_form`).
-/

namespace Rulebook

/-! ## Parts of values -/

namespace Value

/-- The text that a value is. -/
def text? : Value → Option String
  | .text t => some t.legible
  | _ => none

/-- The truth value that a value is. -/
def bool? : Value → Option Bool
  | .bool value => some value
  | _ => none

/-- The double that a value is. -/
def float? : Value → Option Float
  | .float value => some value
  | _ => none

/-- The items of a value that is a list. -/
def items? : Value → Option (List Value)
  | .list items => some items
  | _ => none

@[simp]
theorem text?_text (s : String) : (text s).text? = some s := by
  simp [text?]

end Value

/-! ## Chains -/

section

variable {ω α β : Type} [Operator ω β]

/-- The operator with a token. -/
def Operator.ofToken? (t : String) : Option ω :=
  all.find? fun o => token o == t

/-- The pair of an operator and an operand that a record shows. -/
def Chain.pairOfForm? (operand : Value → Option α) (v : Value) : Option (ω × α) := do
  let o ← Operator.ofToken? (← (v.get "operator").text?)
  return (o, ← operand (v.get "operand"))

/-- The chain that a record of some type shows. -/
def Chain.ofForm? (type : String) (operand : Value → Option α) (v : Value) :
    Option (Chain ω α) := do
  if (v.get "type").text? = some type then
    let head ← operand (v.get "head")
    return ⟨head, ← (← (v.get "tail").items?).mapM (pairOfForm? operand)⟩
  else none

end

/-! ## Matchers and formulas -/

/-- The literal that a record shows. -/
def Literal.ofForm? (v : Value) : Option Literal :=
  match (v.get "type").text? with
  | some "const" => (v.get "value").bool?.map .const
  | some "var" => (v.get "name").text?.map .var
  | some "not_var" => (v.get "name").text?.map .negated
  | _ => none

/-- The matcher that a record shows. -/
def Matcher.ofForm? (v : Value) : Option Matcher :=
  Chain.ofForm? "expression" Literal.ofForm? v

/-- The factor that a record shows, where `inside` reads what stands between parentheses. -/
def Factor.ofFormWith? (inside : Value → Option Formula) (v : Value) : Option Factor :=
  match (v.get "type").text? with
  | some "const" => (v.get "value").float?.map .const
  | some "var" => (v.get "name").text?.map .var
  | some "parens" => (inside (v.get "expression")).map .parens
  | _ => none

/-- The factor that a record shows. The records inside the one of parentheses are less deep, so
that the guard is always passed (`ofForm?_parens`). -/
def Factor.ofForm? (v : Value) : Option Factor :=
  ofFormWith? (Chain.ofForm? "expression" (Chain.ofForm? "term" fun w =>
    if w.typedDepth < v.typedDepth then ofForm? w else none)) v
termination_by v.typedDepth

/-- The term that a record shows. -/
def Term.ofForm? (v : Value) : Option Term :=
  Chain.ofForm? "term" Factor.ofForm? v

/-- The formula that a record shows. -/
def Formula.ofForm? (v : Value) : Option Formula :=
  Chain.ofForm? "expression" Term.ofForm? v

/-- The matcher or formula that a record shows. -/
def Expression.ofForm? (v : Value) : Option Expression :=
  ((Matcher.ofForm? v).map matcher).or ((Formula.ofForm? v).map formula)

/-! ## Fields of forms -/

section

variable {ω α β : Type} [Operator ω β] {type name : String} {v : Value} {f : α → Value}
  {c : Chain ω α}

@[simp]
theorem leafForm_get_type (h : name ≠ "type") :
    (leafForm type name v).get "type" = .text type := by
  simp [leafForm, Value.get, Value.field, h]

@[simp]
theorem leafForm_get : (leafForm type name v).get name = v := by
  simp [leafForm, Value.get, Value.field]

@[simp]
theorem Chain.form_get_type : (c.form type f).get "type" = .text type :=
  rfl

@[simp]
theorem Chain.form_get_head : (c.form type f).get "head" = f c.head :=
  rfl

@[simp]
theorem Chain.form_get_tail : (c.form type f).get "tail" = .list (c.tail.map fun p =>
    .record [("operator", .text (Operator.token p.1)), ("operand", f p.2)]) :=
  rfl

end

/-! ## What is shown is read back -/

section

variable {ω α β : Type} [Operator ω β]

/-- Every operator is told from the others by its token. -/
def Operator.ToldApart (ω : Type) {β : Type} [Operator ω β] : Prop :=
  ∀ o : ω, Operator.ofToken? (token o) = some o

theorem Operator.ToldApart.token_injective (hop : Operator.ToldApart ω) {o o' : ω}
    (h : token o = token o') : o = o' := by
  have ho := hop o
  rw [h, hop o'] at ho
  exact (Option.some.inj ho).symm

theorem mapM_map_eq_some {γ : Type} {g : α → γ} {read : γ → Option α} {l : List α}
    (h : ∀ a ∈ l, read (g a) = some a) : (l.map g).mapM read = some l := by
  induction l with
  | nil => rfl
  | cons a l ih =>
    have ha := h a List.mem_cons_self
    have hl := ih fun b hb => h b (List.mem_cons_of_mem _ hb)
    simp [ha, hl]

/-- A chain is read back if its operands are. -/
theorem Chain.ofForm?_form (hop : Operator.ToldApart ω) (type : String) {f : α → Value}
    {operand : Value → Option α} {c : Chain ω α} (h : ∀ a ∈ c.operands, operand (f a) = some a) :
    Chain.ofForm? type operand (c.form type f) = some c := by
  have hhead : operand (f c.head) = some c.head := h c.head List.mem_cons_self
  have htail : ∀ p ∈ c.tail, Chain.pairOfForm? operand (.record
      [("operator", .text (Operator.token p.1)), ("operand", f p.2)]) = some p := by
    intro p hp
    have hoperand := h p.2 (List.mem_cons_of_mem _ (List.mem_map_of_mem hp))
    simp [Chain.pairOfForm?, Value.get, Value.field, hop p.1, hoperand]
  simp [Chain.ofForm?, Value.items?, hhead, mapM_map_eq_some htail]

end

theorem Connective.toldApart : Operator.ToldApart Connective := by
  intro o
  cases o <;> rfl

theorem Additive.toldApart : Operator.ToldApart Additive := by
  intro o
  cases o <;> rfl

theorem Multiplicative.toldApart : Operator.ToldApart Multiplicative := by
  intro o
  cases o <;> rfl

theorem Literal.ofForm?_form (l : Literal) : Literal.ofForm? l.form = some l := by
  cases l <;> simp [Literal.ofForm?, Literal.form, Value.bool?]

theorem Matcher.ofForm?_form (m : Matcher) : Matcher.ofForm? m.form = some m :=
  Chain.ofForm?_form Connective.toldApart "expression" fun l _ => l.ofForm?_form

/-- An operand has fewer levels than the chain that it is in. -/
theorem Chain.lt_depth {ω α : Type} {c : Chain ω α} {depth : α → Nat} {a : α}
    (h : a ∈ c.operands) : depth a < c.depth depth := by
  have hmost : depth a ≤ greatest (c.operands.map depth) := le_most h
  unfold Chain.depth
  omega

/-- What stands in parentheses is less deep than the parentheses. -/
theorem Factor.typedDepth_lt_parens {e : Formula} {t : Term} {f : Factor} (ht : t ∈ e.operands)
    (hf : f ∈ t.operands) : f.form.typedDepth < (Factor.parens e).form.typedDepth := by
  have hterm : f.depth < Term.depth t := Chain.lt_depth hf
  have hformula : Term.depth t < Formula.depth e := Chain.lt_depth ht
  rw [f.shows.typedDepth_eq, (Factor.parens e).shows.typedDepth_eq, Factor.depth_parens]
  omega

theorem Factor.ofFormWith?_parens {inside : Value → Option Formula} {e : Formula}
    (h : inside e.form = some e) :
    Factor.ofFormWith? inside (Factor.parens e).form = some (.parens e) := by
  simp [Factor.ofFormWith?, Factor.form_parens, h]

/-- Parentheses are read back if what stands in them is. -/
theorem Factor.ofForm?_parens {e : Formula}
    (h : ∀ t ∈ e.operands, ∀ f ∈ t.operands, Factor.ofForm? f.form = some f) :
    Factor.ofForm? (Factor.parens e).form = some (.parens e) := by
  unfold Factor.ofForm?
  -- the two chains between the parentheses and the factors inside, where the guard is passed
  apply Factor.ofFormWith?_parens
  apply Chain.ofForm?_form Additive.toldApart
  intro t ht
  apply Chain.ofForm?_form Multiplicative.toldApart
  intro f hf
  rw [if_pos (Factor.typedDepth_lt_parens ht hf), h t ht f hf]

theorem Factor.ofForm?_form (f : Factor) : Factor.ofForm? f.form = some f := by
  induction f using Factor.induct with
  | const x =>
    simp [Factor.ofForm?, Factor.ofFormWith?, Factor.form, Factor.fold, Value.float?]
  | var name => simp [Factor.ofForm?, Factor.ofFormWith?, Factor.form, Factor.fold]
  | parens e ih => exact Factor.ofForm?_parens ih

theorem Term.ofForm?_form (t : Term) : Term.ofForm? (Term.form t) = some t :=
  Chain.ofForm?_form Multiplicative.toldApart "term" fun f _ => f.ofForm?_form

theorem Formula.ofForm?_form (e : Formula) : Formula.ofForm? e.form = some e :=
  Chain.ofForm?_form Additive.toldApart "expression" fun t _ => Term.ofForm?_form t

/-- A term is no literal, so that a formula is not taken for a matcher. -/
theorem Matcher.ofForm?_formula (e : Formula) : Matcher.ofForm? e.form = none := by
  simp [Matcher.ofForm?, Chain.ofForm?, Literal.ofForm?, Formula.form, Term.form]

/-! ## Both grammars -/

/-- An expression that is not part of another one: a matcher or a formula. -/
def Expression.ofWhole : Matcher ⊕ Formula → Expression :=
  Sum.elim matcher formula

/-- A matcher or a formula is read back from its form, as what it is. -/
theorem Expression.ofForm?_form (x : Matcher ⊕ Formula) :
    Expression.ofForm? (ofWhole x).form = some (ofWhole x) := by
  cases x with
  | inl m =>
    show ((Matcher.ofForm? m.form).map matcher).or _ = some (.matcher m)
    rw [Matcher.ofForm?_form]
    rfl
  | inr e =>
    show ((Matcher.ofForm? e.form).map matcher).or ((Formula.ofForm? e.form).map formula) =
      some (.formula e)
    rw [Matcher.ofForm?_formula, Formula.ofForm?_form]
    rfl

end Rulebook
