import Rulebook.Proofs.Expression.OfForm

/-!
# What the form shows

The form of expressions and stores loses nothing. Two chains of one type are shown as equal data
exactly when they have the same operators and their operands are shown so (`Chain.beq_form`), and
from there equality goes up from the leaves: constants are compared as they are in an expression,
numbers as numbers.

The records of leaves are not enough to tell a matcher from a formula. The constant true of a
matcher and the constant one of a formula are even equal as data; a whole matcher is never equal to
a whole formula, because the first operand of one is a leaf and that of the other is a term.
-/

namespace Rulebook

namespace Value

variable {k l m : String} {u v w u' v' w' : Value}

theorem beq_pair (hkl : k ≠ l) :
    (record [(k, v), (l, w)] == record [(k, v'), (l, w')]) = (v == v' && w == w') := by
  cases hv : (v == v') <;> cases hw : (w == w') <;> simp [beq_record, last?, hkl.symm, hv, hw]

theorem beq_triple (hkl : k ≠ l) (hkm : k ≠ m) (hlm : l ≠ m) :
    (record [(k, u), (l, v), (m, w)] == record [(k, u'), (l, v'), (m, w')]) =
      (u == u' && v == v' && w == w') := by
  cases hu : (u == u') <;> cases hv : (v == v') <;> cases hw : (w == w') <;>
    simp [beq_record, last?, hkl.symm, hkm.symm, hlm.symm, hu, hv, hw]

/-- Lists of shown things are equal if the things are. -/
theorem beq_list_map {α : Type} [BEq α] {f : α → Value} (h : ∀ a b, (f a == f b) = (a == b))
    (as bs : List α) : (list (as.map f) == list (bs.map f)) = (as == bs) := by
  rw [beq_list, beq_eq_all_zip, beq_eq_all_zip, List.zip_map, List.all_map]
  simp [Function.comp_def, h]

/-- Data that differ in some part differ. -/
theorem beq_eq_false_of_get (name : String) (h : (v.get name == w.get name) = false) :
    (v == w) = false :=
  Bool.eq_false_iff.mpr fun heq => Bool.eq_false_iff.mp h (beq_get heq name)

/-- Records of different types differ. -/
theorem beq_eq_false_of_type {s t : String} (hv : v.get "type" = .text s)
    (hw : w.get "type" = .text t) (h : s ≠ t) : (v == w) = false := by
  apply beq_eq_false_of_get "type"
  rw [hv, hw, beq_text]
  exact beq_eq_false_iff_ne.mpr h

end Value

/-! ## Chains -/

namespace Chain

variable {ω α β γ : Type}

theorem equal_map_left [BEq ω] (eq : γ → β → Bool) (g : α → γ) (c : Chain ω α) (d : Chain ω β) :
    (c.map g).equal eq d = c.equal (fun a => eq (g a)) d := by
  simp [equal, map, List.zip_map_left, Function.comp_def]

theorem equal_congr [BEq ω] {eq eq' : α → β → Bool} {c : Chain ω α} {d : Chain ω β}
    (h : ∀ a ∈ c.operands, ∀ b, eq a b = eq' a b) : c.equal eq d = c.equal eq' d := by
  have htail : (c.tail.zip d.tail).all (fun p => p.1.1 == p.2.1 && eq p.1.2 p.2.2) =
      (c.tail.zip d.tail).all fun p => p.1.1 == p.2.1 && eq' p.1.2 p.2.2 := by
    rw [Bool.eq_iff_iff, List.all_eq_true, List.all_eq_true]
    refine forall₂_congr fun p hp => ?_
    have hmem : p.1 ∈ c.tail := (List.of_mem_zip hp).1
    rw [h p.1.2 (List.mem_cons_of_mem _ (List.mem_map_of_mem hmem)) p.2.2]
  rw [equal, equal, h c.head List.mem_cons_self, htail]

/-- Chains of things that are equal or not are so themselves. -/
theorem equal_beq [DecidableEq ω] [DecidableEq α] (c d : Chain ω α) :
    c.equal (fun a b => a == b) d = (c == d) := by
  obtain ⟨a, l⟩ := c
  obtain ⟨b, m⟩ := d
  show (a == b && l.length == m.length && (l.zip m).all fun p => p.1 == p.2) = _
  rw [Bool.and_assoc, ← Value.beq_eq_all_zip, Bool.eq_iff_iff]
  simp

/-- Chains of one type are shown as equal data if they have the same operators and their operands
are shown as equal data. -/
theorem beq_form [DecidableEq ω] [Operator ω γ] (hop : Operator.ToldApart ω) (type : String)
    (f : α → Value) (g : β → Value) (c : Chain ω α) (d : Chain ω β) :
    (c.form type f == d.form type g) = c.equal (fun a b => f a == g b) d := by
  -- a pair is shown by its token, which tells its operator from the others
  have hstep : ∀ p : (ω × α) × (ω × β),
      (Value.record [("operator", .text (Operator.token p.1.1)), ("operand", f p.1.2)] ==
        Value.record [("operator", .text (Operator.token p.2.1)), ("operand", g p.2.2)]) =
      (p.1.1 == p.2.1 && f p.1.2 == g p.2.2) := by
    intro p
    rw [Value.beq_pair (by decide), Value.beq_text]
    congr 1
    rw [Bool.eq_iff_iff, beq_iff_eq, beq_iff_eq]
    exact ⟨hop.token_injective, congrArg _⟩
  rw [form, form, Value.beq_triple (by decide) (by decide) (by decide), Value.beq_text,
    Value.beq_list, Value.beq_eq_all_zip, List.zip_map, List.all_map]
  simp [equal, Function.comp_def, hstep, Bool.and_assoc]

end Chain

/-! ## Leaves -/

theorem leafForm_beq {type name : String} (h : "type" ≠ name) (v w : Value) :
    (leafForm type name v == leafForm type name w) = (v == w) := by
  rw [leafForm, leafForm, Value.beq_pair h, Value.beq_text, beq_self_eq_true, Bool.true_and]

/-- The type of the record of a literal. -/
def Literal.type : Literal → String
  | const _ => "const"
  | var _ => "var"
  | negated _ => "not_var"

/-- The type of the record of a factor. -/
def Factor.type : Factor → String
  | const _ => "const"
  | var _ => "var"
  | parens _ => "parens"

theorem Literal.form_get_type (l : Literal) : l.form.get "type" = .text l.type := by
  cases l <;> simp [form, type]

theorem Factor.form_get_type (f : Factor) : f.form.get "type" = .text f.type := by
  cases f <;> simp [form, fold, type]

theorem Literal.beq_form (l l' : Literal) : (l.form == l'.form) = (l == l') := by
  cases l <;> cases l'
  case const.const x y =>
    rw [form, form, leafForm_beq (by decide)]
    cases x <;> cases y <;> rfl
  case var.var x y | negated.negated x y =>
    rw [form, form, leafForm_beq (by decide), Value.beq_text, Bool.eq_iff_iff]
    simp
  -- the other pairs have records of different types
  all_goals
    exact Value.beq_eq_false_of_type (form_get_type _) (form_get_type _) (by simp [type])

/-! ## Matchers and formulas -/

theorem Matcher.beq_form (m m' : Matcher) : (m.form == m'.form) = (m == m') := by
  have hform : (m.form == m'.form) = Chain.equal (fun l l' => l.form == l'.form) m m' :=
    Chain.beq_form Connective.toldApart "expression" Literal.form Literal.form m m'
  simp only [Literal.beq_form] at hform
  rw [hform, Chain.equal_beq]

theorem Term.beq_form_of {t : Term} (h : ∀ f ∈ t.operands, ∀ g, (f.form == g.form) = (f == g))
    (u : Term) : (Term.form t == Term.form u) = (t == u) :=
  (Chain.beq_form Multiplicative.toldApart "term" Factor.form Factor.form t u).trans
    (Chain.equal_congr h)

theorem Formula.beq_form_of {e : Formula}
    (h : ∀ t ∈ e.operands, ∀ u, (Term.form t == Term.form u) = (t == u)) (d : Formula) :
    (e.form == d.form) = (e == d) :=
  (Chain.beq_form Additive.toldApart "expression" Term.form Term.form e d).trans
    (Chain.equal_congr h)

theorem Factor.beq_parens (e d : Formula) :
    (Factor.parens e == Factor.parens d) = (e == d) := by
  show (Factor.parens e).equal (.parens d) = Chain.equal (Chain.equal Factor.equal) e d
  unfold Factor.equal
  rw [Factor.fold_parens]
  -- the operands of the fold are the comparisons themselves
  show Chain.equal (Chain.equal fun eq => eq) (e.map _) d = _
  rw [Chain.equal_map_left]
  apply Chain.equal_congr
  intro t _ u
  apply Chain.equal_map_left

theorem Factor.beq_form (f g : Factor) : (f.form == g.form) = (f == g) := by
  -- factors of different kinds have records of different types
  induction f using Factor.induct generalizing g with
  | const x =>
    cases g with
    | const y => exact leafForm_beq (by decide) _ _
    | _ => exact Value.beq_eq_false_of_type (form_get_type _) (form_get_type _) (by simp [type])
  | var x =>
    cases g with
    | var y => exact (leafForm_beq (by decide) _ _).trans (Value.beq_text x y)
    | _ => exact Value.beq_eq_false_of_type (form_get_type _) (form_get_type _) (by simp [type])
  | parens e ih =>
    cases g with
    | parens d =>
      rw [beq_parens, form_parens, form_parens, leafForm_beq (by decide)]
      exact Formula.beq_form_of (fun t ht => Term.beq_form_of (ih t ht)) d
    | _ => exact Value.beq_eq_false_of_type (form_get_type _) (form_get_type _) (by simp [type])

theorem Term.beq_form (t u : Term) : (Term.form t == Term.form u) = (t == u) :=
  Term.beq_form_of (fun f _ => f.beq_form) u

theorem Formula.beq_form (e d : Formula) : (e.form == d.form) = (e == d) :=
  Formula.beq_form_of (fun t _ => Term.beq_form t) d

/-! ## A matcher and a formula -/

theorem Literal.type_ne_term (l : Literal) : l.type ≠ "term" := by
  cases l <;> simp [type]

/-- A matcher and a formula are shown as different data, because their heads are. -/
theorem Matcher.beq_form_formula (m : Matcher) (e : Formula) : (m.form == e.form) = false := by
  apply Value.beq_eq_false_of_get "head"
  exact Value.beq_eq_false_of_type m.head.form_get_type Chain.form_get_type m.head.type_ne_term

theorem Formula.beq_form_matcher (e : Formula) (m : Matcher) : (e.form == m.form) = false := by
  apply Value.beq_eq_false_of_get "head"
  exact Value.beq_eq_false_of_type Chain.form_get_type m.head.form_get_type
    m.head.type_ne_term.symm

/-! ## Rules and stores -/

instance {ε : Type} [BEq ε] : BEq (Rule ε) where
  beq r r' := r.label == r'.label && r.text == r'.text && r.expression == r'.expression

theorem Rule.beq_form {ε : Type} [BEq ε] {form : ε → Value}
    (h : ∀ x y, (form x == form y) = (x == y)) (r r' : Rule ε) :
    (r.form form == r'.form form) = (r == r') := by
  rw [Rule.form, Rule.form, Value.beq_triple (by decide) (by decide) (by decide), Value.beq_text,
    Value.beq_text, h]
  rfl

theorem Store.beq_form (store store' : Store) :
    (store.form == store'.form) =
      (store.matchers == store'.matchers && store.formulas == store'.formulas) := by
  rw [Store.form, Store.form, Value.beq_pair (by decide),
    Value.beq_list_map (Rule.beq_form Matcher.beq_form),
    Value.beq_list_map (Rule.beq_form Formula.beq_form)]

/-! ## Nothing is lost -/

theorem Expression.beq_form (x y : Matcher ⊕ Formula) :
    ((ofWhole x).form == (ofWhole y).form) = (ofWhole x == ofWhole y) := by
  cases x with
  | inl m =>
    cases y with
    | inl m' => exact m.beq_form m'
    | inr e => exact m.beq_form_formula e
  | inr e =>
    cases y with
    | inl m => exact e.beq_form_matcher m
    | inr d => exact e.beq_form d

/-- The form loses nothing. Every matcher and every formula is read back from its form, together
with which of both it is, and two of them have equal forms if and only if they are of one kind and
equal. So two stores have equal forms if and only if they hold equal rules in the same order. -/
theorem form_loses_nothing :
    (∀ x : Matcher ⊕ Formula,
      Expression.ofForm? (Expression.ofWhole x).form = some (Expression.ofWhole x)) ∧
    (∀ x y : Matcher ⊕ Formula,
      (Expression.ofWhole x).form == (Expression.ofWhole y).form ↔
        Expression.ofWhole x == Expression.ofWhole y) ∧
    ∀ store store' : Store, store.form == store'.form ↔
      store.matchers == store'.matchers ∧ store.formulas == store'.formulas := by
  refine ⟨Expression.ofForm?_form, fun x y => ?_, fun store store' => ?_⟩
  · rw [Expression.beq_form]
  · rw [Store.beq_form, Bool.and_eq_true]

/-- The leaves of a matcher and of a formula do not tell the two apart. -/
example : ((Literal.const true).form == (Factor.const 1).form) = true := by
  decide

end Rulebook
