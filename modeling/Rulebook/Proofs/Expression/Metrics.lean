import Rulebook.Expression.Form
import Rulebook.Proofs.Expression.Reads
import Rulebook.Proofs.Value.Nodes

/-!
# Sizes, depths and names

How large an expression is, how deep it is and which names are in it are three recursions, and its
form is a fourth one. Main statement: all of them visit the same nodes. The size of a formula is
decided by its parentheses and operators and its depth by the nesting of parentheses, and whatever
is counted in an expression is found as often in its form.
-/

namespace Rulebook

/-! ## Counting parentheses and operators -/

/-- A weight for each operator of a chain, and what its operands weigh. -/
def Chain.weigh {ω α : Type} (perOperator : Nat) (f : α → Nat) (c : Chain ω α) : Nat :=
  perOperator * c.tail.length + total (c.operands.map f)

section

variable (pair additive multiplicative : Nat)

/-- The sum of the weights in a factor: one for each pair of parentheses, one for each `+` or `-`
and one for each `*` or `/`. -/
def Factor.weigh : Factor → Nat :=
  fold (fun _ => 0) (fun _ => 0) fun e => pair + e.weigh additive (Chain.weigh multiplicative id)

/-- The sum of the weights in a term. -/
def Term.weigh (t : Term) : Nat :=
  Chain.weigh multiplicative (Factor.weigh pair additive multiplicative) t

/-- The sum of the weights in a formula. -/
def Formula.weigh (e : Formula) : Nat :=
  Chain.weigh additive (Term.weigh pair additive multiplicative) e

theorem Chain.weigh_map {ω α β : Type} (perOperator : Nat) (f : β → Nat) (g : α → β)
    (c : Chain ω α) : (c.map g).weigh perOperator f = c.weigh perOperator fun a => f (g a) := by
  unfold weigh
  rw [operands_map, List.map_map]
  simp [map, Function.comp_def]

theorem Factor.weigh_parens (e : Formula) :
    (Factor.parens e).weigh pair additive multiplicative =
      pair + Formula.weigh pair additive multiplicative e := by
  unfold Factor.weigh
  rw [Factor.fold_parens]
  simp only [Chain.weigh_map]
  rfl

end

/-- How many pairs of parentheses are in a formula. -/
def Formula.pairs (e : Formula) : Nat :=
  e.weigh 1 0 0

/-- How many `+` and `-` are in a formula, those in parentheses included. -/
def Formula.additives (e : Formula) : Nat :=
  e.weigh 0 1 0

/-- How many `*` and `/` are in a formula, those in parentheses included. -/
def Formula.multiplicatives (e : Formula) : Nat :=
  e.weigh 0 0 1

/-! ## Sizes -/

theorem total_map_eq {α : Type} {l : List α} {size pairs additives multiplicatives : α → Nat}
    {k : Nat} (h : ∀ a ∈ l, size a = k + 3 * pairs a + 2 * additives a + multiplicatives a) :
    total (l.map size) = k * l.length + 3 * total (l.map pairs) + 2 * total (l.map additives) +
      total (l.map multiplicatives) := by
  induction l with
  | nil => rfl
  | cons a l ih =>
    have ha := h a List.mem_cons_self
    have hl := ih fun b hb => h b (List.mem_cons_of_mem _ hb)
    simp only [total, List.map_cons, List.foldr_cons, List.length_cons, Nat.mul_succ] at hl ⊢
    omega

theorem Term.size_eq_of {t : Term} (h : ∀ f ∈ t.operands, f.size =
    1 + 3 * f.weigh 1 0 0 + 2 * f.weigh 0 1 0 + f.weigh 0 0 1) :
    t.size = 2 + 3 * t.weigh 1 0 0 + 2 * t.weigh 0 1 0 + t.weigh 0 0 1 := by
  have htotal := total_map_eq h
  have hlength := Chain.length_operands t
  simp only [Term.size, Chain.size, Term.weigh, Chain.weigh]
  omega

theorem Formula.size_eq_of {e : Formula} (h : ∀ t ∈ e.operands, Term.size t =
    2 + 3 * Term.weigh 1 0 0 t + 2 * Term.weigh 0 1 0 t + Term.weigh 0 0 1 t) :
    e.size = 3 + 3 * e.weigh 1 0 0 + 2 * e.weigh 0 1 0 + e.weigh 0 0 1 := by
  have htotal := total_map_eq h
  have hlength := Chain.length_operands e
  simp only [Formula.size, Chain.size, Formula.weigh, Chain.weigh]
  omega

theorem Factor.size_parens (e : Formula) : (Factor.parens e).size = 1 + Formula.size e := by
  unfold Factor.size
  rw [Factor.fold_parens]
  simp only [Chain.size_map]
  rfl

theorem Factor.size_eq (f : Factor) :
    f.size = 1 + 3 * f.weigh 1 0 0 + 2 * f.weigh 0 1 0 + f.weigh 0 0 1 := by
  induction f using Factor.induct with
  | const x => rfl
  | var name => rfl
  | parens e ih =>
    have he := Formula.size_eq_of fun t ht => Term.size_eq_of (ih t ht)
    rw [Factor.size_parens]
    simp only [Factor.weigh_parens]
    omega

/-! ## Depths -/

theorem greatest_map_eq {α : Type} {a : α} {l : List α} {depth nesting : α → Nat} {k : Nat}
    (h : ∀ b ∈ a :: l, depth b = k + 3 * nesting b) :
    greatest ((a :: l).map depth) = k + 3 * greatest ((a :: l).map nesting) := by
  induction l generalizing a with
  | nil =>
    have ha := h a List.mem_cons_self
    simp only [greatest, List.map_cons, List.map_nil, List.foldr_cons, List.foldr_nil]
    omega
  | cons b l ih =>
    have ha := h a List.mem_cons_self
    have hl := ih fun c hc => h c (List.mem_cons_of_mem _ hc)
    simp only [greatest, List.map_cons, List.foldr_cons] at hl ⊢
    omega

theorem Chain.depth_eq_of {ω α : Type} {c : Chain ω α} {depth nesting : α → Nat} {k : Nat}
    (h : ∀ a ∈ c.operands, depth a = k + 3 * nesting a) :
    c.depth depth = k + 1 + 3 * c.most nesting := by
  have hgreatest : greatest (c.operands.map depth) = k + 3 * c.most nesting := greatest_map_eq h
  unfold Chain.depth
  omega

theorem Factor.depth_parens (e : Formula) : (Factor.parens e).depth = 1 + Formula.depth e := by
  unfold Factor.depth
  rw [Factor.fold_parens]
  simp only [Chain.depth_map]
  rfl

theorem Factor.depth_eq (f : Factor) : f.depth = 1 + 3 * f.nesting := by
  induction f using Factor.induct with
  | const x => rfl
  | var name => rfl
  | parens e ih =>
    have he : Formula.depth e = 3 + 3 * Formula.nesting e :=
      Chain.depth_eq_of fun t ht => Chain.depth_eq_of (ih t ht)
    rw [Factor.depth_parens, Factor.nesting_parens]
    omega

/-! ## The same nodes in the form -/

/-- A form shows as many nodes, as many levels and the same names as an expression has. -/
structure Shows (form : Value) (size depth : Nat) (names : List String) : Prop where
  length_nodes : form.nodes.length = size
  typedDepth_eq : form.typedDepth = depth
  names_eq : form.nodes.filterMap Value.variableName? = names

namespace Shows

variable {ω α β : Type}

/-- A constant is one node without a name. -/
theorem const {v : Value} (hnodes : v.nodes = []) (hdepth : v.typedDepth = 0) :
    Shows (leafForm "const" "value" v) 1 1 [] := by
  have htyped : Value.isTyped [("type", .text "const"), ("value", v)] = true := rfl
  have hform : (leafForm "const" "value" v).nodes = [[("type", .text "const"), ("value", v)]] := by
    simp [leafForm, Value.nodes_record, htyped, hnodes]
  refine ⟨by rw [hform]; rfl, ?_, by rw [hform]; rfl⟩
  simp [leafForm, Value.typedDepth_record, htyped, hdepth, greatest]

/-- A variable is one node with its name, be it negated or not. -/
theorem var (name : String) {type : String} (h : type = "var" ∨ type = "not_var") :
    Shows (leafForm type "name" (.text name)) 1 1 [name] := by
  have hname : Value.variableName? [("type", .text type), ("name", .text name)] = some name := by
    rcases h with rfl | rfl <;> simp [Value.variableName?, Value.field]
  refine ⟨rfl, rfl, ?_⟩
  show [[("type", Value.text type), ("name", .text name)]].filterMap Value.variableName? = _
  rw [List.filterMap_cons_some hname, List.filterMap_nil]

/-- Parentheses are one node more than what stands in them. -/
theorem parens {form : Value} {size depth : Nat} {names : List String}
    (h : Shows form size depth names) :
    Shows (leafForm "parens" "expression" form) (1 + size) (1 + depth) names := by
  obtain ⟨rfl, rfl, rfl⟩ := h
  have htyped : Value.isTyped [("type", .text "parens"), ("expression", form)] = true := rfl
  have hnodes : (leafForm "parens" "expression" form).nodes =
      [("type", .text "parens"), ("expression", form)] :: form.nodes := by
    simp [leafForm, Value.nodes_record, htyped]
  refine ⟨?_, ?_, ?_⟩
  · rw [hnodes, List.length_cons, Nat.add_comm]
  · simp [leafForm, Value.typedDepth_record, htyped, greatest]
  · rw [hnodes]
    rfl

variable [Operator ω β] {type : String} {f : α → Value} {c : Chain ω α}

variable (type f c) in
/-- The nodes of a chain are its own and those of its operands. -/
theorem nodes_chain : ∃ fields, Value.variableName? fields = none ∧
    (c.form type f).nodes = fields :: c.operands.flatMap fun a => (f a).nodes := by
  refine ⟨[("type", .text type), ("head", f c.head), ("tail", .list (c.tail.map fun p =>
    .record [("operator", .text (Operator.token p.1)), ("operand", f p.2)]))], ?_, ?_⟩
  · simp [Value.variableName?, Value.field]
  · simp [Chain.form, Value.nodes_record, Value.nodes_list, Value.isTyped, Chain.operands,
      List.flatMap_map]

theorem typedDepth_chain :
    (c.form type f).typedDepth = c.depth fun a => (f a).typedDepth := by
  simp [Chain.form, Value.typedDepth_record, Value.typedDepth_list, Value.isTyped, Chain.operands,
      Chain.depth, greatest, Function.comp_def]

/-- A chain is one node more than its operands. -/
theorem chain {size depth : α → Nat} {names : α → List String}
    (h : ∀ a ∈ c.operands, Shows (f a) (size a) (depth a) (names a)) :
    Shows (c.form type f) (c.size size) (c.depth depth) (c.names names) := by
  obtain ⟨fields, hfields, hnodes⟩ := nodes_chain type f c
  refine ⟨?_, ?_, ?_⟩
  · have hsizes : c.operands.map (fun a => (f a).nodes.length) = c.operands.map size :=
      List.map_congr_left fun a ha => (h a ha).length_nodes
    rw [hnodes, List.length_cons, List.length_flatMap, hsizes, Nat.add_comm]
    rfl
  · have hdepths : c.operands.map (fun a => (f a).typedDepth) = c.operands.map depth :=
      List.map_congr_left fun a ha => (h a ha).typedDepth_eq
    rw [typedDepth_chain, Chain.depth, hdepths]
    rfl
  · have hnames : c.operands.map (fun a => (f a).nodes.filterMap Value.variableName?) =
        c.operands.map names :=
      List.map_congr_left fun a ha => (h a ha).names_eq
    rw [hnodes, List.filterMap_cons_none hfields, List.filterMap_flatMap, List.flatMap_def, hnames]
    rfl

end Shows

theorem Literal.shows (l : Literal) : Shows l.form 1 1 l.names := by
  cases l with
  | const value => exact .const rfl rfl
  | var name => exact .var name (.inl rfl)
  | negated name => exact .var name (.inr rfl)

theorem Matcher.shows (m : Matcher) : Shows m.form m.size m.depth m.names :=
  .chain fun l _ => l.shows

theorem Factor.shows (f : Factor) : Shows f.form f.size f.depth f.names := by
  induction f using Factor.induct with
  | const x => exact .const rfl rfl
  | var name => exact .var name (.inl rfl)
  | parens e ih =>
    rw [form_parens, size_parens, depth_parens, names_parens]
    exact .parens (.chain fun t ht => .chain fun f hf => ih t ht f hf)

theorem Term.shows (t : Term) : Shows (Term.form t) (Term.size t) (Term.depth t) (Term.names t) :=
  .chain fun f _ => f.shows

theorem Formula.shows (e : Formula) : Shows e.form e.size e.depth e.names :=
  .chain fun t _ => Term.shows t

theorem Expression.shows (x : Expression) : Shows x.form x.size x.depth x.names := by
  cases x with
  | literal l => exact l.shows
  | matcher m => exact m.shows
  | factor f => exact f.shows
  | term t => exact Term.shows t
  | formula e => exact Formula.shows e

/-! ## Every node once -/

theorem Formula.size_eq (e : Formula) :
    e.size = 3 * (e.pairs + 1) + 2 * e.additives + e.multiplicatives := by
  have hsize : e.size = 3 + 3 * e.pairs + 2 * e.additives + e.multiplicatives :=
    Formula.size_eq_of fun t _ => Term.size_eq_of fun f _ => f.size_eq
  omega

theorem Formula.depth_eq (e : Formula) : e.depth = 3 * (1 + e.nesting) := by
  have hdepth : e.depth = 3 + 3 * e.nesting :=
    Chain.depth_eq_of fun t _ => Chain.depth_eq_of fun f _ => f.depth_eq
  omega

theorem total_map_one {α : Type} (l : List α) : total (l.map fun _ => 1) = l.length := by
  induction l with
  | nil => rfl
  | cons a l ih =>
    rw [List.map_cons, List.length_cons, ← ih, Nat.add_comm]
    rfl

theorem Matcher.size_eq (m : Matcher) : m.size = m.tail.length + 2 := by
  rw [Matcher.size, Chain.size, total_map_one, Chain.length_operands]
  omega

theorem Matcher.depth_eq (m : Matcher) : m.depth = 2 := by
  have hdepth : m.depth = 2 + 3 * Chain.most (fun _ => 0) m := Chain.depth_eq_of fun _ _ => rfl
  have hmost : Chain.most (fun _ => 0) m ≤ 0 := Chain.most_le_iff.mpr fun _ _ => Nat.le_refl 0
  omega

/-- Every node counts once. The size of a formula is decided by how many parentheses and operators
are in it, its depth by how many parentheses are nested, and those of a matcher by its operators.
The form of any expression has as many nodes as the expression, as many levels, and the names of the
expression in the nodes of its variables. -/
theorem metrics_count_each_node_once :
    (∀ e : Formula, e.size = 3 * (e.pairs + 1) + 2 * e.additives + e.multiplicatives ∧
      e.depth = 3 * (1 + e.nesting)) ∧
    (∀ m : Matcher, m.size = m.tail.length + 2 ∧ m.depth = 2) ∧
    ∀ x : Expression, x.form.nodes.length = x.size ∧ x.form.typedDepth = x.depth ∧
      x.form.nodes.filterMap Value.variableName? = x.names :=
  ⟨fun e => ⟨e.size_eq, e.depth_eq⟩, fun m => ⟨m.size_eq, m.depth_eq⟩,
    fun x => ⟨x.shows.length_nodes, x.shows.typedDepth_eq, x.shows.names_eq⟩⟩

end Rulebook
