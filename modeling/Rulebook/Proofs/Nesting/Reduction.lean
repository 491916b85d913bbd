import Rulebook.Proofs.Chain.Reduce
import Rulebook.Proofs.Formula.Induction

/-!
# Reducing with a limit on parentheses

`Factor.reduceFreely` is the value of a factor that no limit stops, `Factor.nesting` the greatest
number of parentheses around one of its leaves. A limit gives the same outcome, or it reports
nesting too deep, and that for nestings greater than the limit only. It may also miss one: where a
variable further left is undefined, the parentheses on its right are not looked into.
-/

namespace Rulebook

/-! ## Values without a limit -/

/-- The value of a factor, however many parentheses are nested. -/
def Factor.reduceFreely (bindings : Bindings Float) : Factor → Except ReduceFault Float :=
  Factor.fold .ok bindings.lookup fun e => e.reduce fun t => t.reduce id

/-- The value of a term, however many parentheses are nested. -/
def Term.reduceFreely (bindings : Bindings Float) (t : Term) : Except ReduceFault Float :=
  Chain.reduce (Factor.reduceFreely bindings) t

/-- The value of a formula, however many parentheses are nested. -/
def Formula.reduceFreely (bindings : Bindings Float) (e : Formula) : Except ReduceFault Float :=
  Chain.reduce (Term.reduceFreely bindings) e

/-! ## Nesting -/

namespace Chain

variable {ω α β : Type} {f : α → Nat} {c : Chain ω α} {a : α}

/-- The greatest of the numbers of the operands. -/
def most (f : α → Nat) (c : Chain ω α) : Nat :=
  greatest (c.operands.map f)

theorem greatest_le_iff {ns : List Nat} {k : Nat} : greatest ns ≤ k ↔ ∀ n ∈ ns, n ≤ k := by
  induction ns with
  | nil => simp [greatest]
  | cons m ns ih =>
    rw [List.forall_mem_cons, ← ih]
    exact Nat.max_le

theorem most_map (g : β → α) (c : Chain ω β) : (c.map g).most f = c.most fun b => f (g b) := by
  simp [most, Function.comp_def]

theorem most_le_iff {k : Nat} : c.most f ≤ k ↔ ∀ a ∈ c.operands, f a ≤ k := by
  rw [most, greatest_le_iff]
  simp

theorem le_most (h : a ∈ c.operands) : f a ≤ c.most f :=
  most_le_iff.mp (Nat.le_refl _) a h

end Chain

/-- How many parentheses are nested in a factor. -/
def Factor.nesting : Factor → Nat :=
  Factor.fold (fun _ => 0) (fun _ => 0) fun e => 1 + e.most (Chain.most id)

/-- How many parentheses are nested in a term. -/
def Term.nesting (t : Term) : Nat :=
  Chain.most Factor.nesting t

/-- How many parentheses are nested in a formula. -/
def Formula.nesting (e : Formula) : Nat :=
  Chain.most Term.nesting e

/-! ## One pair of parentheses -/

namespace Factor

variable {bindings : Bindings Float} {limit : Nat} {e : Formula} {f : Factor}

theorem reduceFreely_parens :
    (Factor.parens e).reduceFreely bindings = Formula.reduceFreely bindings e := by
  unfold Factor.reduceFreely
  rw [Factor.fold_parens]
  simp only [Chain.reduce_map]
  rfl

theorem reduce_parens_zero : (Factor.parens e).reduce bindings 0 = .error .tooDeep := by
  unfold Factor.reduce
  rw [Factor.fold_parens]
  rfl

theorem reduce_parens_succ :
    (Factor.parens e).reduce bindings (limit + 1) = Formula.reduce bindings limit e := by
  unfold Factor.reduce
  rw [Factor.fold_parens]
  simp only [Factor.reduce.inParens, Chain.reduce_map]
  rfl

theorem nesting_parens : (Factor.parens e).nesting = 1 + Formula.nesting e := by
  unfold Factor.nesting
  rw [Factor.fold_parens]
  simp only [Chain.most_map]
  rfl

/-! ## The limit on reducing -/

/-- What a limit does to the operands of a formula it does to the formula. -/
theorem reduce_formula_eq_or
    (h : ∀ t ∈ e.operands, ∀ f ∈ t.operands, Factor.reduce bindings limit f =
      f.reduceFreely bindings ∨
        (Factor.reduce bindings limit f = .error .tooDeep ∧ limit < f.nesting)) :
    Formula.reduce bindings limit e = Formula.reduceFreely bindings e ∨
      (Formula.reduce bindings limit e = .error .tooDeep ∧ limit < Formula.nesting e) := by
  have hterm : ∀ t ∈ e.operands, Term.reduce bindings limit t = Term.reduceFreely bindings t ∨
      (Term.reduce bindings limit t = .error .tooDeep ∧ limit < Term.nesting t) := by
    intro t ht
    rcases Chain.reduce_eq_or (h t ht) with heq | ⟨hdeep, f, hf, hlt⟩
    · exact .inl heq
    · exact .inr ⟨hdeep, Nat.lt_of_lt_of_le hlt (Chain.le_most hf)⟩
  rcases Chain.reduce_eq_or hterm with heq | ⟨hdeep, t, ht, hlt⟩
  · exact .inl heq
  · exact .inr ⟨hdeep, Nat.lt_of_lt_of_le hlt (Chain.le_most ht)⟩

/-- A factor has its value, or it is nested past the limit and too deep. -/
theorem reduce_eq_or (bindings : Bindings Float) (limit : Nat) (f : Factor) :
    f.reduce bindings limit = f.reduceFreely bindings ∨
      (f.reduce bindings limit = .error .tooDeep ∧ limit < f.nesting) := by
  -- by the factor; each pair of parentheses uses up one level of the limit
  induction f using Factor.induct generalizing limit with
  | const x => exact .inl rfl
  | var name => exact .inl rfl
  | parens e ih =>
    rw [nesting_parens]
    cases limit with
    | zero => exact .inr ⟨reduce_parens_zero, by omega⟩
    | succ limit =>
      rw [reduce_parens_succ, reduceFreely_parens]
      rcases reduce_formula_eq_or fun t ht f hf => ih t ht f hf limit with heq | ⟨hdeep, hlt⟩
      · exact .inl heq
      · exact .inr ⟨hdeep, by omega⟩

/-- Without a limit nothing is too deep. -/
theorem reduceFreely_ne_tooDeep (f : Factor) : f.reduceFreely bindings ≠ .error .tooDeep := by
  induction f using Factor.induct with
  | const x =>
    intro h
    cases h
  | var name =>
    change bindings.lookup name ≠ _
    unfold Bindings.lookup
    split <;> simp
  | parens e ih =>
    rw [reduceFreely_parens]
    exact Chain.reduce_ne_error fun t ht => Chain.reduce_ne_error fun f hf => ih t ht f hf

end Factor

/-! ## Formulas -/

/-- A formula has its value, or it is nested past the limit and too deep. -/
theorem Formula.reduce_eq_or (bindings : Bindings Float) (limit : Nat) (e : Formula) :
    e.reduce bindings limit = e.reduceFreely bindings ∨
      (e.reduce bindings limit = .error .tooDeep ∧ limit < e.nesting) :=
  Factor.reduce_formula_eq_or fun _ _ f _ => Factor.reduce_eq_or bindings limit f

/-- Within the limit a formula has the value that it has without one. -/
theorem Formula.reduce_eq_reduceFreely {bindings : Bindings Float} {limit : Nat} {e : Formula}
    (h : e.nesting ≤ limit) : e.reduce bindings limit = e.reduceFreely bindings := by
  rcases e.reduce_eq_or bindings limit with heq | ⟨-, hlt⟩
  · exact heq
  · omega

theorem Formula.reduceFreely_ne_tooDeep (bindings : Bindings Float) (e : Formula) :
    e.reduceFreely bindings ≠ .error .tooDeep :=
  Chain.reduce_ne_error fun _ _ => Chain.reduce_ne_error fun f _ => f.reduceFreely_ne_tooDeep

end Rulebook
