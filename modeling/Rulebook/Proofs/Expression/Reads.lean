import Rulebook.Proofs.Nesting.Reduction
import Rulebook.Matcher

/-!
# What the value of an expression depends on

The names of an expression are collected by one function and its value is taken by another. The
value depends on no other names, and the variable that it misses is one of them without a value
(`ReadsOnly`). That holds of a constant and of a variable, and it passes from the operands of a
chain to the chain and from a formula to the parentheses around it, so that it holds of both kinds
of expressions.
-/

namespace Rulebook

/-- Bindings give the same value, or none, to each of some names. -/
def Bindings.AgreeOn {α : Type} (names : List String) (first second : Bindings α) : Prop :=
  ∀ name ∈ names, first name = second name

theorem Bindings.AgreeOn.mono {α : Type} {names more : List String} {first second : Bindings α}
    (h : AgreeOn more first second) (hsub : names ⊆ more) : AgreeOn names first second :=
  fun name hname => h name (hsub hname)

/-- A value is taken from the bindings of some names: it is the same for bindings that agree on
them, and a variable that it misses is one of them without a value. -/
structure ReadsOnly {α β : Type} (names : List String)
    (value : Bindings α → Except ReduceFault β) : Prop where
  congr : ∀ {first second}, Bindings.AgreeOn names first second → value first = value second
  undefined : ∀ {bindings name}, value bindings = .error (.undefinedVariable name) →
    name ∈ names ∧ bindings name = none

namespace ReadsOnly

variable {α β γ ω : Type} {names : List String}

/-- A fixed outcome reads nothing, if it misses nothing. -/
theorem const {r : Except ReduceFault β} (h : ∀ name, r ≠ .error (.undefinedVariable name)) :
    ReadsOnly names fun _ : Bindings α => r :=
  ⟨fun _ => rfl, fun hr => absurd hr (h _)⟩

theorem lookup (name : String) : ReadsOnly [name] fun b : Bindings α => b.lookup name := by
  refine ⟨fun {first second} h => ?_, fun {bindings missing} h => ?_⟩
  · unfold Bindings.lookup
    rw [h name List.mem_cons_self]
  · unfold Bindings.lookup at h
    split at h
    · simp at h
    · rename_i hnone
      obtain rfl : name = missing := by simpa using h
      exact ⟨List.mem_cons_self, hnone⟩

theorem map {value : Bindings α → Except ReduceFault β} (h : ReadsOnly names value)
    (f : β → γ) : ReadsOnly names fun b => (value b).map f := by
  refine ⟨fun hagree => by rw [h.congr hagree], fun {bindings missing} hmap => h.undefined ?_⟩
  cases hv : value bindings with
  | ok x => simp [hv, Except.map] at hmap
  | error fault => simpa [hv, Except.map] using hmap

/-- A chain reads what its operands read. -/
theorem chain [Operator ω β] {f : γ → List String} {value : γ → Bindings α → Except ReduceFault β}
    {c : Chain ω γ} (h : ∀ a ∈ c.operands, ReadsOnly (f a) (value a)) :
    ReadsOnly (c.names f) fun b => c.reduce fun a => value a b := by
  have hsub : ∀ a ∈ c.operands, f a ⊆ c.names f := fun a ha name hname =>
    List.mem_flatMap.mpr ⟨a, ha, hname⟩
  refine ⟨fun {first second} hagree => ?_, fun {bindings name} hmissing => ?_⟩
  · -- no operand gives another value, so that no one decides otherwise
    have hor : (c.reduce fun a => value a first) = (c.reduce fun a => value a second) ∨
        (c.reduce fun a => value a first) = .error .tooDeep ∧ ∃ a ∈ c.operands, False :=
      Chain.reduce_eq_or fun a ha => .inl ((h a ha).congr (hagree.mono (hsub a ha)))
    rcases hor with heq | ⟨-, _, -, hfalse⟩
    · exact heq
    · exact hfalse.elim
  · -- the fault of a chain is that of an operand
    by_contra hnot
    refine Chain.reduce_ne_error (fun a ha hfault => hnot ?_) hmissing
    obtain ⟨hname, hnone⟩ := (h a ha).undefined hfault
    exact ⟨hsub a ha hname, hnone⟩

end ReadsOnly

/-! ## Matchers -/

theorem Literal.readsOnly (l : Literal) : ReadsOnly l.names fun b => l.reduce b := by
  cases l with
  | const value => exact .const fun _ => by simp
  | var name => exact .lookup name
  | negated name => exact (ReadsOnly.lookup name).map (!·)

theorem Matcher.readsOnly (m : Matcher) : ReadsOnly m.names fun b => m.reduce b :=
  .chain fun l _ => l.readsOnly

/-! ## Formulas -/

theorem Chain.names_map {ω α β : Type} (f : β → List String) (g : α → β) (c : Chain ω α) :
    (c.map g).names f = c.names fun a => f (g a) := by
  unfold Chain.names
  rw [operands_map, List.flatMap_map]

theorem Factor.names_parens (e : Formula) : (Factor.parens e).names = Formula.names e := by
  unfold Factor.names
  rw [Factor.fold_parens]
  simp only [Chain.names_map]
  rfl

theorem Factor.readsOnly (limit : Nat) (f : Factor) :
    ReadsOnly f.names fun b => f.reduce b limit := by
  -- by the factor; each pair of parentheses uses up one level of the limit
  induction f using Factor.induct generalizing limit with
  | const x => exact .const fun _ => by simp
  | var name => exact .lookup name
  | parens e ih =>
    rw [names_parens]
    cases limit with
    | zero =>
      simp only [reduce_parens_zero]
      exact .const fun _ => by simp
    | succ limit =>
      simp only [reduce_parens_succ]
      exact .chain fun t ht => .chain fun f hf => ih t ht f hf limit

theorem Formula.readsOnly (limit : Nat) (e : Formula) :
    ReadsOnly e.names fun b => e.reduce b limit :=
  .chain fun _ _ => .chain fun f _ => f.readsOnly limit

end Rulebook
