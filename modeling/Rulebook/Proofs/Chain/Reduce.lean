import Mathlib.Tactic.Common
import Rulebook.Chain

/-!
# Values of chains

The value of a chain is taken operand by operand: the head gives a first value, and each pair makes
the next one out of it (`Chain.reduceFrom`). The first operand without a value ends this.
-/

namespace Rulebook.Chain

variable {ω α β γ ε : Type} [Operator ω β]

/-- The value of the pairs behind an operand, whose value is known. -/
def reduceFrom (value : α → Except ε β) (acc : β) (tail : List (ω × α)) : Except ε β :=
  tail.foldlM (fun acc p => do return Operator.apply p.1 acc (← value p.2)) acc

variable {value value' : α → Except ε β} {c : Chain ω α} {fault : ε}

@[simp]
theorem reduceFrom_nil (acc : β) : reduceFrom value acc ([] : List (ω × α)) = .ok acc :=
  rfl

theorem reduceFrom_cons (acc : β) (o : ω) (a : α) (tail : List (ω × α)) :
    reduceFrom value acc ((o, a) :: tail) =
      match value a with
      | .error fault => .error fault
      | .ok x => reduceFrom value (Operator.apply o acc x) tail := by
  unfold reduceFrom
  rw [List.foldlM_cons]
  cases value a <;> rfl

theorem reduce_eq (value : α → Except ε β) (c : Chain ω α) :
    c.reduce value =
      match value c.head with
      | .error fault => .error fault
      | .ok x => reduceFrom value x c.tail := by
  unfold reduce
  cases value c.head <;> rfl

/-- The value of a chain of replaced operands. -/
theorem reduce_map (f : γ → α) (c : Chain ω γ) :
    (c.map f).reduce value = c.reduce fun a => value (f a) := by
  simp [reduce, map, List.foldlM_map]

/-! ## Two values of the operands -/

theorem reduceFrom_eq_or {P : α → Prop} {tail : List (ω × α)}
    (h : ∀ p ∈ tail, value p.2 = value' p.2 ∨ (value p.2 = .error fault ∧ P p.2)) (acc : β) :
    reduceFrom value acc tail = reduceFrom value' acc tail ∨
      (reduceFrom value acc tail = .error fault ∧ ∃ p ∈ tail, P p.2) := by
  -- by the pairs; the first operand on which the two differ decides
  induction tail generalizing acc with
  | nil => exact .inl rfl
  | cons p tail ih =>
    obtain ⟨o, a⟩ := p
    rw [reduceFrom_cons, reduceFrom_cons]
    rcases h (o, a) List.mem_cons_self with ha | ⟨ha, hP⟩
    · rw [ha]
      cases value' a with
      | error fault => exact .inl rfl
      | ok x =>
        rcases ih (fun p hp => h p (List.mem_cons_of_mem _ hp)) (Operator.apply o acc x) with
          heq | ⟨herror, p, hp, hP⟩
        · exact .inl heq
        · exact .inr ⟨herror, p, List.mem_cons_of_mem _ hp, hP⟩
    · rw [ha]
      exact .inr ⟨rfl, (o, a), List.mem_cons_self, hP⟩

/-- If each operand either has the same value for both or fails with one fault for the first, then
so does the chain. -/
theorem reduce_eq_or {P : α → Prop}
    (h : ∀ a ∈ c.operands, value a = value' a ∨ (value a = .error fault ∧ P a)) :
    c.reduce value = c.reduce value' ∨
      (c.reduce value = .error fault ∧ ∃ a ∈ c.operands, P a) := by
  have htail : ∀ p ∈ c.tail,
      value p.2 = value' p.2 ∨ (value p.2 = .error fault ∧ P p.2) := fun p hp =>
    h p.2 (List.mem_cons_of_mem _ (List.mem_map_of_mem hp))
  rw [reduce_eq, reduce_eq]
  rcases h c.head List.mem_cons_self with hhead | ⟨hhead, hP⟩
  · rw [hhead]
    cases value' c.head with
    | error fault => exact .inl rfl
    | ok x =>
      rcases reduceFrom_eq_or htail x with heq | ⟨herror, p, hp, hP⟩
      · exact .inl heq
      · exact .inr ⟨herror, p.2, List.mem_cons_of_mem _ (List.mem_map_of_mem hp), hP⟩
  · rw [hhead]
    exact .inr ⟨rfl, c.head, List.mem_cons_self, hP⟩

/-! ## Faults -/

theorem reduceFrom_ne_error {tail : List (ω × α)} (h : ∀ p ∈ tail, value p.2 ≠ .error fault)
    (acc : β) : reduceFrom value acc tail ≠ .error fault := by
  -- by the pairs, each of which gives the rest another value to begin with
  induction tail generalizing acc with
  | nil => simp
  | cons p tail ih =>
    obtain ⟨o, a⟩ := p
    have ha := h (o, a) List.mem_cons_self
    rw [reduceFrom_cons]
    cases hv : value a with
    | error fault => simpa [hv] using ha
    | ok x => exact ih (fun p hp => h p (List.mem_cons_of_mem _ hp)) _

/-- A chain has no fault that none of its operands has. -/
theorem reduce_ne_error (h : ∀ a ∈ c.operands, value a ≠ .error fault) :
    c.reduce value ≠ .error fault := by
  have hhead := h c.head List.mem_cons_self
  rw [reduce_eq]
  cases hv : value c.head with
  | error fault => simpa [hv] using hhead
  | ok x =>
    exact reduceFrom_ne_error
      (fun p hp => h p.2 (List.mem_cons_of_mem _ (List.mem_map_of_mem hp))) x

end Rulebook.Chain
