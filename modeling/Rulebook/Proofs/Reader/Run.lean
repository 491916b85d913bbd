import Mathlib.Data.Nat.Init
import Mathlib.Tactic.Common
import Rulebook.Chain

/-!
# Runs of readers

What a reader gives, without the proof that the rest is shorter. The type of a `Reading` depends on
the text, so that two readings of texts that are only proved equal cannot be compared; two runs can.

`Chain.run_read` opens the reader of chains once and for all: an operand, then perhaps an operator
and a chain again. Whatever is said about chains goes by that equation.
-/

namespace Rulebook

/-! ## Runs -/

/-- The value and the rest, or the fault, that a reader gives for a text. -/
def Reader.run {α : Type} (p : Reader α) (s : List Char) : Except Fault (α × List Char) :=
  (p s).map fun r => (r.value, r.rest)

namespace Reader

variable {α β : Type} {p q : Reader α} {s rest : List Char} {a : α}

theorem run_eq_ok_iff : p.run s = .ok (a, rest) ↔ ∃ h, p s = .ok ⟨a, rest, h⟩ := by
  unfold run
  cases hp : p s with
  | error f => simp [Except.map]
  | ok r =>
    obtain ⟨b, t, ht⟩ := r
    simp only [Except.map, Except.ok.injEq, Prod.mk.injEq, Reading.mk.injEq]
    constructor
    · rintro ⟨rfl, rfl⟩
      exact ⟨ht, rfl, rfl⟩
    · rintro ⟨_, rfl, rfl⟩
      exact ⟨rfl, rfl⟩

theorem run_eq_error_iff {f : Fault} : p.run s = .error f ↔ p s = .error f := by
  unfold run
  cases p s <;> simp [Except.map]

/-- A run leaves a shorter rest. -/
theorem length_lt_of_run (h : p.run s = .ok (a, rest)) : rest.length < s.length := by
  obtain ⟨ht, _⟩ := run_eq_ok_iff.mp h
  exact ht

/-- Readers are equal on a text if their runs are. -/
theorem eq_of_run_eq (h : p.run s = q.run s) : p s = q s := by
  cases hq : q.run s with
  | error f => rw [run_eq_error_iff.mp hq, run_eq_error_iff.mp (h.trans hq)]
  | ok r =>
    obtain ⟨b, t⟩ := r
    obtain ⟨_, hqs⟩ := run_eq_ok_iff.mp hq
    obtain ⟨_, hps⟩ := run_eq_ok_iff.mp (h.trans hq)
    rw [hqs, hps]

theorem run_eq_run_iff : p.run s = q.run s ↔ p s = q s :=
  ⟨eq_of_run_eq, fun h => by rw [run, run, h]⟩

end Reader

/-! ## Operators -/

namespace Operator

variable {ω β : Type} [Operator ω β] {s rest : List Char} {o : ω}

theorem append_of_first? {os : List ω} {r : Reading ω s} (h : first? s os = some r) :
    s = (token r.value).toList ++ r.rest := by
  -- by the operators in the order in which they are tried
  induction os with
  | nil => simp [first?] at h
  | cons o os ih =>
    rw [first?] at h
    split at h
    · rename_i t ht hafter
      obtain rfl := Option.some.inj h
      unfold afterToken? at hafter
      split at hafter
      · rename_i hprefix
        obtain rfl := congrArg Subtype.val (Option.some.inj hafter)
        exact (List.prefix_iff_eq_append.mp hprefix).symm
      · simp at hafter
    · exact ih h

/-- An operator that is read stands in front of the text. -/
theorem append_of_run (h : (read : Reader ω).run s = .ok (o, rest)) :
    s = (token o).toList ++ rest := by
  obtain ⟨_, h⟩ := Reader.run_eq_ok_iff.mp h
  unfold read at h
  split at h
  · rename_i r hr
    obtain rfl := Except.ok.inj h
    exact append_of_first? hr
  · simp at h

/-- Operators are read without parentheses, so none of them is nested too deep. -/
theorem run_ne_tooDeep : (read : Reader ω).run s ≠ .error .tooDeep := by
  intro h
  have h := Reader.run_eq_error_iff.mp h
  unfold read at h
  split at h <;> simp at h

end Operator

/-! ## Sequences and repetitions -/

namespace Reader

variable {α β : Type}

theorem run_andThen (p : Reader α) (q : Reader β) (s : List Char) :
    (p.andThen q).run s =
      match p.run s with
      | .error f => .error f
      | .ok (a, s₁) =>
        match q.run s₁ with
        | .error f => .error f
        | .ok (b, s₂) => .ok ((a, b), s₂) := by
  unfold run andThen
  cases hp : p s with
  | error f => rfl
  | ok r =>
    cases hq : q r.rest <;> simp [bind, Except.bind, Except.map, pure, Except.pure, hq]

/-- The values and the rest that a repeated reader gives. -/
def runMany (p : Reader α) (s : List Char) : Except Fault (List α × List Char) :=
  (p.many s).map fun r => (r.1, r.2.val)

/-- A repetition ends where the reader meets a mismatch. -/
theorem runMany_eq (p : Reader α) (s : List Char) :
    p.runMany s =
      match p.run s with
      | .error .tooDeep => .error .tooDeep
      | .error (.mismatch _ _) => .ok ([], s)
      | .ok (a, s₁) => (p.runMany s₁).map fun r => (a :: r.1, r.2) := by
  unfold runMany run
  rw [many]
  cases hp : p s with
  | error f => cases f <;> rfl
  | ok r =>
    cases hm : p.many r.rest <;>
      simp [attempt, bind, Except.bind, Except.map, pure, Except.pure, hm]

/-- A repetition has no mismatch of its own: it ends in front of one. -/
theorem runMany_ne_mismatch (p : Reader α) (s t : List Char) (x : Expectation) :
    p.runMany s ≠ .error (.mismatch t x) := by
  -- by the length of the text, which every value read makes shorter
  induction hn : s.length using Nat.strong_induction_on generalizing s with
  | _ n ih =>
    rw [runMany_eq]
    cases hp : p.run s with
    | error f => cases f <;> simp
    | ok r =>
      have hrest := ih r.2.length (hn ▸ length_lt_of_run hp) r.2 rfl
      cases hm : p.runMany r.2 with
      | error f =>
        intro h
        simp only [hm, Except.map, Except.error.injEq] at h
        exact hrest (h ▸ hm)
      | ok r => simp [hm, Except.map]

/-- A whole text has the reader's value if only blanks are left. -/
theorem complete_eq (p : Reader α) (s : List Char) :
    p.complete s =
      match p.run s with
      | .error f => .error f
      | .ok (a, rest) =>
        if rest.all Text.isBlank then .ok a else .error (.mismatch rest .endOfExpression) := by
  unfold complete run
  cases hp : p s with
  | error f => rfl
  | ok r =>
    simp only [bind, Except.bind, Except.map, pure, Except.pure, throw, throwThe,
      MonadExceptOf.throw]

end Reader

/-! ## Chains -/

namespace Chain

variable {ω α β : Type}

/-- The chain with one more operand in front. -/
def cons (a : α) (o : ω) (c : Chain ω α) : Chain ω α :=
  ⟨a, (o, c.head) :: c.tail⟩

variable [Operator ω β]

/-- The tail of a chain is a repetition of operators with operands. -/
theorem run_read_eq_many (p : Reader α) (s : List Char) :
    (Chain.read p : Reader (Chain ω α)).run s =
      match p.run s with
      | .error f => .error f
      | .ok (a, s₁) =>
        (((Operator.read : Reader ω).andThen p).runMany s₁).map fun r => (⟨a, r.1⟩, r.2) := by
  unfold Reader.run Chain.read Reader.runMany
  cases hp : p s with
  | error f => rfl
  | ok r =>
    cases hm : ((Operator.read : Reader ω).andThen p).many r.rest <;>
      simp [bind, Except.bind, Except.map, pure, Except.pure, hm]

/-- A chain is an operand, then perhaps an operator and a chain. Where no chain follows the
operator, the operator is not taken either; nesting too deep is no such end. -/
theorem run_read (p : Reader α) (s : List Char) :
    (Chain.read p : Reader (Chain ω α)).run s =
      match p.run s with
      | .error f => .error f
      | .ok (a, s₁) =>
        match (Operator.read : Reader ω).run s₁ with
        | .error _ => .ok (⟨a, []⟩, s₁)
        | .ok (o, s₂) =>
          match (Chain.read p : Reader (Chain ω α)).run s₂ with
          | .error .tooDeep => .error .tooDeep
          | .error (.mismatch _ _) => .ok (⟨a, []⟩, s₁)
          | .ok (c, s₃) => .ok (cons a o c, s₃) := by
  rw [run_read_eq_many]
  cases hp : p.run s with
  | error f => rfl
  | ok r =>
    obtain ⟨a, s₁⟩ := r
    simp only
    rw [Reader.runMany_eq, Reader.run_andThen]
    cases ho : (Operator.read : Reader ω).run s₁ with
    | error f =>
      -- an operator is never too deep, so the repetition ends here
      cases f with
      | mismatch t x => rfl
      | tooDeep => exact absurd ho Operator.run_ne_tooDeep
    | ok r =>
      obtain ⟨o, s₂⟩ := r
      -- an operator follows, and the repetition reads on behind it as a chain would
      simp only
      rw [run_read_eq_many]
      cases hq : p.run s₂ with
      | error f => cases f <;> rfl
      | ok r =>
        obtain ⟨b, s₃⟩ := r
        simp only
        cases hm : ((Operator.read : Reader ω).andThen p).runMany s₃ with
        | error f =>
          cases f with
          | mismatch t x => exact absurd hm (Reader.runMany_ne_mismatch _ _ _ _)
          | tooDeep => rfl
        | ok r => simp [Except.map, cons]

/-- A chain has no mismatch but that of its head. -/
theorem run_read_mismatch_iff {p : Reader α} {s t : List Char} {x : Expectation} :
    (Chain.read p : Reader (Chain ω α)).run s = .error (.mismatch t x) ↔
      p.run s = .error (.mismatch t x) := by
  rw [run_read]
  cases hp : p.run s with
  | error f => simp
  | ok r =>
    obtain ⟨a, s₁⟩ := r
    simp only [reduceCtorEq, iff_false]
    cases (Operator.read : Reader ω).run s₁ with
    | error f => simp
    | ok r =>
      obtain ⟨o, s₂⟩ := r
      simp only
      split <;> simp

/-- A chain is too deep only where one of its operands is. -/
theorem run_read_ne_tooDeep {p : Reader α} {s : List Char}
    (hp : ∀ t, t.length ≤ s.length → p.run t ≠ .error .tooDeep) :
    (Chain.read p : Reader (Chain ω α)).run s ≠ .error .tooDeep := by
  -- by the length of the text: what follows an operator is shorter
  induction hn : s.length using Nat.strong_induction_on generalizing s with
  | _ n ih =>
    rw [run_read]
    have hhead := hp s (Nat.le_refl _)
    cases hs : p.run s with
    | error f =>
      rw [hs] at hhead
      simpa using hhead
    | ok r =>
      obtain ⟨a, s₁⟩ := r
      simp only
      cases ho : (Operator.read : Reader ω).run s₁ with
      | error f => simp
      | ok r =>
        obtain ⟨o, s₂⟩ := r
        have h₁ := Reader.length_lt_of_run hs
        have h₂ := Reader.length_lt_of_run ho
        have hrest := ih s₂.length (by omega) (fun t ht => hp t (by omega)) rfl
        simp only
        split
        · contradiction
        · simp
        · simp

/-- A chain that is read is one operand behind which no pair follows, or an operand, an operator
and a chain. -/
theorem run_read_ok {p : Reader α} {s rest : List Char} {c : Chain ω α}
    (h : (Chain.read p : Reader (Chain ω α)).run s = .ok (c, rest)) :
    (∃ a, p.run s = .ok (a, rest) ∧ c = ⟨a, []⟩ ∧
      ∀ o t, (Operator.read : Reader ω).run rest = .ok (o, t) → ∃ u x,
        p.run t = .error (.mismatch u x)) ∨
    (∃ a s₁ o s₂ d, p.run s = .ok (a, s₁) ∧ (Operator.read : Reader ω).run s₁ = .ok (o, s₂) ∧
      (Chain.read p : Reader (Chain ω α)).run s₂ = .ok (d, rest) ∧ c = cons a o d) := by
  rw [run_read] at h
  cases hp : p.run s with
  | error f => simp [hp] at h
  | ok r =>
    obtain ⟨a, s₁⟩ := r
    simp only [hp] at h
    cases ho : (Operator.read : Reader ω).run s₁ with
    | error f =>
      simp only [ho, Except.ok.injEq, Prod.mk.injEq] at h
      obtain ⟨rfl, rfl⟩ := h
      exact .inl ⟨a, rfl, rfl, fun o t ht => by simp [ho] at ht⟩
    | ok r =>
      obtain ⟨o, s₂⟩ := r
      simp only [ho] at h
      cases hd : (Chain.read p : Reader (Chain ω α)).run s₂ with
      | ok r =>
        obtain ⟨d, s₃⟩ := r
        simp only [hd, Except.ok.injEq, Prod.mk.injEq] at h
        obtain ⟨rfl, rfl⟩ := h
        exact .inr ⟨a, s₁, o, s₂, d, rfl, ho, hd, rfl⟩
      | error f =>
        cases f with
        -- the pair is given up, which nesting too deep would not allow
        | tooDeep => simp [hd] at h
        | mismatch u x =>
          simp only [hd, Except.ok.injEq, Prod.mk.injEq] at h
          obtain ⟨rfl, rfl⟩ := h
          refine .inl ⟨a, rfl, rfl, fun o' t ht => ?_⟩
          obtain ⟨rfl, rfl⟩ := Prod.mk.inj (Except.ok.inj (ho.symm.trans ht))
          exact ⟨u, x, (run_read_mismatch_iff).mp hd⟩

/-- What holds of the rest behind every operand holds of the rest behind a chain. -/
theorem rest_of_run_read {p : Reader α} {P : List Char → Prop}
    (hp : ∀ s a u, p.run s = .ok (a, u) → P u) {s rest : List Char} {c : Chain ω α}
    (h : (Chain.read p : Reader (Chain ω α)).run s = .ok (c, rest)) : P rest := by
  -- by the length of the text: the rest behind a chain is that behind its last operand
  induction hn : s.length using Nat.strong_induction_on generalizing s c with
  | _ n ih =>
    rcases run_read_ok h with ⟨a, ha, -, -⟩ | ⟨a, s₁, o, s₂, d, ha, ho, hd, -⟩
    · exact hp s a rest ha
    · have h₁ := Reader.length_lt_of_run ha
      have h₂ := Reader.length_lt_of_run ho
      exact ih s₂.length (by omega) hd rfl

end Chain

end Rulebook
