import Rulebook.Proofs.Reader.Run
import Rulebook.Rule

/-!
# Reading without a limit on parentheses

`Factor.readFreely` is the reader of factors that no limit stops. It is the one reader that reads
what stands between parentheses by itself (`Factor.eq_readFreely_iff`).

How deep it goes is said by `Opens`: a factor that begins with a parenthesis has one more of them
open than some factor that is tried inside. Which operands are tried is said by `Chain.Tries`; an
operand that fails in the end, and takes the pair or the parenthesis with it, has been tried too.
-/

namespace Rulebook

/-! ## What is tried -/

/-- The operands that are tried where a chain is read: the first one, and one behind every operator
that follows an operand. -/
inductive Chain.Tries (ω : Type) {α β : Type} [Operator ω β] (p : Reader α) :
    List Char → List Char → Prop where
  | head {s : List Char} : Chain.Tries ω p s s
  | next {s s₁ s₂ t : List Char} {a : α} {o : ω} :
      p.run s = .ok (a, s₁) → (Operator.read : Reader ω).run s₁ = .ok (o, s₂) →
      Chain.Tries ω p s₂ t → Chain.Tries ω p s t

namespace Factor

variable {inside inside' : Reader Formula} {s t : List Char}

/-! ## One pair of parentheses -/

theorem run_readWith (inside : Reader Formula) (s : List Char) :
    (readWith inside).run s =
      match Text.skipBlanks s with
      | '(' :: t =>
        match inside.run t with
        | .ok (e, ')' :: rest) => .ok (.parens e, Text.skipBlanks rest)
        | .error .tooDeep => .error .tooDeep
        | _ => .error (.mismatch s .factor)
      | _ => Reader.run readLeaf s := by
  unfold Reader.run readWith
  split
  · rename_i t hp
    simp only [hp]
    cases hi : inside t with
    | error f => cases f <;> rfl
    | ok r =>
      obtain ⟨e, rest, h⟩ := r
      -- a formula that no parenthesis closes is no factor either
      rcases rest with _ | ⟨c, rest⟩
      · rfl
      · by_cases hc : c = ')'
        · subst hc
          rfl
        · simp [attempt, bind, Except.bind, Except.map, throw, throwThe, MonadExceptOf.throw, hc]
  · rename_i hp
    split
    · rename_i t ht
      exact absurd ht (hp t)
    · rfl

/-- A factor depends on what is read inside parentheses for shorter texts only. -/
theorem readWith_congr (h : ∀ t, t.length < s.length → inside t = inside' t) :
    readWith inside s = readWith inside' s := by
  apply Reader.eq_of_run_eq
  rw [run_readWith, run_readWith]
  split
  · rename_i t ht
    have hlt := Text.length_lt_of_skipBlanks_eq_cons ht
    rw [Reader.run_eq_run_iff.mpr (h t hlt)]
  · rfl

end Factor

/-- A chain depends on what is read for its own text and shorter ones only. -/
theorem Chain.read_congr {ω α β : Type} [Operator ω β] {p q : Reader α} {s : List Char}
    (h : ∀ t, t.length ≤ s.length → p t = q t) :
    (Chain.read p : Reader (Chain ω α)) s = (Chain.read q : Reader (Chain ω α)) s := by
  -- by the length of the text: behind an operand and an operator less of it is left
  apply Reader.eq_of_run_eq
  induction hn : s.length using Nat.strong_induction_on generalizing s with
  | _ n ih =>
    rw [Chain.run_read, Chain.run_read, Reader.run_eq_run_iff.mpr (h s (Nat.le_refl _))]
    cases hq : q.run s with
    | error f => rfl
    | ok r =>
      obtain ⟨a, s₁⟩ := r
      simp only
      cases ho : (Operator.read : Reader ω).run s₁ with
      | error f => rfl
      | ok r =>
        obtain ⟨o, s₂⟩ := r
        have h₁ := Reader.length_lt_of_run hq
        have h₂ := Reader.length_lt_of_run ho
        simp only
        rw [ih s₂.length (by omega) (fun t ht => h t (by omega)) rfl]

/-! ## The reader without a limit -/

namespace Factor

/-- Reads a factor, however many parentheses are open at once. What stands between parentheses is
shorter than the text, so the fault of the guard is never met (`readFreely_eq`). -/
def readFreely (s : List Char) : Except Fault (Reading Factor s) :=
  readWith (Chain.read (Chain.read fun t =>
    if t.length < s.length then readFreely t else .error .tooDeep)) s
termination_by s.length

/-- What stands between parentheses is read by the same reader. -/
theorem readFreely_eq : readFreely = readWith (Chain.read (Chain.read readFreely)) := by
  funext s
  conv => lhs; rw [readFreely]
  -- all that is read inside is shorter, so that the guard is always passed
  apply readWith_congr
  intro t ht
  apply Chain.read_congr
  intro u hu
  apply Chain.read_congr
  intro v hv
  rw [if_pos (by omega)]

/-- There is one reader that reads what stands between parentheses by itself. -/
theorem eq_readFreely_iff {r : Reader Factor} :
    r = readWith (Chain.read (Chain.read r)) ↔ r = readFreely := by
  constructor
  · intro hr
    funext s
    -- by the length of the text, since only shorter ones are read inside
    induction hn : s.length using Nat.strong_induction_on generalizing s with
    | _ n ih =>
      rw [hr, readFreely_eq]
      apply readWith_congr
      intro t ht
      apply Chain.read_congr
      intro u hu
      apply Chain.read_congr
      intro v hv
      exact ih v.length (by omega) v rfl
  · rintro rfl
    exact readFreely_eq

end Factor

/-- Reads a term, however many parentheses are open at once. -/
def Term.readFreely : Reader Term :=
  Chain.read Factor.readFreely

/-- Reads a formula, however many parentheses are open at once. -/
def Formula.readFreely : Reader Formula :=
  Chain.read Term.readFreely

/-- Reads a whole formula rule, however many parentheses are open at once. -/
def Formula.readRuleFreely (s : List Char) : Except Fault (Formula × String) :=
  match formulaLabel? s with
  | some (label, rest) => do
    let formula ← Formula.readFreely.complete rest
    return (formula, label)
  | none => throw (.mismatch s .formulaClause)

/-! ## How deep it goes -/

/-- Where a factor is read freely, some number of parentheses are open at once. -/
inductive Factor.Opens : List Char → Nat → Prop where
  | none {s : List Char} : Factor.Opens s 0
  | inside {s t u v : List Char} {n : Nat} :
      Text.skipBlanks s = '(' :: t → Chain.Tries Additive Term.readFreely t u →
      Chain.Tries Multiplicative Factor.readFreely u v → Factor.Opens v n → Factor.Opens s (n + 1)

/-- Where a term is read freely, some number of parentheses are open at once. -/
def Term.Opens (s : List Char) (n : Nat) : Prop :=
  ∃ t, Chain.Tries Multiplicative Factor.readFreely s t ∧ Factor.Opens t n

/-- Where a formula is read freely, some number of parentheses are open at once. -/
def Formula.Opens (s : List Char) (n : Nat) : Prop :=
  ∃ t, Chain.Tries Additive Term.readFreely s t ∧ Term.Opens t n

/-- Where a formula rule is read freely, some number of parentheses are open at once. -/
def Formula.OpensRule (s : List Char) (n : Nat) : Prop :=
  ∃ label body, formulaLabel? s = some (label, body) ∧ Formula.Opens body n

theorem Factor.opens_succ_iff {s : List Char} {n : Nat} :
    Factor.Opens s (n + 1) ↔ ∃ t, Text.skipBlanks s = '(' :: t ∧ Formula.Opens t n := by
  constructor
  · intro h
    cases h with
    | inside hp hu hv ho => exact ⟨_, hp, _, hu, _, hv, ho⟩
  · rintro ⟨t, hp, u, hu, v, hv, ho⟩
    exact .inside hp hu hv ho

/-- Parentheses in a row are open at once, whether or not they are closed. -/
theorem Factor.opens_replicate (n : Nat) (s : List Char) :
    Factor.Opens (List.replicate n '(' ++ s) n := by
  induction n with
  | zero => exact .none
  | succ n ih =>
    rw [Factor.opens_succ_iff]
    exact ⟨List.replicate n '(' ++ s, rfl, _, .head, _, .head, ih⟩

end Rulebook
