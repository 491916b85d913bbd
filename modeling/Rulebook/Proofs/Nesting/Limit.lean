import Rulebook.Proofs.Nesting.Unlimited

/-!
# Reading with a limit on parentheses

A limited reader reports nesting too deep for exactly the texts past the limit, and is the reader
without a limit on all others (`Reader.Limits`). The property passes from the operands of a chain to
the chain, and from what stands between parentheses to the factor; the repetition of a chain and the
fallback behind a failed parenthesis turn mismatches into something else, never the limit.
-/

namespace Rulebook

/-- The first outcome is the second one, but for texts past a limit, which are too deep. -/
structure LimitedOutcome {α : Type} (limited free : Except Fault α) (past : Prop) : Prop where
  tooDeep_iff : limited = .error .tooDeep ↔ past
  eq_free : ¬ past → limited = free
  free_ne_tooDeep : free ≠ .error .tooDeep

theorem LimitedOutcome.map {α β : Type} {limited free : Except Fault α} {past : Prop}
    (h : LimitedOutcome limited free past) (f : α → β) :
    LimitedOutcome (limited.map f) (free.map f) past := by
  refine ⟨?_, fun hpast => by rw [h.eq_free hpast], ?_⟩
  · rw [← h.tooDeep_iff]
    cases limited <;> simp [Except.map]
  · have hfree := h.free_ne_tooDeep
    cases free with
    | error fault => simpa [Except.map] using hfree
    | ok a => simp [Except.map]

/-- The first reader is the second one with a limit, past which some texts go. -/
def Reader.Limits {α : Type} (limited free : Reader α) (past : List Char → Prop) : Prop :=
  ∀ s, LimitedOutcome (limited.run s) (free.run s) (past s)

/-- A limit on a reader is one on the whole texts that it reads. -/
theorem Reader.Limits.complete {α : Type} {limited free : Reader α} {past : List Char → Prop}
    (h : Reader.Limits limited free past) (s : List Char) :
    LimitedOutcome (limited.complete s) (free.complete s) (past s) := by
  rw [Reader.complete_eq, Reader.complete_eq]
  refine ⟨?_, fun hs => by rw [(h s).eq_free hs], ?_⟩
  · rw [← (h s).tooDeep_iff]
    cases limited.run s with
    | error f => simp
    | ok r =>
      simp only [reduceCtorEq, iff_false]
      split <;> simp
  · have hfree := (h s).free_ne_tooDeep
    cases hr : free.run s with
    | error f => simpa [hr] using hfree
    | ok r =>
      simp only
      split <;> simp

/-! ## Chains -/

namespace Chain

variable {ω α β : Type} [Operator ω β] {p q : Reader α} {past : List Char → Prop}

/-- At one text: either an operand is tried past the limit and the chain is too deep, or none is
and the chain is that of the free reader. -/
theorem run_read_of_limits (h : Reader.Limits p q past) (s : List Char) :
    ((∃ t, Tries ω q s t ∧ past t) ∧
      (Chain.read p : Reader (Chain ω α)).run s = .error .tooDeep) ∨
    ((¬ ∃ t, Tries ω q s t ∧ past t) ∧
      (Chain.read p : Reader (Chain ω α)).run s = (Chain.read q : Reader (Chain ω α)).run s) := by
  induction hn : s.length using Nat.strong_induction_on generalizing s with
  | _ n ih =>
    by_cases hs : past s
    · -- the head itself is past the limit
      refine .inl ⟨⟨s, .head, hs⟩, ?_⟩
      rw [run_read, (h s).tooDeep_iff.mpr hs]
    · rw [run_read p, run_read q, (h s).eq_free hs]
      cases hq : q.run s with
      | error f =>
        -- the head is missed by both readers, and nothing else is tried
        refine .inr ⟨?_, rfl⟩
        rintro ⟨t, ht, hpast⟩
        cases ht with
        | head => exact hs hpast
        | next hok _ _ => simp [hq] at hok
      | ok r =>
        obtain ⟨a, s₁⟩ := r
        simp only
        cases ho : (Operator.read : Reader ω).run s₁ with
        | error f =>
          -- no operator follows, so the head is all that is tried
          refine .inr ⟨?_, rfl⟩
          rintro ⟨t, ht, hpast⟩
          cases ht with
          | head => exact hs hpast
          | next hok hop _ =>
            obtain ⟨-, rfl⟩ := Prod.mk.inj (Except.ok.inj (hq.symm.trans hok))
            simp [ho] at hop
        | ok r =>
          obtain ⟨o, s₂⟩ := r
          have h₁ := Reader.length_lt_of_run hq
          have h₂ := Reader.length_lt_of_run ho
          simp only
          -- a chain follows, which is tried wherever it stands
          rcases ih s₂.length (by omega) s₂ rfl with ⟨⟨t, ht, hpast⟩, hdeep⟩ | ⟨hnone, heq⟩
          · refine .inl ⟨⟨t, .next hq ho ht, hpast⟩, ?_⟩
            rw [hdeep]
          · refine .inr ⟨?_, by rw [heq]⟩
            rintro ⟨t, ht, hpast⟩
            cases ht with
            | head => exact hs hpast
            | next hok hop htries =>
              obtain ⟨-, rfl⟩ := Prod.mk.inj (Except.ok.inj (hq.symm.trans hok))
              obtain ⟨-, rfl⟩ := Prod.mk.inj (Except.ok.inj (ho.symm.trans hop))
              exact hnone ⟨t, htries, hpast⟩

/-- A limit on the operands is a limit on the chain: past it go the texts in which an operand past
it is tried. -/
theorem limits (h : Reader.Limits p q past) :
    Reader.Limits (Chain.read p : Reader (Chain ω α)) (Chain.read q)
      fun s => ∃ t, Tries ω q s t ∧ past t := by
  intro s
  have hfree : (Chain.read q : Reader (Chain ω α)).run s ≠ .error .tooDeep :=
    run_read_ne_tooDeep fun t _ => (h t).free_ne_tooDeep
  rcases run_read_of_limits (ω := ω) h s with ⟨hpast, hdeep⟩ | ⟨hnone, heq⟩
  · exact ⟨iff_of_true hdeep hpast, fun hs => absurd hpast hs, hfree⟩
  · exact ⟨iff_of_false (heq ▸ hfree) hnone, fun _ => heq, hfree⟩

end Chain

/-! ## Factors -/

namespace Factor

theorem run_readLeaf_ne_tooDeep (s : List Char) : Reader.run readLeaf s ≠ .error .tooDeep := by
  intro h
  have h := Reader.run_eq_error_iff.mp h
  unfold readLeaf at h
  split at h
  · simp at h
  · split at h <;> simp at h

/-- A factor is too deep only where what stands between its parentheses is. -/
theorem run_readWith_ne_tooDeep {inside : Reader Formula} {s : List Char}
    (h : ∀ t, t.length < s.length → inside.run t ≠ .error .tooDeep) :
    (readWith inside).run s ≠ .error .tooDeep := by
  rw [run_readWith]
  split
  · rename_i t ht
    have hlt := Text.length_lt_of_skipBlanks_eq_cons ht
    have hinside := h t hlt
    split
    · simp
    · contradiction
    · simp
  · exact run_readLeaf_ne_tooDeep s

/-- A limit on what stands between parentheses is a limit on the factor: past it go the texts that
begin with a parenthesis behind which a text past it follows. -/
theorem limits_readWith {inside free : Reader Formula} {past : List Char → Prop}
    (h : Reader.Limits inside free past) :
    Reader.Limits (readWith inside) (readWith free)
      fun s => ∃ t, Text.skipBlanks s = '(' :: t ∧ past t := by
  intro s
  have hfree : (readWith free).run s ≠ .error .tooDeep :=
    run_readWith_ne_tooDeep fun t _ => (h t).free_ne_tooDeep
  have heq : ¬ (∃ t, Text.skipBlanks s = '(' :: t ∧ past t) →
      (readWith inside).run s = (readWith free).run s := by
    intro hs
    rw [run_readWith, run_readWith]
    split
    · rename_i t ht
      rw [(h t).eq_free fun hpast => hs ⟨t, ht, hpast⟩]
    · rfl
  refine ⟨⟨fun hdeep => ?_, ?_⟩, heq, hfree⟩
  · -- too deep it can only be where it differs from the free reader
    by_contra hs
    exact hfree ((heq hs).symm.trans hdeep)
  · rintro ⟨t, ht, hpast⟩
    simp only [run_readWith, ht, (h t).tooDeep_iff.mpr hpast]

/-- A reader that always reports nesting too deep is any free reader with every text past the
limit. -/
theorem limits_tooDeep {free : Reader Formula} (hfree : ∀ s, free.run s ≠ .error .tooDeep) :
    Reader.Limits (fun _ => .error .tooDeep) free fun _ => True :=
  fun s => ⟨iff_of_true rfl trivial, fun h => absurd trivial h, hfree s⟩

theorem run_readFreely_ne_tooDeep (s : List Char) :
    Reader.run readFreely s ≠ .error .tooDeep := by
  -- by the length of the text, through the two chains between a factor and those inside
  induction hn : s.length using Nat.strong_induction_on generalizing s with
  | _ n ih =>
    rw [readFreely_eq]
    apply run_readWith_ne_tooDeep
    intro t ht
    apply Chain.run_read_ne_tooDeep
    intro u hu
    apply Chain.run_read_ne_tooDeep
    intro v hv
    exact ih v.length (by omega) v rfl

end Factor

theorem Term.run_readFreely_ne_tooDeep (s : List Char) :
    Term.readFreely.run s ≠ .error .tooDeep :=
  Chain.run_read_ne_tooDeep fun t _ => Factor.run_readFreely_ne_tooDeep t

theorem Formula.run_readFreely_ne_tooDeep (s : List Char) :
    Formula.readFreely.run s ≠ .error .tooDeep :=
  Chain.run_read_ne_tooDeep fun t _ => Term.run_readFreely_ne_tooDeep t

/-! ## The three levels -/

/-- The limit on factors: past it go the texts with more parentheses open at once. -/
theorem Factor.limits_read (limit : Nat) :
    Reader.Limits (Factor.read limit) Factor.readFreely fun s => Factor.Opens s (limit + 1) := by
  induction limit with
  | zero =>
    -- no level is left, so any parenthesis is one too many
    have h := limits_readWith (limits_tooDeep Formula.run_readFreely_ne_tooDeep)
    have hpast : (fun s => Factor.Opens s (0 + 1)) =
        fun s => ∃ t, Text.skipBlanks s = '(' :: t ∧ True := by
      funext s
      rw [Factor.opens_succ_iff]
      simp only [and_true, eq_iff_iff]
      exact exists_congr fun t => and_iff_left ⟨t, .head, t, .head, .none⟩
    rw [hpast, Factor.readFreely_eq]
    exact h
  | succ limit ih =>
    -- one level is used up by the parenthesis, the others are left for what stands inside
    have h := limits_readWith (Chain.limits (ω := Additive) (Chain.limits (ω := Multiplicative) ih))
    have hpast : (fun s => Factor.Opens s (limit + 1 + 1)) = fun s =>
        ∃ t, Text.skipBlanks s = '(' :: t ∧ Formula.Opens t (limit + 1) := by
      funext s
      rw [Factor.opens_succ_iff]
    rw [hpast, Factor.readFreely_eq]
    exact h

/-- The limit on terms. -/
theorem Term.limits_read (limit : Nat) :
    Reader.Limits (Term.read limit) Term.readFreely fun s => Term.Opens s (limit + 1) :=
  Chain.limits (Factor.limits_read limit)

/-- The limit on formulas. -/
theorem Formula.limits_read (limit : Nat) :
    Reader.Limits (Formula.read limit) Formula.readFreely fun s => Formula.Opens s (limit + 1) :=
  Chain.limits (Term.limits_read limit)

/-! ## Rules -/

/-- The limit on formula rules is the one on their formulas. -/
theorem Formula.limitedOutcome_readRule (limit : Nat) (s : List Char) :
    LimitedOutcome (Formula.readRule limit s) (Formula.readRuleFreely s)
      (Formula.OpensRule s (limit + 1)) := by
  unfold Formula.readRule Formula.readRuleFreely Formula.OpensRule
  cases hl : formulaLabel? s with
  | none => constructor <;> simp [throw, throwThe, MonadExceptOf.throw]
  | some r =>
    obtain ⟨label, body⟩ := r
    have hpast : (∃ l b, some (label, body) = some (l, b) ∧ Formula.Opens b (limit + 1)) ↔
        Formula.Opens body (limit + 1) := by
      constructor
      · rintro ⟨_, _, heq, h⟩
        obtain ⟨rfl, rfl⟩ := Prod.mk.inj (Option.some.inj heq)
        exact h
      · exact fun h => ⟨label, body, rfl, h⟩
    rw [hpast]
    exact ((Formula.limits_read limit).complete body).map fun e => (e, label)

end Rulebook
