import Rulebook.Proofs.Nesting.Limit
import Rulebook.Proofs.Nesting.Parentheses
import Rulebook.Rule

/-!
# The texts of formula rules

A formula rule is a clause `H = <LABEL> => K =` and a formula. Main statement: a text whose
parentheses are not nested past the limit is read as a rule exactly if it writes that rule, and is
a mismatch otherwise; there is one formula at most that a text writes.
-/

namespace Rulebook

open Text

/-! ## The clause -/

/-- A text that writes the clause `H = <LABEL> => K =` for a label. -/
inductive Formula.WritesClause : List Char → List Char → Prop where
  | mk {b₁ b₂ b₃ b₄ b₅ b₆ label : List Char} : Blanks b₁ → Blanks b₂ → Blanks b₃ → Word label →
      Blanks b₄ → Blanks b₅ → Blanks b₆ →
      Formula.WritesClause (b₁ ++ ("H".toList ++ (b₂ ++ ("=".toList ++ (b₃ ++ (label ++
        (b₄ ++ ("=>".toList ++ (b₅ ++ ("K".toList ++ (b₆ ++ "=".toList))))))))))) label

/-- A text that writes a formula rule: the clause, and the formula up to the end. -/
inductive Formula.WritesRule : List Char → Formula → String → Prop where
  | mk {clause body label : List Char} {e : Formula} :
      Formula.WritesClause clause label → Formula.Writes body e →
      Formula.WritesRule (clause ++ body) e (String.ofList label)

namespace Formula

variable {s clause body w : List Char} {label : String} {e : Formula} {limit : Nat}

/-- The clause is found exactly where it is written, and the body behind it. -/
theorem formulaLabel?_eq_some_iff :
    formulaLabel? s = some (label, body) ↔
      ∃ clause w, WritesClause clause w ∧ label = String.ofList w ∧ s = clause ++ body := by
  constructor
  · intro h
    simp only [formulaLabel?, Option.bind_eq_bind, Option.bind_eq_some_iff] at h
    obtain ⟨s₁, h₁, s₂, h₂, ⟨w, s₃⟩, h₃, s₄, h₄, s₅, h₅, s₆, h₆, h₇⟩ := h
    obtain ⟨b₁, hb₁, rfl⟩ := (dropToken?_skipBlanks_iff rfl (by decide)).mp h₁
    obtain ⟨b₂, hb₂, rfl⟩ := (dropToken?_skipBlanks_iff rfl (by decide)).mp h₂
    obtain ⟨b₃, hb₃, hw, -, rfl⟩ := takeWord?_skipBlanks_iff.mp h₃
    obtain ⟨b₄, hb₄, rfl⟩ := (dropToken?_skipBlanks_iff rfl (by decide)).mp h₄
    obtain ⟨b₅, hb₅, rfl⟩ := (dropToken?_skipBlanks_iff rfl (by decide)).mp h₅
    obtain ⟨b₆, hb₆, rfl⟩ := (dropToken?_skipBlanks_iff rfl (by decide)).mp h₆
    obtain ⟨rfl, rfl⟩ := Prod.mk.inj (Option.some.inj h₇)
    exact ⟨_, w, .mk hb₁ hb₂ hb₃ hw hb₄ hb₅ hb₆, rfl, by simp⟩
  · rintro ⟨clause, w, ⟨hb₁, hb₂, hb₃, hw, hb₄, hb₅, hb₆⟩, rfl, rfl⟩
    rename_i b₁ b₂ b₃ b₄ b₅ b₆
    -- behind the label come blanks and the arrow, so the label ends there
    have hstop : ∀ t, Stops Char.isAlpha (b₄ ++ ("=>".toList ++ t)) := fun t =>
      hb₄.stops (fun _ => isBlank_eq_false_of_isAlpha) (stops_cons.mpr (by decide))
    simp only [List.append_assoc, formulaLabel?, Option.bind_eq_bind, Option.bind_eq_some_iff]
    exact ⟨_, (dropToken?_skipBlanks_iff rfl (by decide)).mpr ⟨b₁, hb₁, rfl⟩,
      _, (dropToken?_skipBlanks_iff rfl (by decide)).mpr ⟨b₂, hb₂, rfl⟩,
      _, takeWord?_skipBlanks_iff.mpr ⟨b₃, hb₃, hw, hstop _, rfl⟩,
      _, (dropToken?_skipBlanks_iff rfl (by decide)).mpr ⟨b₄, hb₄, rfl⟩,
      _, (dropToken?_skipBlanks_iff rfl (by decide)).mpr ⟨b₅, hb₅, rfl⟩,
      _, (dropToken?_skipBlanks_iff rfl (by decide)).mpr ⟨b₆, hb₆, rfl⟩, rfl⟩

/-- There are no parentheses in the clause. -/
theorem WritesClause.flat (h : WritesClause clause w) : Flat clause := by
  obtain ⟨hb₁, hb₂, hb₃, hw, hb₄, hb₅, hb₆⟩ := h
  simp only [flat_append]
  exact ⟨hb₁.flat, by decide, hb₂.flat, by decide, hb₃.flat, hw.flat, hb₄.flat, by decide,
    hb₅.flat, by decide, hb₆.flat, by decide⟩

/-! ## Mismatches -/

/-- A factor that does not stand there is missed at the text itself. -/
theorem mismatch_of_run_readWith {inside : Reader Formula} {t : List Char} {x : Expectation}
    (h : (Factor.readWith inside).run s = .error (.mismatch t x)) : t = s ∧ x = .factor := by
  rw [Factor.run_readWith] at h
  split at h
  · split at h
    · simp at h
    · simp at h
    · obtain ⟨rfl, rfl⟩ := Fault.mismatch.inj (Except.error.inj h)
      exact ⟨rfl, rfl⟩
  · rw [Factor.run_readLeaf] at h
    split at h
    · simp at h
    · split at h
      · simp at h
      · obtain ⟨rfl, rfl⟩ := Fault.mismatch.inj (Except.error.inj h)
        exact ⟨rfl, rfl⟩

/-- So is a formula, whose first factor it is. -/
theorem mismatch_of_run_readFreely {t : List Char} {x : Expectation}
    (h : Formula.readFreely.run s = .error (.mismatch t x)) : t = s ∧ x = .factor := by
  have h := Chain.run_read_mismatch_iff.mp (Chain.run_read_mismatch_iff.mp h)
  rw [Factor.readFreely_eq] at h
  exact mismatch_of_run_readWith h

/-- What may be expected of a rule that is read without a limit. -/
theorem expected_of_readRuleFreely {f : Fault} (h : readRuleFreely s = .error f) :
    f.expected ∈ [Expectation.formulaClause, .factor, .endOfExpression] := by
  unfold readRuleFreely at h
  cases hl : formulaLabel? s with
  | none =>
    simp only [hl, throw, throwThe, MonadExceptOf.throw, Except.error.injEq] at h
    subst h
    simp [Fault.expected]
  | some r =>
    obtain ⟨label, body⟩ := r
    simp only [hl] at h
    rw [Reader.complete_eq] at h
    cases hr : Formula.readFreely.run body with
    | error fault =>
      -- the formula is missed at its first factor
      simp only [hr, bind, Except.bind, Except.error.injEq] at h
      subst h
      cases fault with
      | mismatch t x =>
        obtain ⟨-, rfl⟩ := mismatch_of_run_readFreely hr
        simp [Fault.expected]
      | tooDeep => exact absurd hr (Formula.run_readFreely_ne_tooDeep body)
    | ok r =>
      -- a formula is read, but something stands behind it
      simp only [hr] at h
      split at h
      · simp [bind, Except.bind, pure, Except.pure] at h
      · simp only [bind, Except.bind, Except.error.injEq] at h
        subst h
        simp [Fault.expected]

/-! ## Reading rules -/

/-- A whole rule is read without a limit exactly if the text writes it. -/
theorem readRuleFreely_eq_ok_iff :
    readRuleFreely s = .ok (e, label) ↔ WritesRule s e label := by
  unfold readRuleFreely
  constructor
  · intro h
    cases hl : formulaLabel? s with
    | none => simp [hl, throw, throwThe, MonadExceptOf.throw] at h
    | some r =>
      obtain ⟨l, body⟩ := r
      simp only [hl] at h
      cases hc : Formula.readFreely.complete body with
      | error f => simp [hc, bind, Except.bind] at h
      | ok d =>
        simp only [hc, bind, Except.bind, pure, Except.pure, Except.ok.injEq, Prod.mk.injEq] at h
        obtain ⟨rfl, rfl⟩ := h
        obtain ⟨clause, w, hclause, rfl, rfl⟩ := formulaLabel?_eq_some_iff.mp hl
        exact .mk hclause (complete_readFreely_iff.mp hc)
  · rintro ⟨hclause, hbody⟩
    simp only [formulaLabel?_eq_some_iff.mpr ⟨_, _, hclause, rfl, rfl⟩,
      complete_readFreely_iff.mpr hbody]
    rfl

/-- A rule opens no more parentheses at once than its text. -/
theorem not_opensRule_of_nesting_le (h : Text.nesting s ≤ limit) : ¬ OpensRule s (limit + 1) := by
  rintro ⟨label, body, hl, hopens⟩
  obtain ⟨clause, w, hclause, -, rfl⟩ := formulaLabel?_eq_some_iff.mp hl
  have hpass : Text.nesting body ≤ Text.nesting (clause ++ body) := hclause.flat.passes 0 body
  have hle := hopens.le_nesting
  omega

/-- The language of formula rules. A text whose parentheses are not nested past the limit is read
as a rule exactly if it writes the rule; every other such text is a mismatch; and no text writes two
formulas. -/
theorem readRule_eq_ok_iff_writesRule (limit : Nat) (s : List Char) (h : Text.nesting s ≤ limit) :
    (∀ e label, readRule limit s = .ok (e, label) ↔ WritesRule s e label) ∧
      ((¬ ∃ e label, WritesRule s e label) →
        ∃ rest expected, readRule limit s = .error (.mismatch rest expected)) ∧
      ∀ body d e, Writes body d → Writes body e → d = e := by
  have hlimit := limitedOutcome_readRule limit s
  have hfree := hlimit.eq_free (not_opensRule_of_nesting_le h)
  have hiff : ∀ e label, readRule limit s = .ok (e, label) ↔ WritesRule s e label := by
    intro e label
    rw [hfree]
    exact readRuleFreely_eq_ok_iff
  refine ⟨hiff, fun hnone => ?_, fun body d e hd he => hd.unique he⟩
  -- what is not read is a mismatch, since within the limit nothing is too deep
  cases hr : readRule limit s with
  | ok r => exact absurd ⟨r.1, r.2, (hiff r.1 r.2).mp hr⟩ hnone
  | error f =>
    cases f with
    | mismatch rest expected => exact ⟨rest, expected, rfl⟩
    | tooDeep => exact absurd (hfree.symm.trans hr) hlimit.free_ne_tooDeep

/-- One pair of parentheses is within a limit of one. -/
theorem readRule_one_pair :
    Text.nesting "H = P => K = (D + 1) * 2".toList ≤ 1 ∧
      ∀ e label, readRule 1 "H = P => K = (D + 1) * 2".toList = .ok (e, label) ↔
        WritesRule "H = P => K = (D + 1) * 2".toList e label :=
  ⟨by decide, (readRule_eq_ok_iff_writesRule 1 _ (by decide)).1⟩

end Formula

end Rulebook
