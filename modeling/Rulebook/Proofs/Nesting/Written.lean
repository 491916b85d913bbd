import Rulebook.Proofs.Formula.Written
import Rulebook.Proofs.Nesting.Reduction

/-!
# Written formulas within the limit on parentheses

The texts that the limited readers take are those of the grammar whose formulas nest no more
parentheses than the limit allows: `Factor.WritesWithin`, and the chains of it.
-/

namespace Rulebook

open Text

/-! ## Parts with a property -/

section Parts

variable {ω α β : Type} [Operator ω β] {writes : List Char → α → Prop} {P : α → Prop}
  {w : List Char}

theorem Chain.writesTail_and_iff {tail : List (ω × α)} :
    WritesTail (fun w a => writes w a ∧ P a) w tail ↔
      WritesTail writes w tail ∧ ∀ p ∈ tail, P p.2 := by
  constructor
  · intro h
    induction h with
    | nil => exact ⟨.nil, fun p hp => absurd hp List.not_mem_nil⟩
    | cons ha _ ih => exact ⟨.cons ha.1 ih.1, List.forall_mem_cons.mpr ⟨ha.2, ih.2⟩⟩
  · rintro ⟨h, hP⟩
    induction h with
    | nil => exact .nil
    | cons ha _ ih =>
      obtain ⟨hPa, hPtail⟩ := List.forall_mem_cons.mp hP
      exact .cons ⟨ha, hPa⟩ (ih hPtail)

/-- A chain is written in operands with a property if it is written and its operands have it. -/
theorem Chain.writes_and_iff {c : Chain ω α} :
    Writes (fun w a => writes w a ∧ P a) w c ↔ Writes writes w c ∧ ∀ a ∈ c.operands, P a := by
  rw [operands, List.forall_mem_cons, List.forall_mem_map]
  constructor
  · rintro ⟨hhead, htail⟩
    obtain ⟨hwrites, hP⟩ := writesTail_and_iff.mp htail
    exact ⟨.mk hhead.1 hwrites, hhead.2, hP⟩
  · rintro ⟨⟨hhead, htail⟩, hPhead, hPtail⟩
    exact .mk ⟨hhead, hPhead⟩ (writesTail_and_iff.mpr ⟨htail, hPtail⟩)

end Parts

/-! ## Within the limit -/

/-- A text that writes a factor with no more parentheses nested than the limit allows. -/
def Factor.WritesWithin (limit : Nat) (w : List Char) (f : Factor) : Prop :=
  Factor.Writes w f ∧ f.nesting ≤ limit

/-- A text that writes a term within the limit. -/
def Term.WritesWithin (limit : Nat) (w : List Char) (t : Term) : Prop :=
  Chain.Writes (Factor.WritesWithin limit) w t

/-- A text that writes a formula within the limit. -/
def Formula.WritesWithin (limit : Nat) (w : List Char) (e : Formula) : Prop :=
  Chain.Writes (Term.WritesWithin limit) w e

theorem Term.writesWithin_iff {limit : Nat} {w : List Char} {t : Term} :
    Term.WritesWithin limit w t ↔ Term.Writes w t ∧ t.nesting ≤ limit := by
  unfold Term.nesting
  rw [Chain.most_le_iff]
  exact Chain.writes_and_iff

/-- A formula is within the limit if no more parentheses are nested in it. -/
theorem Formula.writesWithin_iff {limit : Nat} {w : List Char} {e : Formula} :
    Formula.WritesWithin limit w e ↔ Formula.Writes w e ∧ e.nesting ≤ limit := by
  have hterm : Term.WritesWithin limit = fun w t => Term.Writes w t ∧ t.nesting ≤ limit := by
    funext w t
    exact propext Term.writesWithin_iff
  unfold Formula.WritesWithin Formula.nesting
  rw [hterm, Chain.most_le_iff]
  exact Chain.writes_and_iff

/-! ## The limited readers -/

namespace Factor

variable {limit : Nat} {s rest : List Char} {f : Factor}

/-- In a leaf nothing is nested. -/
theorem nesting_of_run_readLeaf (h : Reader.run readLeaf s = .ok (f, rest)) : f.nesting = 0 := by
  obtain ⟨x, t, -, rfl, -⟩ | ⟨w, t, -, rfl, -⟩ := run_readLeaf_ok h
  · rfl
  · rfl

/-- A factor is read as it is written within the limit, if the formulas between parentheses are
read as they are written with one level less. -/
theorem takesWritten_readWith {inside : Reader Formula} {writes : List Char → Formula → Prop}
    (hin : inside.TakesWritten writes [')'])
    (hwrites : ∀ v e, writes v e ↔ Formula.Writes v e ∧ e.nesting < limit) :
    (readWith inside).TakesWritten (WritesWithin limit) closers where
  writes_of_run := by
    intro s rest f hr
    obtain ⟨w, hw, hs⟩ := writes_of_run_readWith (fun t e u _ he => by
      obtain ⟨v, hv, ht⟩ := hin.writes_of_run he
      exact ⟨v, ((hwrites v e).mp hv).1, ht⟩) hr
    refine ⟨w, ⟨hw, ?_⟩, hs⟩
    obtain ⟨t, e, u, -, hinside, rfl, -⟩ | hleaf := run_readWith_ok hr
    · obtain ⟨v, hv, -⟩ := hin.writes_of_run hinside
      have hlt := ((hwrites v e).mp hv).2
      rw [nesting_parens]
      omega
    · rw [nesting_of_run_readLeaf hleaf]
      exact Nat.zero_le limit
  stops_of_run hr := stops_of_run_readWith hr
  run_append := by
    intro w s f hw hs
    obtain ⟨hw, hle⟩ := hw
    apply run_readWith_append ?_ hw hs
    rintro e v u rfl hv
    rw [nesting_parens] at hle
    have hwritten : writes v e := (hwrites v e).mpr ⟨hv, by omega⟩
    exact hin.run_append hwritten (endsAt_cons.mpr (by decide))

/-- The limited reader of factors takes the factors within the limit. -/
theorem takesWritten_read (limit : Nat) :
    (Factor.read limit).TakesWritten (WritesWithin limit) closers := by
  induction limit with
  | zero =>
    -- no formula can be read between parentheses, and none is nested less than not at all
    have hnone : Reader.TakesWritten (fun _ => .error .tooDeep)
        (fun (_ : List Char) (_ : Formula) => False) [')'] := ⟨nofun, nofun, nofun⟩
    exact takesWritten_readWith hnone fun v e => by simp
  | succ limit ih =>
    have hin := Formula.takesWritten (Term.takesWritten ih)
    refine takesWritten_readWith hin fun v e => ?_
    rw [Nat.lt_succ_iff]
    exact Formula.writesWithin_iff

end Factor

theorem Term.takesWritten_read (limit : Nat) :
    (Term.read limit).TakesWritten (Term.WritesWithin limit) Term.closers :=
  Term.takesWritten (Factor.takesWritten_read limit)

/-- The limited reader of formulas takes the formulas within the limit. -/
theorem Formula.takesWritten_read (limit : Nat) :
    (Formula.read limit).TakesWritten (Formula.WritesWithin limit) [')'] :=
  Formula.takesWritten (Term.takesWritten_read limit)

/-- A whole text is read exactly if it writes the formula within the limit. -/
theorem Formula.complete_read_iff {limit : Nat} {s : List Char} {e : Formula} :
    (Formula.read limit).complete s = .ok e ↔ Formula.WritesWithin limit s e :=
  (Formula.takesWritten_read limit).complete_eq_ok_iff

end Rulebook
