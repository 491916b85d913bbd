import Rulebook.Proofs.Matcher.Written
import Rulebook.Proofs.Reader.Written

/-!
# The texts of matcher rules

A matcher rule is a matcher and a clause `=> H = <LABEL>`. Main statement: a text is read as a rule
exactly if it writes that rule, and is a mismatch otherwise; there is one rule at most that a text
writes.

The reader of chains is greedy and gives up a pair that is not complete, so that it might stop too
early. It never does on a written matcher: in front of an operator and of the clause no word goes
on (`Literal.run_read_append`), and the clause begins with no operator.
-/

namespace Rulebook

open Text

/-! ## A written literal is read -/

namespace Literal

variable {s w : List Char} {l : Literal} {negation : Bool}

/-- What may follow a literal. -/
def closers : List Char := ['&', '|', '=']

/-- There is one literal only that a word stands for. -/
theorem Denotes.ofWord_eq (h : Denotes negation w l) : ofWord negation w = l := by
  cases h with
  | true => rfl
  | false => rfl
  | var htrue hfalse => exact (if_neg htrue).trans (if_neg hfalse)
  | negated htrue hfalse => exact (if_neg htrue).trans (if_neg hfalse)

/-- A negation is taken off where it stands, and none in front of a word. -/
theorem takeNegation_append (negation : Bool) (hw : Word w) (s : List Char) :
    takeNegation (negationText negation ++ (w ++ s)) = (negation, w ++ s) := by
  obtain ⟨c, u, rfl, hc⟩ := hw.exists_cons
  cases negation with
  | true => rfl
  | false =>
    -- the word begins with a letter, which is no sign of negation
    have hsign : c ≠ '!' := ne_of_member hc (by decide)
    show takeNegation (c :: (u ++ s)) = _
    unfold takeNegation
    split
    · rename_i heq
      exact absurd (List.cons.inj heq).1 hsign
    · rfl

/-- A negated or plain word begins with no blank. -/
theorem stops_negationText (negation : Bool) (hw : Word w) (s : List Char) :
    Stops isBlank (negationText negation ++ (w ++ s)) := by
  obtain ⟨c, u, rfl, hc⟩ := hw.exists_cons
  cases negation with
  | true => exact stops_cons.mpr (by decide)
  | false => exact stops_cons.mpr (isBlank_eq_false_of_isAlpha hc)

/-- A written literal is read back where a literal may end. -/
theorem run_read_append (hw : Literal.Writes w l) (hs : EndsAt closers s) :
    Literal.read.run (w ++ s) = .ok (l, s) := by
  obtain @⟨b, v, b', negation, _, hb, hv, hb', hl⟩ := hw
  have hskip : skipBlanks (b ++ (negationText negation ++ (v ++ b')) ++ s) =
      negationText negation ++ (v ++ (b' ++ s)) := by
    simp only [List.append_assoc]
    exact skipBlanks_append hb (stops_negationText negation hv _)
  -- behind the word come blanks and what may follow a literal, so the word ends there
  have hword : takeWord? (v ++ (b' ++ s)) = some (v, b' ++ s) := by
    apply takeWord?_append hv
    exact hb'.stops (fun _ => isBlank_eq_false_of_isAlpha) (hs.stops (by decide))
  have hrest : skipBlanks (b' ++ s) = s := skipBlanks_append hb' (hs.stops (by decide))
  rw [run_read, hskip, takeNegation_append negation hv]
  simp only [hword, hrest, hl.ofWord_eq]

theorem takesWritten_read : Literal.read.TakesWritten Literal.Writes closers where
  writes_of_run hr := writes_of_run_read hr
  stops_of_run := by
    intro s rest l hr
    rw [run_read] at hr
    split at hr
    · simp at hr
    · rename_i w t _
      obtain ⟨-, rfl⟩ := Prod.mk.inj (Except.ok.inj hr)
      exact stops_skipBlanks t
  run_append hw hs := run_read_append hw hs

end Literal

/-! ## A written matcher is read -/

theorem Connective.readable : Operator.Readable Connective := by
  intro o s
  cases o <;> rfl

theorem Connective.endsAt_token (o : Connective) (s : List Char) :
    EndsAt Literal.closers ((Operator.token o).toList ++ s) := by
  cases o <;> exact endsAt_cons.mpr (by decide)

/-- No matcher goes on in front of a clause. -/
theorem Connective.absent {s : List Char} (h : EndsAt ['='] s) :
    Operator.Absent Connective s := by
  cases s with
  | nil => exact ⟨_, rfl⟩
  | cons c s =>
    obtain rfl := List.mem_singleton.mp (endsAt_cons.mp h)
    exact ⟨_, rfl⟩

namespace Matcher

variable {s w clause v : List Char} {m : Matcher} {label : String}

theorem takesWritten_read : Matcher.read.TakesWritten Matcher.Writes ['='] :=
  Chain.takesWritten Literal.takesWritten_read Connective.readable Connective.endsAt_token
    (by decide) Connective.absent

/-- A whole text is read as a matcher exactly if it writes the matcher. -/
theorem complete_read_iff : Matcher.read.complete s = .ok m ↔ Matcher.Writes s m :=
  takesWritten_read.complete_eq_ok_iff

/-- A written matcher is read back in front of a clause, which begins with no operator. -/
theorem run_read_append (hw : Matcher.Writes w m) (hclause : WritesClause clause v) :
    Matcher.read.run (w ++ clause) = .ok (m, clause) := by
  obtain ⟨_, _, _, _, _⟩ := hclause
  exact takesWritten_read.run_append hw (endsAt_cons.mpr (by decide))

/-- A matcher is missed only at its first literal, which stands in front of the text. -/
theorem run_read_eq_error {f : Fault} (h : Matcher.read.run s = .error f) :
    f = .mismatch s .literal := by
  have hliteral : ∀ t g, Literal.read.run t = .error g → g = .mismatch t .literal := by
    intro t g hg
    rw [Literal.run_read] at hg
    split at hg
    · exact (Except.error.inj hg).symm
    · simp at hg
  cases f with
  | mismatch t x => exact hliteral s _ (Chain.run_read_mismatch_iff.mp h)
  | tooDeep =>
    -- no literal is too deep, so neither is a chain of literals
    refine absurd h (Chain.run_read_ne_tooDeep fun t _ ht => ?_)
    exact Fault.noConfusion (hliteral t _ ht)

/-! ## The clause -/

/-- A written clause is found, with nothing but blanks behind the label. -/
theorem matcherLabel?_of_writesClause (h : WritesClause clause v) :
    matcherLabel? clause = some (String.ofList v) := by
  obtain @⟨b₁, b₂, b₃, b₄, _, hb₁, hb₂, hb₃, hv, hb₄⟩ := h
  have hend : skipBlanks b₄ = [] := by
    have hskip := skipBlanks_append hb₄ stops_nil
    rwa [List.append_nil] at hskip
  have hstop : Stops Char.isAlpha b₄ := by
    have hstops := hb₄.stops (fun _ => isBlank_eq_false_of_isAlpha) stops_nil
    rwa [List.append_nil] at hstops
  simp only [matcherLabel?, Option.bind_eq_bind, Option.bind_eq_some_iff]
  exact ⟨_, dropToken?_append "=>" _,
    _, (dropToken?_skipBlanks_iff rfl (by decide)).mpr ⟨b₁, hb₁, rfl⟩,
    _, (dropToken?_skipBlanks_iff rfl (by decide)).mpr ⟨b₂, hb₂, rfl⟩,
    _, takeWord?_skipBlanks_iff.mpr ⟨b₃, hb₃, hv, hstop, rfl⟩, by simp [hend]⟩

/-! ## Reading rules -/

/-- A rule is a matcher, and behind it the clause. -/
theorem readRule_eq (s : List Char) :
    Matcher.readRule s =
      match Matcher.read.run s with
      | .error f => .error f
      | .ok (m, rest) =>
        match matcherLabel? rest with
        | some label => .ok (m, label)
        | none => .error (.mismatch rest .matcherClause) := by
  unfold Matcher.readRule Reader.run
  cases Matcher.read s with
  | error f => rfl
  | ok r =>
    simp only [bind, Except.bind, Except.map]
    cases matcherLabel? r.rest <;> rfl

/-- A written rule is read. -/
theorem readRule_of_writesRule (h : WritesRule s m label) :
    Matcher.readRule s = .ok (m, label) := by
  obtain ⟨hbody, hclause⟩ := h
  rw [readRule_eq, run_read_append hbody hclause]
  simp only [matcherLabel?_of_writesClause hclause]

/-- The language of matcher rules. A text is read as a rule exactly if it writes the rule; no text
writes two rules; and every text that writes none is a mismatch, be it at its first literal or at a
rest of the text that is no clause. -/
theorem readRule_eq_ok_iff_writes (s : List Char) :
    (∀ m label, Matcher.readRule s = .ok (m, label) ↔ WritesRule s m label) ∧
      (∀ m label m' label', WritesRule s m label → WritesRule s m' label' →
        m = m' ∧ label = label') ∧
      ((¬ ∃ m label, WritesRule s m label) →
        Matcher.readRule s = .error (.mismatch s .literal) ∨
          ∃ rest, rest <:+ s ∧ Matcher.readRule s = .error (.mismatch rest .matcherClause)) := by
  refine ⟨fun m label => ⟨writesRule_of_readRule, readRule_of_writesRule⟩, ?_, fun hnone => ?_⟩
  · intro m label m' label' h h'
    have heq := (readRule_of_writesRule h).symm.trans (readRule_of_writesRule h')
    exact Prod.mk.inj (Except.ok.inj heq)
  · rw [readRule_eq]
    cases hr : Matcher.read.run s with
    | error f =>
      obtain rfl := run_read_eq_error hr
      exact .inl rfl
    | ok r =>
      obtain ⟨m, rest⟩ := r
      obtain ⟨w, -, hs⟩ := writes_of_run_read hr
      cases hl : matcherLabel? rest with
      | none => exact .inr ⟨rest, ⟨w, hs.symm⟩, by simp only [hl]⟩
      | some label =>
        -- a matcher and a clause would make the text a rule
        refine absurd ⟨m, label, writesRule_of_readRule ?_⟩ hnone
        rw [readRule_eq, hr]
        simp only [hl]

/-- A word is a constant only as a whole, and a negated constant is the other one. -/
example : Matcher.readRule "!true && trueish => H = M ".toList =
    .ok (⟨.const false, [(.and, .var "trueish")]⟩, "M") := by cbv

end Matcher

end Rulebook
