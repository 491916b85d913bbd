import Rulebook.Proofs.Formula.Rule
import Rulebook.Proofs.Matcher.Rule
import Rulebook.Proofs.Nesting.Written

/-!
# Prefixes that reading takes

Reading takes a chain off the front of a text as far as one goes. Main statement: what is taken is
read alone to the same chain, and the rest cannot be gone on with, since behind every operator in
front of it no operand follows. So the error of a text with something behind its expression names
the rest of the text, and what stands in front of that is accepted by itself.

A pair that is given up may have been read a long way before it failed. That the rest is at its
operator all the same is the end of `Chain.run_read_ok`; that nothing read in front of it depended
on what follows is `Reader.TakesWritten`.
-/

namespace Rulebook

open Text

variable {ω α β : Type}

/-! ## Chains -/

/-- A chain is taken off the front of a text as far as it goes. What is taken is not empty and reads
to the same chain alone; the rest begins with no blank; and whatever operator the rest begins with,
no operand follows it. -/
structure Chain.TakesPrefix [Operator ω β] (operand : Reader α) (s : List Char) (c : Chain ω α)
    (rest : List Char) : Prop where
  alone : ∃ w, w ≠ [] ∧ s = w ++ rest ∧
    (Chain.read operand : Reader (Chain ω α)).run w = .ok (c, [])
  stops : Stops isBlank rest
  ends : ∀ (o : ω) (t : List Char), rest = (Operator.token o).toList ++ t →
    ∃ u x, operand.run t = .error (.mismatch u x)

theorem Chain.takesPrefix_of_run [Operator ω β] {operand : Reader α}
    {writes : List Char → Chain ω α → Prop} {closers s rest : List Char} {c : Chain ω α}
    (h : (Chain.read operand : Reader (Chain ω α)).TakesWritten writes closers)
    (hop : Operator.Readable ω)
    (hr : (Chain.read operand : Reader (Chain ω α)).run s = .ok (c, rest)) :
    TakesPrefix operand s c rest where
  alone := by
    obtain ⟨w, hne, hs, hw, -⟩ := h.exists_prefix hr
    exact ⟨w, hne, hs, hw⟩
  stops := h.stops_of_run hr
  ends := by
    rintro o t rfl
    exact mismatch_behind hr (hop o t)

/-! ## Whole texts -/

/-- Behind a prefix that is accepted as a whole text, something else than blanks is left. -/
def Reader.LeavesOver (p : Reader α) (s rest : List Char) : Prop :=
  ∃ w a, s = w ++ rest ∧ p.run s = .ok (a, rest) ∧ p.complete w = .ok a ∧
    ∃ c ∈ rest, isBlank c = false

/-- The end of a text is expected only where a value is read and something is left. -/
theorem Reader.TakesWritten.leavesOver {p : Reader α} {writes : List Char → α → Prop}
    {closers s : List Char} {fault : Fault} (h : p.TakesWritten writes closers)
    (hrun : ∀ f, p.run s = .error f → f.expected ≠ .endOfExpression)
    (hc : p.complete s = .error fault) (hexpected : fault.expected = .endOfExpression) :
    ∃ rest, fault.toParseError s = ⟨.ofChars rest, .endOfExpression⟩ ∧ p.LeavesOver s rest := by
  rw [Reader.complete_eq] at hc
  cases hr : p.run s with
  | error f =>
    -- nothing is read, and then it is not the end that is missed
    simp only [hr, Except.error.injEq] at hc
    exact absurd (hc ▸ hexpected) (hrun f hr)
  | ok r =>
    obtain ⟨a, rest⟩ := r
    simp only [hr] at hc
    split at hc
    · simp at hc
    · rename_i hblank
      obtain rfl := Except.error.inj hc
      obtain ⟨w, -, hs, -, hw⟩ := h.exists_prefix hr
      exact ⟨rest, rfl, w, a, hs, hr, hw, by simpa using hblank⟩

/-- A matcher that is missed is missed at its first literal. -/
theorem Matcher.expected_of_run {s : List Char} {f : Fault} (h : Matcher.read.run s = .error f) :
    f.expected ≠ .endOfExpression := by
  rw [run_read_eq_error h]
  simp [Fault.expected]

/-- A formula that is missed is missed at its first factor, or it is too deep. -/
theorem Formula.expected_of_run {limit : Nat} {s : List Char} {f : Fault}
    (h : (Formula.read limit).run s = .error f) : f.expected ≠ .endOfExpression := by
  cases f with
  | tooDeep => simp [Fault.expected]
  | mismatch t x =>
    have hfactor := Chain.run_read_mismatch_iff.mp (Chain.run_read_mismatch_iff.mp h)
    -- at the limit only the reader inside of parentheses differs
    have hx : x = .factor := by
      cases limit with
      | zero => exact (mismatch_of_run_readWith hfactor).2
      | succ limit => exact (mismatch_of_run_readWith hfactor).2
    simp [Fault.expected, hx]

/-! ## The three levels -/

/-- Matchers, terms and formulas are taken off the front of a text as far as they go, whatever the
limit on parentheses is. If a whole text is not accepted for what stands behind its expression, the
error names that rest, which is not blank, and the text in front of it is accepted with the
expression that was read. -/
theorem reading_takes_maximal_prefix :
    (∀ s m rest, Matcher.read.run s = .ok (m, rest) →
      Chain.TakesPrefix Literal.read s m rest) ∧
    (∀ limit s t rest, (Term.read limit).run s = .ok (t, rest) →
      Chain.TakesPrefix (Factor.read limit) s t rest) ∧
    (∀ limit s e rest, (Formula.read limit).run s = .ok (e, rest) →
      Chain.TakesPrefix (Term.read limit) s e rest) ∧
    (∀ s fault, Matcher.read.complete s = .error fault → fault.expected = .endOfExpression →
      ∃ rest, fault.toParseError s = ⟨.ofChars rest, .endOfExpression⟩ ∧
        Matcher.read.LeavesOver s rest) ∧
    ∀ limit s fault, (Formula.read limit).complete s = .error fault →
      fault.expected = .endOfExpression →
      ∃ rest, fault.toParseError s = ⟨.ofChars rest, .endOfExpression⟩ ∧
        (Formula.read limit).LeavesOver s rest := by
  refine ⟨fun s m rest h => ?_, fun limit s t rest h => ?_, fun limit s e rest h => ?_,
    fun s fault hc hx => ?_, fun limit s fault hc hx => ?_⟩
  · exact Chain.takesPrefix_of_run Matcher.takesWritten_read Connective.readable h
  · exact Chain.takesPrefix_of_run (Term.takesWritten_read limit) Multiplicative.readable h
  · exact Chain.takesPrefix_of_run (Formula.takesWritten_read limit) Additive.readable h
  · exact Matcher.takesWritten_read.leavesOver (fun _ => Matcher.expected_of_run) hc hx
  · exact (Formula.takesWritten_read limit).leavesOver (fun _ => Formula.expected_of_run) hc hx

/-- Parentheses that are not closed are given up with the operator in front of them. -/
theorem reading_takes_maximal_prefix_unclosed :
    (Formula.read 1).run "D+(E".toList = .ok (⟨⟨.var "D", []⟩, []⟩, "+(E".toList) ∧
      Chain.TakesPrefix (Term.read 1) "D+(E".toList (⟨⟨.var "D", []⟩, []⟩ : Formula)
        "+(E".toList := by
  have hrun : (Formula.read 1).run "D+(E".toList =
      .ok (⟨⟨.var "D", []⟩, []⟩, "+(E".toList) := by with_unfolding_all rfl
  exact ⟨hrun, reading_takes_maximal_prefix.2.2.1 1 _ _ _ hrun⟩

end Rulebook
