import Rulebook.Proofs.Formula.Rule
import Rulebook.Proofs.Matcher.Written
import Rulebook.Proofs.Nesting.Reduction
import Rulebook.Proofs.Store.Adding
import Rulebook.Store.Solve

/-!
# Stores and the limit on parentheses

What a store does where nothing is ever nested too deep: `addFreely` and `solveFreely`. Main
statement: the limit never changes a meaning. A text past the limit is rejected as a whole, and the
store stays as it was; every other text is added as without a limit. Solving gives the outcome
without a limit, or names the rule that is nested past it.
-/

namespace Rulebook

open Text

namespace Store

variable {store : Store} {text : RawText} {more : List RawText}

/-! ## Adding -/

/-- Reads a text as a matcher rule, else as a formula rule, however many parentheses are open. -/
def Entry.ofTextFreely (text : RawText) : Except ParseError Entry :=
  match Matcher.readRule text.chars with
  | .ok (m, label) => .ok (.matcher ⟨m, label, text.legible⟩)
  | .error _ =>
    match Formula.readRuleFreely text.chars with
    | .ok (e, label) => .ok (.formula ⟨e, label, text.legible⟩)
    | .error fault => .error ⟨text, fault.expected⟩

/-- Adds the rule that a text writes, however many parentheses are open. -/
def addFreely (store : Store) (text : RawText) : Except ParseError Store :=
  (Entry.ofTextFreely text).map store.push

/-- Without a limit no text is rejected for its nesting. -/
theorem Entry.ofTextFreely_ne (text t : RawText) :
    Entry.ofTextFreely text ≠ .error ⟨t, .shallowerNesting⟩ := by
  unfold Entry.ofTextFreely
  cases Matcher.readRule text.chars with
  | ok r => simp
  | error f =>
    cases hr : Formula.readRuleFreely text.chars with
    | ok r => simp
    | error fault =>
      intro h
      -- one of three things is expected, and shallower nesting is none of them
      have hhint := Formula.expected_of_readRuleFreely hr
      simp only [Except.error.injEq, ParseError.mk.injEq] at h
      rw [h.2] at hhint
      exact absurd hhint (by decide)

theorem addFreely_ne (store : Store) (text t : RawText) :
    store.addFreely text ≠ .error ⟨t, .shallowerNesting⟩ := by
  have h := Entry.ofTextFreely_ne text t
  unfold Store.addFreely
  cases hentry : Entry.ofTextFreely text with
  | ok entry => simp [Except.map]
  | error e => simpa [hentry, Except.map] using h

variable [Limits]

/-- The text of a formula rule in which more parentheses are open at once than the limit allows. -/
def TooDeep (text : RawText) : Prop :=
  Formula.OpensRule text.chars (nestingLimit + 1)

/-- A matcher rule has no parentheses, so that it is never too deep. -/
theorem not_tooDeep_of_matcher {r : Matcher × String} (h : Matcher.readRule text.chars = .ok r) :
    ¬ TooDeep text := by
  have hflat := (Matcher.writesRule_of_readRule h).flat
  apply Formula.not_opensRule_of_nesting_le
  rw [nesting_eq_zero hflat.1]
  exact Nat.zero_le nestingLimit

/-- A text past the limit is rejected. -/
theorem Entry.ofText_of_tooDeep (h : TooDeep text) :
    Entry.ofText text = .error ⟨text, .shallowerNesting⟩ := by
  unfold Entry.ofText
  cases hm : Matcher.readRule text.chars with
  | ok r => exact absurd h (not_tooDeep_of_matcher hm)
  | error f =>
    simp only [(Formula.limitedOutcome_readRule nestingLimit text.chars).tooDeep_iff.mpr h]
    rfl

/-- Any other text is read as without a limit. -/
theorem Entry.ofText_of_not_tooDeep (h : ¬ TooDeep text) :
    Entry.ofText text = Entry.ofTextFreely text := by
  have hfree := (Formula.limitedOutcome_readRule nestingLimit text.chars).eq_free h
  unfold Entry.ofText Entry.ofTextFreely
  cases Matcher.readRule text.chars with
  | ok r => rfl
  | error f =>
    -- no matcher rule, so it depends on the formula rule, which is read alike
    cases hr : Formula.readRuleFreely text.chars <;> simp only [hfree, hr]

/-- Adding a text past the limit fails. -/
theorem add_of_tooDeep (h : TooDeep text) :
    store.add text = .error ⟨text, .shallowerNesting⟩ := by
  unfold Store.add
  rw [Entry.ofText_of_tooDeep h]
  rfl

/-- Any other text is added as without a limit. -/
theorem add_of_not_tooDeep (h : ¬ TooDeep text) : store.add text = store.addFreely text := by
  unfold Store.add Store.addFreely
  rw [Entry.ofText_of_not_tooDeep h]

/-- The base rules are all there where two parentheses may be open at once. -/
theorem addAll_baseTexts (h : 2 ≤ nestingLimit) : empty.addAll baseTexts = (base, none) := by
  have hfree : ∀ text ∈ baseTexts,
      nesting text.chars ≤ 2 ∧ (Entry.ofTextFreely text).isOk = true := by decide +kernel
  have hreads : ∀ text ∈ baseTexts, (Entry.ofText text).isOk := by
    intro text htext
    obtain ⟨hnesting, hok⟩ := hfree text htext
    have hshallow : ¬ TooDeep text :=
      Formula.not_opensRule_of_nesting_le (hnesting.trans h)
    rw [Entry.ofText_of_not_tooDeep hshallow]
    exact hok
  obtain ⟨entries, hentries⟩ := exists_reads_iff.mpr hreads
  unfold base
  rw [addAll_of_reads hentries]

/-! ## Solving -/

/-- The solution of a store, however many parentheses its formulas nest. -/
def solveFreely (store : Store) (truths : Bindings Bool) (numbers : Bindings Float) :
    Except SolveError Solution := do
  let label ← store.label truths
  match store.formula? label with
  | none => throw (.noSolution (some label))
  | some rule =>
    match rule.expression.reduceFreely numbers with
    | .ok value => return ⟨label, value⟩
    | .error fault => throw (rule.solveError fault)

/-- A solution is that without a limit, or the formula that is picked is nested past the limit and
too deep. -/
theorem solve_eq_or (store : Store) (truths : Bindings Bool) (numbers : Bindings Float) :
    store.solve truths numbers = store.solveFreely truths numbers ∨
      ∃ label rule, store.label truths = .ok label ∧ store.formula? label = some rule ∧
        nestingLimit < rule.expression.nesting ∧
        store.solve truths numbers = .error (.parse ⟨rule.text, .shallowerNesting⟩) := by
  unfold Store.solve Store.solveFreely
  cases hl : store.label truths with
  | error e => exact .inl rfl
  | ok label =>
    simp only [bind, Except.bind]
    cases hf : store.formula? label with
    | none => exact .inl rfl
    | some rule =>
      -- the same rule is picked, so that only reducing it can make a difference
      unfold Store.value
      rcases rule.expression.reduce_eq_or numbers nestingLimit with heq | ⟨hdeep, hlt⟩
      · left
        simp only [heq]
        cases rule.expression.reduceFreely numbers <;> rfl
      · exact .inr ⟨label, rule, rfl, hf, hlt, by simp only [hdeep]; rfl⟩

end Store

/-! ## The limit never changes a meaning -/

/-- For every limit, the limited readers of factors, terms, formulas, whole formulas and rules
report nesting too deep exactly where the reader without a limit opens more parentheses at once, and
give its outcome everywhere else. The reader without a limit is the only one that reads what stands
between parentheses by itself; parentheses in a row are open at once, closed or not, and a text that
nests no more of them than the limit, such as one without any, stays within it. A store rejects the
texts past its limit and stays as it was, and solving gives the outcome without a limit or the error
of the formula that is picked. -/
theorem nestingLimit_preserves_meaning [Limits] :
    (∀ r : Reader Factor,
      r = Factor.readWith (Chain.read (Chain.read r)) ↔ r = Factor.readFreely) ∧
    (∀ limit,
      Reader.Limits (Factor.read limit) Factor.readFreely (Factor.Opens · (limit + 1)) ∧
      Reader.Limits (Term.read limit) Term.readFreely (Term.Opens · (limit + 1)) ∧
      Reader.Limits (Formula.read limit) Formula.readFreely (Formula.Opens · (limit + 1))) ∧
    (∀ limit s,
      LimitedOutcome ((Formula.read limit).complete s) (Formula.readFreely.complete s)
        (Formula.Opens s (limit + 1)) ∧
      LimitedOutcome (Formula.readRule limit s) (Formula.readRuleFreely s)
        (Formula.OpensRule s (limit + 1)) ∧
      (Formula.read limit).complete (List.replicate (limit + 1) '(' ++ s) = .error .tooDeep ∧
      (Text.nesting s ≤ limit →
        ¬ Formula.Opens s (limit + 1) ∧ ¬ Formula.OpensRule s (limit + 1)) ∧
      ('(' ∉ s → Text.nesting s = 0)) ∧
    (∀ (store : Store) (text : RawText) (more : List RawText),
      (Store.TooDeep text →
        store.add text = .error ⟨text, .shallowerNesting⟩ ∧
        store.addAll (text :: more) = (store, some ⟨text, .shallowerNesting⟩)) ∧
      (¬ Store.TooDeep text → store.add text = store.addFreely text) ∧
      store.addFreely text ≠ .error ⟨text, .shallowerNesting⟩) ∧
    (∀ bindings limit (e : Formula),
      (e.reduce bindings limit = e.reduceFreely bindings ∨
        (e.reduce bindings limit = .error .tooDeep ∧ limit < e.nesting)) ∧
      e.reduceFreely bindings ≠ .error .tooDeep) ∧
    ∀ (store : Store) truths numbers,
      store.solve truths numbers = store.solveFreely truths numbers ∨
        ∃ label rule, store.label truths = .ok label ∧ store.formula? label = some rule ∧
          nestingLimit < rule.expression.nesting ∧
          store.solve truths numbers = .error (.parse ⟨rule.text, .shallowerNesting⟩) := by
  refine ⟨fun r => Factor.eq_readFreely_iff, fun limit => ?_, fun limit s => ?_,
    fun store text more => ?_, fun bindings limit e => ?_, Store.solve_eq_or⟩
  · exact ⟨Factor.limits_read limit, Term.limits_read limit, Formula.limits_read limit⟩
  · refine ⟨(Formula.limits_read limit).complete s, Formula.limitedOutcome_readRule limit s, ?_,
      fun hs => ⟨fun ho => ?_, Formula.not_opensRule_of_nesting_le hs⟩, nesting_eq_zero⟩
    · have hopens : Formula.Opens (List.replicate (limit + 1) '(' ++ s) (limit + 1) :=
        ⟨_, .head, _, .head, Factor.opens_replicate (limit + 1) s⟩
      exact ((Formula.limits_read limit).complete _).tooDeep_iff.mpr hopens
    · have hle := ho.le_nesting
      omega
  · refine ⟨fun h => ?_, Store.add_of_not_tooDeep, store.addFreely_ne text text⟩
    have hadd : store.add text = .error ⟨text, .shallowerNesting⟩ := Store.add_of_tooDeep h
    exact ⟨hadd, Store.addAll_of_error hadd⟩
  · exact ⟨e.reduce_eq_or bindings limit, e.reduceFreely_ne_tooDeep bindings⟩

end Rulebook
