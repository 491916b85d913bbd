import Rulebook.Proofs.Expression.Reads
import Rulebook.Proofs.Store.Outcome
import Rulebook.Report

/-!
# The variables of a report

A report counts the variables of all matchers and of all formulas. Main statement: these are all
that solving depends on, each kind in its own bindings; and a variable that solving misses is one of
them without a value.
-/

namespace Rulebook

namespace Store

variable {store : Store} {truths truths' : Bindings Bool} {numbers numbers' : Bindings Float}
  {rules : List (Rule Matcher)} {name : String}

theorem solveError_eq_undefinedVariable {ε : Type} {rule : Rule ε} {fault : ReduceFault}
    (h : rule.solveError fault = .undefinedVariable name) : fault = .undefinedVariable name := by
  cases fault with
  | undefinedVariable other => exact congrArg _ (SolveError.undefinedVariable.inj h)
  | tooDeep => exact SolveError.noConfusion h

/-! ## The label -/

theorem firstLabel_congr
    (h : ∀ rule ∈ rules, Bindings.AgreeOn rule.expression.names truths truths') :
    firstLabel truths rules = firstLabel truths' rules := by
  induction rules with
  | nil => rfl
  | cons rule rules ih =>
    have hrule := rule.expression.readsOnly.congr (h rule List.mem_cons_self)
    have hrest := ih fun other hmem => h other (List.mem_cons_of_mem rule hmem)
    rw [firstLabel, firstLabel, hrule, hrest]

theorem undefined_of_firstLabel (h : firstLabel truths rules = .error (.undefinedVariable name)) :
    (∃ rule ∈ rules, name ∈ rule.expression.names) ∧ truths name = none := by
  induction rules with
  | nil => simp [firstLabel] at h
  | cons rule rules ih =>
    rw [firstLabel] at h
    split at h
    · simp at h
    · obtain ⟨⟨other, hmem, hname⟩, hnone⟩ := ih h
      exact ⟨⟨other, List.mem_cons_of_mem rule hmem, hname⟩, hnone⟩
    · rename_i fault hfault
      -- the first rule that fails decides, and it misses one of its own names
      obtain rfl := solveError_eq_undefinedVariable (Except.error.inj h)
      obtain ⟨hname, hnone⟩ := rule.expression.readsOnly.undefined hfault
      exact ⟨⟨rule, List.mem_cons_self, hname⟩, hnone⟩

/-! ## The outcome -/

theorem mem_of_formula? {label : String} {formula : Rule Formula}
    (h : store.formula? label = some formula) : formula ∈ store.formulas :=
  List.mem_reverse.mp (List.mem_of_find?_eq_some h)

variable [Limits]

theorem solve_congr_of_agreeOn
    (htruths : ∀ matcher ∈ store.matchers, Bindings.AgreeOn matcher.expression.names truths truths')
    (hnumbers : ∀ formula ∈ store.formulas,
      Bindings.AgreeOn formula.expression.names numbers numbers') :
    store.solve truths numbers = store.solve truths' numbers' := by
  have hlabel : store.label truths = store.label truths' :=
    firstLabel_congr fun matcher hmem => htruths matcher (List.mem_reverse.mp hmem)
  cases hl : store.label truths with
  | error e => rw [solve_of_label_error hl, solve_of_label_error (hlabel.symm.trans hl)]
  | ok label =>
    rw [solve_of_label_ok hl, solve_of_label_ok (hlabel.symm.trans hl)]
    cases hf : store.formula? label with
    | none => rfl
    | some formula =>
      have hvalue := (formula.expression.readsOnly nestingLimit).congr
        (hnumbers formula (mem_of_formula? hf))
      simp only [hvalue]

theorem undefined_of_solve (h : store.solve truths numbers = .error (.undefinedVariable name)) :
    ((∃ matcher ∈ store.matchers, name ∈ matcher.expression.names) ∧ truths name = none) ∨
      (∃ formula ∈ store.formulas, name ∈ formula.expression.names) ∧ numbers name = none := by
  cases hl : store.label truths with
  | error e =>
    rw [solve_of_label_error hl] at h
    obtain rfl := Except.error.inj h
    obtain ⟨⟨matcher, hmem, hname⟩, hnone⟩ := undefined_of_firstLabel hl
    exact .inl ⟨⟨matcher, List.mem_reverse.mp hmem, hname⟩, hnone⟩
  | ok label =>
    rw [solve_of_label_ok hl] at h
    cases hf : store.formula? label with
    | none => simp [hf] at h
    | some formula =>
      cases hvalue : formula.expression.reduce numbers nestingLimit with
      | ok x => simp [hf, hvalue] at h
      | error fault =>
        simp only [hf, hvalue] at h
        obtain rfl := solveError_eq_undefinedVariable (Except.error.inj h)
        obtain ⟨hname, hnone⟩ := (formula.expression.readsOnly nestingLimit).undefined hvalue
        exact .inr ⟨⟨formula, mem_of_formula? hf, hname⟩, hnone⟩

end Store

namespace Report

/-- The variables of a report are the only inputs. Bindings that agree on them give the same
outcome; where all of them have values, no variable is undefined; and one that is undefined is a
variable of the matchers without a truth value or one of the formulas without a number. -/
theorem solve_reads_only_usage [Limits] (store : Store) :
    (∀ truths truths' numbers numbers',
      Bindings.AgreeOn (ofStore store).truthNames truths truths' →
      Bindings.AgreeOn (ofStore store).numberNames numbers numbers' →
      store.solve truths numbers = store.solve truths' numbers') ∧
    (∀ truths numbers, (∀ name ∈ (ofStore store).truthNames, truths name ≠ none) →
      (∀ name ∈ (ofStore store).numberNames, numbers name ≠ none) →
      ∀ name, store.solve truths numbers ≠ .error (.undefinedVariable name)) ∧
    ∀ truths numbers name, store.solve truths numbers = .error (.undefinedVariable name) →
      (name ∈ (ofStore store).truthNames ∧ truths name = none) ∨
        (name ∈ (ofStore store).numberNames ∧ numbers name = none) := by
  have hundefined : ∀ truths numbers name,
      store.solve truths numbers = .error (.undefinedVariable name) →
        (name ∈ (ofStore store).truthNames ∧ truths name = none) ∨
          (name ∈ (ofStore store).numberNames ∧ numbers name = none) := by
    intro truths numbers name h
    rw [mem_truthNames_iff, mem_numberNames_iff]
    exact Store.undefined_of_solve h
  refine ⟨fun truths truths' numbers numbers' htruths hnumbers => ?_, ?_, hundefined⟩
  · apply Store.solve_congr_of_agreeOn
    · exact fun matcher hmem => htruths.mono fun name hname =>
        mem_truthNames_iff.mpr ⟨matcher, hmem, hname⟩
    · exact fun formula hmem => hnumbers.mono fun name hname =>
        mem_numberNames_iff.mpr ⟨formula, hmem, hname⟩
  · intro truths numbers htruths hnumbers name h
    rcases hundefined truths numbers name h with ⟨hname, hnone⟩ | ⟨hname, hnone⟩
    · exact htruths name hname hnone
    · exact hnumbers name hname hnone

end Report

end Rulebook
