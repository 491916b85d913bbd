import Mathlib.Data.List.Nodup
import Rulebook.Proofs.Report.Shadowed

/-!
# What the warnings of a report promise

A report knows nothing of bindings, and solving knows nothing of the report. Main statement: solving
ends without a formula for a label exactly if that label wins and the report has it among the labels
without formula; the report warns of nothing exactly if it has found nothing, and of nothing twice;
so in a store without warnings every label that wins has one formula, which is the one that is used.
-/

namespace Rulebook

/-! ## Labels without formula -/

namespace Store

variable [Limits] {store : Store} {truths : Bindings Bool} {numbers : Bindings Float}
  {label : String}

/-- One way to an outcome only ends in a label without formula. -/
theorem Solves.eq_noSolution {r : Except SolveError Solution} (h : Solves store truths numbers r)
    (hr : r = .error (.noSolution (some label))) :
    (∃ matcher, Wins store truths matcher ∧ matcher.label = label) ∧
      ∀ formula ∈ store.formulas, formula.label ≠ label := by
  cases h with
  | noMatcher => simp at hr
  | matcherFails _ _ => exact absurd (Except.error.inj hr) (solveError_ne_noSolution _ _ _)
  | @noFormula i matcher hi htrue hnone =>
    obtain rfl : matcher.label = label := by simpa using hr
    exact ⟨⟨matcher, ⟨i, hi, htrue⟩, rfl⟩, hnone⟩
  | value _ _ _ _ => simp at hr
  | formulaFails _ _ _ _ => exact absurd (Except.error.inj hr) (solveError_ne_noSolution _ _ _)

/-- There is no formula for a label exactly if the label wins and none requires it. -/
theorem solve_eq_noSolution_iff :
    store.solve truths numbers = .error (.noSolution (some label)) ↔
      (∃ matcher, Wins store truths matcher ∧ matcher.label = label) ∧
        ∀ formula ∈ store.formulas, formula.label ≠ label := by
  constructor
  · intro h
    obtain ⟨r, hr⟩ := exists_solves store truths numbers
    exact hr.eq_noSolution (hr.solve_eq.symm.trans h)
  · rintro ⟨⟨matcher, ⟨i, hi, htrue⟩, rfl⟩, hnone⟩
    exact (Solves.noFormula hi htrue hnone).solve_eq

end Store

/-! ## Warnings -/

namespace Report

variable {warning : Warning} {warnings more : List Warning} {store : Store}

theorem mem_foldl_addWarning_iff :
    warning ∈ more.foldl addWarning warnings ↔ warning ∈ warnings ∨ warning ∈ more := by
  induction more generalizing warnings with
  | nil => simp
  | cons first more ih =>
    rw [List.foldl_cons, ih, List.mem_cons, addWarning]
    split
    · rename_i hmem
      constructor
      · rintro (h | h)
        · exact .inl h
        · exact .inr (.inr h)
      · rintro (h | rfl | h)
        · exact .inl h
        · exact .inl hmem
        · exact .inr h
    · rw [List.mem_append, List.mem_singleton, or_assoc]

/-- One more warning is none that has been given. -/
theorem nodup_addWarning (h : warnings.Nodup) : (addWarning warnings warning).Nodup := by
  unfold addWarning
  split
  · exact h
  · rename_i hnew
    exact List.nodup_append.mpr ⟨h, List.nodup_singleton warning, fun a ha b hb hab =>
      hnew (List.mem_singleton.mp hb ▸ hab ▸ ha)⟩

theorem nodup_foldl_addWarning (h : warnings.Nodup) : (more.foldl addWarning warnings).Nodup := by
  induction more generalizing warnings with
  | nil => exact h
  | cons first more ih => exact ih (nodup_addWarning h)

theorem mem_warnings_iff :
    warning ∈ (ofStore store).warnings ↔
      (warning = .withoutFormula (ofStore store).labelsWithoutFormula ∧
        (ofStore store).labelsWithoutFormula ≠ []) ∨
      (warning = .withoutMatcher (ofStore store).labelsWithoutMatcher ∧
        (ofStore store).labelsWithoutMatcher ≠ []) ∨
      ∃ text ∈ (ofStore store).shadowedFormulas, warning = .shadowed text := by
  have habout : ∀ (about : List String → Warning) (labels : List String),
      warning ∈ aboutLabels about labels ↔ warning = about labels ∧ labels ≠ [] := by
    intro about labels
    cases labels <;> simp [aboutLabels]
  show warning ∈ List.foldl addWarning [] _ ↔ _
  rw [mem_foldl_addWarning_iff, List.mem_append, List.mem_append, habout, habout, List.mem_map,
    or_assoc]
  simp only [List.not_mem_nil, false_or, @eq_comm _ (Warning.shadowed _) warning]
  rfl

/-- Nothing is warned of exactly if nothing has been found. -/
theorem warnings_eq_nil_iff :
    (ofStore store).warnings = [] ↔
      (ofStore store).labelsWithoutFormula = [] ∧ (ofStore store).labelsWithoutMatcher = [] ∧
        (ofStore store).shadowedFormulas = [] := by
  rw [List.eq_nil_iff_forall_not_mem]
  simp only [mem_warnings_iff]
  constructor
  · intro h
    refine ⟨?_, ?_, ?_⟩
    · by_contra hne
      exact h _ (.inl ⟨rfl, hne⟩)
    · by_contra hne
      exact h _ (.inr (.inl ⟨rfl, hne⟩))
    · rw [List.eq_nil_iff_forall_not_mem]
      exact fun text htext => h _ (.inr (.inr ⟨text, htext, rfl⟩))
  · rintro ⟨hformula, hmatcher, hshadowed⟩ warning (⟨-, hne⟩ | ⟨-, hne⟩ | ⟨text, htext, -⟩)
    · exact hne hformula
    · exact hne hmatcher
    · rw [hshadowed] at htext
      exact List.not_mem_nil htext

/-- The first letter of a warning tells its kind. -/
theorem head?_message (warning : Warning) :
    warning.message.toList.head? =
      match warning with
      | .withoutFormula _ => some 'L'
      | .withoutMatcher _ => some 'F'
      | .shadowed _ => some 'S' := by
  unfold Warning.message
  cases warning <;> simp only [String.toList_append] <;> rfl

/-- Two warnings of one report with the same text are the same: of each kind about labels there is
one at most, and those about formulas go on with the text of the formula. -/
theorem eq_of_message_eq {first second : Warning} (hfirst : first ∈ (ofStore store).warnings)
    (hsecond : second ∈ (ofStore store).warnings) (h : first.message = second.message) :
    first = second := by
  have hhead : first.message.toList.head? = second.message.toList.head? := by rw [h]
  rw [head?_message, head?_message] at hhead
  rcases mem_warnings_iff.mp hfirst with ⟨rfl, -⟩ | ⟨rfl, -⟩ | ⟨text, -, rfl⟩ <;>
    rcases mem_warnings_iff.mp hsecond with ⟨rfl, -⟩ | ⟨rfl, -⟩ | ⟨text', -, rfl⟩ <;>
    simp at hhead ⊢
  exact (String.append_right_inj _).mp h

theorem nodup_messages (store : Store) : ((ofStore store).warnings.map Warning.message).Nodup :=
  (nodup_foldl_addWarning List.nodup_nil).map_on fun _ hfirst _ hsecond =>
    eq_of_message_eq hfirst hsecond

/-! ## Stores without warnings -/

/-- No rule is shadowed exactly if every label is there once. -/
theorem shadowed_eq_nil_iff {ε : Type} (rules : List (Rule ε)) :
    shadowed rules = [] ↔ (rules.map (·.label)).Nodup := by
  induction rules with
  | nil => simp [shadowed, repeated]
  | cons rule rules ih =>
    rw [shadowed_cons, List.map_cons, List.nodup_cons]
    by_cases h : rule.label ∈ rules.map (·.label)
    · rw [if_pos h]
      exact iff_of_false (List.cons_ne_nil _ _) fun hnodup => hnodup.1 h
    · rw [if_neg h, ih]
      exact ⟨fun hnodup => ⟨h, hnodup⟩, And.right⟩

/-- Rules with each label once are at one index if they have one label. -/
theorem index_eq_of_label_eq {ε : Type} {rules : List (Rule ε)}
    (hnodup : (rules.map (·.label)).Nodup) {i j : Nat} {rule other : Rule ε}
    (hi : rules[i]? = some rule) (hj : rules[j]? = some other) (h : other.label = rule.label) :
    j = i := by
  have hlt : j < (rules.map (·.label)).length := by
    rw [List.length_map]
    exact (List.getElem?_eq_some_iff.mp hj).1
  apply (List.getElem?_inj hlt hnodup).mp
  rw [List.getElem?_map, List.getElem?_map, hi, hj]
  exact congrArg some h

/-- What a report predicts. Solving finds no formula for a label exactly if a matcher with this
label wins and the report has the label among those without formula, whatever the numbers are. The
report has no warnings exactly if it has found nothing, and no two with the same text. So where it
has none, a label that wins is never without formula, and the formula that is used for it is the
only one that requires it. -/
theorem warnings_predict_missing_formulas [Limits] (store : Store) :
    (∀ truths numbers label,
      store.solve truths numbers = .error (.noSolution (some label)) ↔
        (∃ matcher, store.Wins truths matcher ∧ matcher.label = label) ∧
          label ∈ (ofStore store).labelsWithoutFormula) ∧
      ((ofStore store).warnings = [] ↔
        (ofStore store).labelsWithoutFormula = [] ∧ (ofStore store).labelsWithoutMatcher = [] ∧
          (ofStore store).shadowedFormulas = []) ∧
      ((ofStore store).warnings.map Warning.message).Nodup ∧
      ((ofStore store).warnings = [] → ∀ truths,
        (∀ numbers label, store.solve truths numbers ≠ .error (.noSolution (some label))) ∧
          ∀ matcher, store.Wins truths matcher → ∃ (k : Nat) (formula : Rule Formula),
            store.formula? matcher.label = some formula ∧ store.formulas[k]? = some formula ∧
              formula.label = matcher.label ∧ ∀ j (other : Rule Formula),
                store.formulas[j]? = some other → other.label = matcher.label → j = k) := by
  have hmissing : ∀ truths numbers label,
      store.solve truths numbers = .error (.noSolution (some label)) ↔
        (∃ matcher, store.Wins truths matcher ∧ matcher.label = label) ∧
          label ∈ (ofStore store).labelsWithoutFormula := by
    intro truths numbers label
    rw [Store.solve_eq_noSolution_iff, mem_labelsWithoutFormula_iff]
    constructor
    · rintro ⟨⟨matcher, hwins, rfl⟩, hnone⟩
      exact ⟨⟨matcher, hwins, rfl⟩, ⟨matcher, hwins.mem, rfl⟩, hnone⟩
    · rintro ⟨hwins, -, hnone⟩
      exact ⟨hwins, hnone⟩
  refine ⟨hmissing, warnings_eq_nil_iff, nodup_messages store, fun hclean truths => ?_⟩
  obtain ⟨hformulas, -, hshadowed⟩ := warnings_eq_nil_iff.mp hclean
  refine ⟨fun numbers label h => ?_, fun matcher hwins => ?_⟩
  · have hmem := ((hmissing truths numbers label).mp h).2
    rw [hformulas] at hmem
    exact List.not_mem_nil hmem
  · have hnodup : (store.formulas.map (·.label)).Nodup :=
      (shadowed_eq_nil_iff _).mp (List.map_eq_nil_iff.mp hshadowed)
    cases hfound : store.formula? matcher.label with
    | none =>
      -- then the label of the matcher would be among those without formula
      have hmem : matcher.label ∈ (ofStore store).labelsWithoutFormula :=
        mem_labelsWithoutFormula_iff.mpr
          ⟨⟨matcher, hwins.mem, rfl⟩, Store.formula?_eq_none_iff.mp hfound⟩
      rw [hformulas] at hmem
      exact absurd hmem List.not_mem_nil
    | some formula =>
      obtain ⟨k, hk, hlabel, -⟩ := Store.formula?_eq_some_iff.mp hfound
      exact ⟨k, formula, rfl, hk, hlabel, fun j other hj hother =>
        index_eq_of_label_eq hnodup hk hj (hother.trans hlabel.symm)⟩

end Report

end Rulebook
