import Rulebook.Proofs.Store.Adding
import Rulebook.Proofs.Store.Outcome
import Rulebook.Service

/-!
# Layers of rules

Texts that are added to a store put a layer of rules on it, which is the store that they give by
themselves. Main statement: the label and the formula that are picked come from the upper layer if
it picks one, else from the lower one. A matcher that fails counts as a pick, so that what lies
below it is not looked at.
-/

namespace Rulebook

namespace Store

/-! ## Putting a layer on a store -/

/-- The rules of the upper store behind those of the lower one. -/
instance : Append Store where
  append lower upper :=
    ⟨lower.matchers ++ upper.matchers, lower.formulas ++ upper.formulas⟩

variable {store lower upper : Store} {truths : Bindings Bool} {numbers : Bindings Float}

@[simp]
theorem matchers_append (lower upper : Store) :
    (lower ++ upper).matchers = lower.matchers ++ upper.matchers :=
  rfl

@[simp]
theorem formulas_append (lower upper : Store) :
    (lower ++ upper).formulas = lower.formulas ++ upper.formulas :=
  rfl

theorem append_empty (store : Store) : store ++ empty = store := by
  show Store.mk (store.matchers ++ []) (store.formulas ++ []) = store
  rw [List.append_nil, List.append_nil]

/-- A rule that is added to the upper layer stands behind all others of its kind. -/
theorem append_push (lower upper : Store) (entry : Entry) :
    (lower ++ upper).push entry = lower ++ upper.push entry := by
  cases entry with
  | matcher rule =>
    show Store.mk ((lower.matchers ++ upper.matchers) ++ [rule]) _ =
      Store.mk (lower.matchers ++ (upper.matchers ++ [rule])) _
    rw [List.append_assoc]
    rfl
  | formula rule =>
    show Store.mk _ ((lower.formulas ++ upper.formulas) ++ [rule]) =
      Store.mk _ (lower.formulas ++ (upper.formulas ++ [rule]))
    rw [List.append_assoc]
    rfl

theorem append_pushAll (lower upper : Store) (entries : List Entry) :
    (lower ++ upper).pushAll entries = lower ++ upper.pushAll entries := by
  induction entries generalizing upper with
  | nil => rfl
  | cons entry entries ih =>
    show ((lower ++ upper).push entry).pushAll entries = lower ++ (upper.push entry).pushAll entries
    rw [append_push]
    exact ih (upper.push entry)

/-- What entries add to a store is what they are by themselves. -/
theorem pushAll_eq_append (store : Store) (entries : List Entry) :
    store.pushAll entries = store ++ empty.pushAll entries := by
  rw [← append_pushAll, append_empty]

/-! ## Picking from two layers -/

/-- A label or an error, or else another one where no matcher is true. -/
def labelOr : Except SolveError String → Except SolveError String → Except SolveError String
  | .error (.noSolution none), other => other
  | picked, _ => picked

theorem labelOr_error {e : SolveError} (h : e ≠ .noSolution none)
    (other : Except SolveError String) : labelOr (.error e) other = .error e := by
  unfold labelOr
  split
  · rename_i heq
    exact absurd (Except.error.inj heq) h
  · rfl

/-- The scan goes on to the older matchers if all newer ones are false. -/
theorem firstLabel_append (truths : Bindings Bool) (newer older : List (Rule Matcher)) :
    firstLabel truths (newer ++ older) =
      labelOr (firstLabel truths newer) (firstLabel truths older) := by
  induction newer with
  | nil => rfl
  | cons rule newer ih =>
    rw [List.cons_append, firstLabel, firstLabel]
    cases rule.expression.reduce truths with
    | error fault =>
      -- the scan ends here, and not with the error for which it would go on
      exact (labelOr_error (solveError_ne_noSolution rule fault none) _).symm
    | ok truth =>
      cases truth with
      | true => rfl
      | false => exact ih

theorem label_append (lower upper : Store) (truths : Bindings Bool) :
    (lower ++ upper).label truths = labelOr (upper.label truths) (lower.label truths) := by
  unfold label
  rw [matchers_append, List.reverse_append, firstLabel_append]

theorem formula?_append (lower upper : Store) (label : String) :
    (lower ++ upper).formula? label = (upper.formula? label).or (lower.formula? label) := by
  unfold formula?
  rw [formulas_append, List.reverse_append, List.find?_append]

/-- A layer that has no part in the outcome: its matchers are false, and its formulas are for other
labels. -/
structure Idle (layer : Store) (truths : Bindings Bool) (picked : Except SolveError String) :
    Prop where
  matchers : ∀ rule ∈ layer.matchers, rule.expression.reduce truths = .ok false
  formulas : ∀ rule ∈ layer.formulas, picked ≠ .ok rule.label

section AnyLimit

variable [Limits]

theorem solve_append_of_idle (h : upper.Idle truths (lower.label truths)) :
    (lower ++ upper).solve truths numbers = lower.solve truths numbers := by
  apply solve_congr
  -- the upper layer has no label to offer, and then no formula for the label of the lower one
  · rw [label_append, label_of_all_false h.matchers]
    rfl
  · intro label hlabel
    have hnone : upper.formula? label = none := by
      refine formula?_eq_none_iff.mpr fun rule hrule heq => h.formulas rule hrule ?_
      rw [hlabel, heq]
    rw [formula?_append, hnone, Option.none_or]

/-! ## Texts as a layer -/

/-- Texts that all read put the store that they are by themselves on every store, and whatever is
added to it lies on top of both. Of the two layers the upper one has the say: its label or error
counts unless none of its matchers is true, and its formula for a label if it has one. Where its
matchers are false and its formulas for other labels, nothing changes. -/
theorem layers_override {texts : List RawText}
    (hreads : ∀ text ∈ texts, (Entry.ofText text).isOk) :
    ∃ layer, empty.addAll texts = (layer, none) ∧
      (∀ values, Request.store ⟨texts, values⟩ = .ok (base ++ layer)) ∧
      ∀ store : Store, store.addAll texts = (store ++ layer, none) ∧
        (∀ more, store.addAll (texts ++ more) = (store ++ layer).addAll more) ∧
        (∀ truths, (store ++ layer).label truths =
          labelOr (layer.label truths) (store.label truths)) ∧
        (∀ label, (store ++ layer).formula? label =
          (layer.formula? label).or (store.formula? label)) ∧
        ∀ truths numbers, layer.Idle truths (store.label truths) →
          (store ++ layer).solve truths numbers = store.solve truths numbers := by
  obtain ⟨entries, hentries⟩ := exists_reads_iff.mpr hreads
  refine ⟨empty.pushAll entries, addAll_of_reads hentries, fun values => ?_, fun store => ?_⟩
  · unfold Request.store extend
    rw [addAll_of_reads hentries, pushAll_eq_append]
  · refine ⟨?_, fun more => ?_, label_append store _, formula?_append store _, fun _ _ hidle => ?_⟩
    · rw [addAll_of_reads hentries, pushAll_eq_append]
    · rw [addAll_append hentries, pushAll_eq_append]
    · exact solve_append_of_idle hidle

end AnyLimit

/-- A matcher that fails on a variable without a value keeps the base rules from giving a label.
With a value under which it is false, the outcome is theirs. -/
theorem layers_override_base :
    (base.addAll ["A && N => H = X"]).1.label (.ofList [("A", true), ("B", true), ("C", false)]) =
        .error (.undefinedVariable "N") ∧
      ∀ numbers,
        (base.addAll ["A && N => H = X"]).1.solve
            (.ofList [("A", true), ("B", true), ("C", false), ("N", false)]) numbers =
          base.solve (.ofList [("A", true), ("B", true), ("C", false), ("N", false)]) numbers := by
  have hreads : ∀ text ∈ [RawText.ofString "A && N => H = X"], (Entry.ofText text).isOk := by
    decide +kernel
  obtain ⟨layer, halone, -, hlayer⟩ := layers_override hreads
  obtain ⟨hstore, -, hlabel, -, hidle⟩ := hlayer base
  obtain rfl : (empty.addAll ["A && N => H = X"]).1 = layer := by rw [halone]
  rw [hstore]
  constructor
  · rw [hlabel]
    decide +kernel
  · intro numbers
    apply hidle
    constructor
    · decide +kernel
    · decide +kernel

end Store

end Rulebook
