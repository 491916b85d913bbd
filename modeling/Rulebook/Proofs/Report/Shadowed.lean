import Mathlib.Data.List.Dedup
import Mathlib.Tactic.Common
import Rulebook.Proofs.Store.Outcome
import Rulebook.Report

/-!
# Formulas that are never used

A formula is out of use if a later one has its label, or if no matcher produces that label. The
report finds the first kind by a scan of its own, which remembers the labels of the formulas that it
has passed; solving scans for one label only. Main statement: the report lists exactly the formulas
with a later one, all others together have each label once, and a store without the formulas that
are out of use gives the same outcome for all bindings.
-/

namespace Rulebook

/-! ## Entries by index -/

/-- The entries of a list that pass a test of their index and themselves, in order. -/
def entriesWhere {α : Type} (test : Nat → α → Bool) (l : List α) : List α :=
  (l.zipIdx.filter fun e => test e.2 e.1).map Prod.fst

theorem entriesWhere_cons {α : Type} (test : Nat → α → Bool) (a : α) (l : List α) :
    entriesWhere test (a :: l) =
      if test 0 a then a :: entriesWhere (fun i => test (i + 1)) l
      else entriesWhere (fun i => test (i + 1)) l := by
  have htail : (((l.zipIdx 1).filter fun e => test e.2 e.1).map Prod.fst) =
      entriesWhere (fun i => test (i + 1)) l := by
    rw [entriesWhere, List.zipIdx_succ, List.filter_map, List.map_map]
    rfl
  rw [entriesWhere, List.zipIdx_cons, List.filter_cons]
  split
  · rw [List.map_cons, htail]
  · exact htail

/-! ## Shadowed rules -/

/-- A later rule of the list has the label of the one at the index. -/
def Shadowed {ε : Type} (rules : List (Rule ε)) (i : Nat) (rule : Rule ε) : Prop :=
  ∃ later ∈ rules.drop (i + 1), later.label = rule.label

instance {ε : Type} (rules : List (Rule ε)) (i : Nat) (rule : Rule ε) :
    Decidable (Shadowed rules i rule) :=
  inferInstanceAs (Decidable (∃ later ∈ rules.drop (i + 1), later.label = rule.label))

namespace Report

variable {ε : Type}

/-- A scan goes on with the labels of what it has passed. -/
theorem repeated_append (seen : List String) (newer older : List (Rule ε)) :
    repeated seen (newer ++ older) =
      repeated seen newer ++ repeated ((newer.map (·.label)).reverse ++ seen) older := by
  induction newer generalizing seen with
  | nil => rfl
  | cons rule newer ih =>
    simp only [List.cons_append, repeated, ih, List.map_cons, List.reverse_cons, List.append_assoc,
      List.nil_append]
    split <;> rfl

/-- One more rule at the front is shadowed if its label comes again. -/
theorem shadowed_cons (rule : Rule ε) (rules : List (Rule ε)) :
    shadowed (rule :: rules) =
      if rule.label ∈ rules.map (·.label) then rule :: shadowed rules else shadowed rules := by
  -- the rule at the front is scanned last, when the labels of all others have been seen
  have hlast : repeated ((rules.reverse.map (·.label)).reverse ++ []) [rule] =
      if rule.label ∈ rules.map (·.label) then [rule] else [] := by
    simp [repeated]
  unfold shadowed
  rw [List.reverse_cons, repeated_append, hlast]
  split
  · rw [List.reverse_append]
    rfl
  · rw [List.append_nil]

/-- The scan finds exactly the rules with a later one for their label, in the order of the list. -/
theorem shadowed_eq (rules : List (Rule ε)) :
    shadowed rules = entriesWhere (fun i rule => decide (Shadowed rules i rule)) rules := by
  induction rules with
  | nil => rfl
  | cons rule rules ih =>
    rw [shadowed_cons, entriesWhere_cons, ih]
    -- behind the front the indices shift by one, and so does what stands behind them
    have hfront : (rule.label ∈ rules.map (·.label)) ↔ Shadowed (rule :: rules) 0 rule := by
      simp [Shadowed]
    simp only [decide_eq_true_eq, ← hfront]
    rfl

/-- The rules that are not shadowed have each label once. -/
theorem length_shadowed_add (rules : List (Rule ε)) :
    (shadowed rules).length + (rules.map (·.label)).dedup.length = rules.length := by
  induction rules with
  | nil => rfl
  | cons rule rules ih =>
    rw [shadowed_cons, List.map_cons]
    by_cases h : rule.label ∈ rules.map (·.label)
    · rw [if_pos h, List.dedup_cons_of_mem h]
      simp only [List.length_cons]
      omega
    · rw [if_neg h, List.dedup_cons_of_notMem h]
      simp only [List.length_cons]
      omega

theorem length_sortNames (names : List String) :
    (Text.sortNames names).length = names.dedup.length := by
  apply List.Perm.length_eq
  rw [List.perm_ext_iff_of_nodup (Text.nodup_sortNames names) (List.nodup_dedup names)]
  intro name
  rw [Text.mem_sortNames, List.mem_dedup]

end Report

/-! ## The store without them -/

namespace Store

/-- The store without the formulas that are shadowed and those that its report finds without a
matcher. -/
def inUse (store : Store) : Store :=
  { store with
    formulas := entriesWhere (fun i rule => !decide (Shadowed store.formulas i rule) &&
      !(Report.ofStore store).labelsWithoutMatcher.contains rule.label) store.formulas }

variable {ε : Type} {label : String}

/-- The newest rule for a label is not shadowed, so that it is found without the shadowed ones. What
else is taken out is not for this label. -/
theorem find?_reverse_entriesWhere (keep : String → Bool) (hlabel : keep label = true)
    (rules : List (Rule ε)) :
    (entriesWhere (fun i rule => !decide (Shadowed rules i rule) && keep rule.label)
        rules).reverse.find? (·.label == label) =
      rules.reverse.find? (·.label == label) := by
  induction rules with
  | nil => rfl
  | cons rule rules ih =>
    have hfront : Shadowed (rule :: rules) 0 rule ↔ ∃ later ∈ rules, later.label = rule.label :=
      Iff.rfl
    have hrest : (entriesWhere (fun i r => !decide (Shadowed (rule :: rules) (i + 1) r) &&
        keep r.label) rules).reverse.find? (·.label == label) =
          rules.reverse.find? (·.label == label) := ih
    rw [entriesWhere_cons, List.reverse_cons, List.find?_append]
    split
    · rw [List.reverse_cons, List.find?_append, hrest]
    · rename_i hout
      -- the rule at the front is taken out: it is for another label, or a later one is found
      rw [hrest]
      cases hfound : rules.reverse.find? (·.label == label) with
      | some later => rfl
      | none =>
        have hother : rule.label ≠ label := by
          rintro rfl
          have hshadowed : ∃ later ∈ rules, later.label = rule.label := by
            simpa [hlabel, hfront] using hout
          obtain ⟨later, hmem, heq⟩ := hshadowed
          have hnone := List.find?_eq_none.mp hfound later (List.mem_reverse.mpr hmem)
          exact hnone (by simpa using heq)
        simp [hother]

end Store

namespace Report

/-- Formulas out of use. The report lists those with a later formula for their label, in the order
of the store and one by one; these are all formulas but one for each label; and taking them out,
together with those without a matcher, changes no outcome. -/
theorem shadowedFormulas_are_out_of_use [Limits] (store : Store) :
    (ofStore store).shadowedFormulas =
        (entriesWhere (fun i rule => decide (Shadowed store.formulas i rule))
          store.formulas).map (·.text) ∧
      (ofStore store).labelsRequired.Nodup ∧
      (∀ label, label ∈ (ofStore store).labelsRequired ↔
        ∃ formula ∈ store.formulas, formula.label = label) ∧
      (ofStore store).shadowedFormulas.length + (ofStore store).labelsRequired.length =
        (ofStore store).totalFormulas ∧
      ∀ truths numbers, store.inUse.solve truths numbers = store.solve truths numbers := by
  refine ⟨?_, Text.nodup_sortNames _, fun _ => mem_labelsRequired_iff, ?_, fun truths numbers => ?_⟩
  · show (shadowed store.formulas).map (·.text) = _
    rw [shadowed_eq]
  · show ((shadowed store.formulas).map (·.text)).length +
      (Text.sortNames (store.formulas.map (·.label))).length = store.formulas.length
    rw [List.length_map, length_sortNames, length_shadowed_add]
  · refine Store.solve_congr rfl fun label hlabel => ?_
    -- the label that wins has a matcher, so that no formula for it is without one
    have hkeep : !(ofStore store).labelsWithoutMatcher.contains label := by
      obtain ⟨matcher, hwins, heq⟩ := Store.label_eq_ok_iff.mp hlabel
      have hout : label ∉ (ofStore store).labelsWithoutMatcher := fun h =>
        (mem_labelsWithoutMatcher_iff.mp h).2 matcher hwins.mem heq
      simpa using hout
    exact Store.find?_reverse_entriesWhere
      (fun label => !(ofStore store).labelsWithoutMatcher.contains label) hkeep store.formulas

end Report

end Rulebook
