import Mathlib.Data.List.Induction
import Mathlib.Tactic.Common
import Rulebook.Store.Solve

/-!
# The outcome of solving

Two scans decide what a store gives, both from the newest rule to the oldest. The first one stops at
the newest matcher that is not false, be it true or failing; the second one at the newest formula
for the label of that matcher, wherever in the store it was added.

`Store.Solves` says which outcome that is, by the places of the two rules in their lists and without
a scan. Main statement: `Store.solve` is that outcome, so that older matchers and all other formulas
have no part in it.
-/

namespace Rulebook

/-! ## Newest entries -/

/-- The entry at an index has a property, and no entry behind it has. -/
def IsNewest {α : Type} (p : α → Prop) (l : List α) (i : Nat) (a : α) : Prop :=
  l[i]? = some a ∧ p a ∧ ∀ j b, i < j → l[j]? = some b → ¬ p b

section Newest

variable {α : Type} {p : α → Prop} {l : List α} {i : Nat} {a b : α}

/-- One more entry is the newest one if it has the property, else nothing changes. -/
theorem isNewest_concat_iff :
    IsNewest p (l ++ [a]) i b ↔ p a ∧ i = l.length ∧ b = a ∨ ¬ p a ∧ IsNewest p l i b := by
  have hlast : (l ++ [a])[l.length]? = some a := by simp
  have hold : ∀ {j}, j < l.length → (l ++ [a])[j]? = l[j]? := fun hj =>
    List.getElem?_append_left hj
  constructor
  · rintro ⟨hi, hb, hnew⟩
    have hle : i < (l ++ [a]).length := (List.getElem?_eq_some_iff.mp hi).1
    rw [List.length_append, List.length_singleton] at hle
    -- the entry is an old one, and then the last one lacks the property, or it is the last one
    rcases Nat.lt_or_ge i l.length with hlt | hge
    · refine .inr ⟨hnew l.length a hlt hlast, by rwa [hold hlt] at hi, hb, fun j c hj hc => ?_⟩
      have hjl : j < l.length := (List.getElem?_eq_some_iff.mp hc).1
      exact hnew j c hj (by rwa [hold hjl])
    · obtain rfl : i = l.length := by omega
      obtain rfl := Option.some.inj (hlast.symm.trans hi)
      exact .inl ⟨hb, rfl, rfl⟩
  · rintro (⟨ha, rfl, rfl⟩ | ⟨ha, hi, hb, hnew⟩)
    · refine ⟨hlast, ha, fun j c hj hc => ?_⟩
      have hjl := (List.getElem?_eq_some_iff.mp hc).1
      rw [List.length_append, List.length_singleton] at hjl
      omega
    · have hlt : i < l.length := (List.getElem?_eq_some_iff.mp hi).1
      refine ⟨by rwa [hold hlt], hb, fun j c hj hc => ?_⟩
      have hjl := (List.getElem?_eq_some_iff.mp hc).1
      rw [List.length_append, List.length_singleton] at hjl
      rcases Nat.lt_or_ge j l.length with hlt | hge
      · exact hnew j c hj (by rwa [hold hlt] at hc)
      · obtain rfl : j = l.length := by omega
        obtain rfl := Option.some.inj (hlast.symm.trans hc)
        exact ha

/-- A scan from the back finds the newest entry with the property. -/
theorem find?_reverse_eq_some_iff [DecidablePred p] :
    l.reverse.find? (fun a => decide (p a)) = some a ↔ ∃ i, IsNewest p l i a := by
  -- by the entries from the back, as they are scanned
  induction l using List.reverseRecOn with
  | nil => simp [IsNewest]
  | append_singleton l c ih =>
    rw [List.reverse_append, List.reverse_singleton, List.singleton_append]
    simp only [isNewest_concat_iff]
    by_cases hc : p c
    · rw [List.find?_cons_of_pos (by simpa using hc)]
      simp [hc, eq_comm]
    · rw [List.find?_cons_of_neg (by simpa using hc), ih]
      simp [hc]

theorem find?_reverse_eq_none_iff [DecidablePred p] :
    l.reverse.find? (fun a => decide (p a)) = none ↔ ∀ a ∈ l, ¬ p a := by
  simp

/-- What stands in front of the newest entry may be exchanged. -/
theorem IsNewest.exchange (h : IsNewest p l i a) (older : List α) :
    IsNewest p (older ++ l.drop i) older.length a := by
  obtain ⟨hi, ha, hnew⟩ := h
  refine ⟨?_, ha, fun j b hj hb => ?_⟩
  · rwa [List.getElem?_append_right (Nat.le_refl _), List.getElem?_drop, Nat.sub_self, Nat.add_zero]
  · rw [List.getElem?_append_right (Nat.le_of_lt hj), List.getElem?_drop] at hb
    exact hnew _ b (by omega) hb

end Newest

/-! ## The outcome -/

namespace Store

/-- A matcher that is true or fails. -/
def NotFalse (truths : Bindings Bool) (rule : Rule Matcher) : Prop :=
  rule.expression.reduce truths ≠ .ok false

/-- A rule for a label. -/
def HasLabel {ε : Type} (label : String) (rule : Rule ε) : Prop :=
  rule.label = label

/-- The outcome of solving, by the newest matcher that is not false and the newest formula for its
label. -/
inductive Solves [Limits] (store : Store) (truths : Bindings Bool) (numbers : Bindings Float) :
    Except SolveError Solution → Prop where
  | noMatcher :
      (∀ matcher ∈ store.matchers, matcher.expression.reduce truths = .ok false) →
      Solves store truths numbers (.error (.noSolution none))
  | matcherFails {i : Nat} {matcher : Rule Matcher} {fault : ReduceFault} :
      IsNewest (NotFalse truths) store.matchers i matcher →
      matcher.expression.reduce truths = .error fault →
      Solves store truths numbers (.error (matcher.solveError fault))
  | noFormula {i : Nat} {matcher : Rule Matcher} :
      IsNewest (NotFalse truths) store.matchers i matcher →
      matcher.expression.reduce truths = .ok true →
      (∀ formula ∈ store.formulas, ¬ HasLabel matcher.label formula) →
      Solves store truths numbers (.error (.noSolution (some matcher.label)))
  | value {i k : Nat} {matcher : Rule Matcher} {formula : Rule Formula} {x : Float} :
      IsNewest (NotFalse truths) store.matchers i matcher →
      matcher.expression.reduce truths = .ok true →
      IsNewest (HasLabel matcher.label) store.formulas k formula →
      formula.expression.reduce numbers nestingLimit = .ok x →
      Solves store truths numbers (.ok ⟨matcher.label, x⟩)
  | formulaFails {i k : Nat} {matcher : Rule Matcher} {formula : Rule Formula}
      {fault : ReduceFault} :
      IsNewest (NotFalse truths) store.matchers i matcher →
      matcher.expression.reduce truths = .ok true →
      IsNewest (HasLabel matcher.label) store.formulas k formula →
      formula.expression.reduce numbers nestingLimit = .error fault →
      Solves store truths numbers (.error (formula.solveError fault))

/-! ## The two scans -/

instance (truths : Bindings Bool) : DecidablePred (NotFalse truths) := fun rule =>
  match h : rule.expression.reduce truths with
  | .ok false => .isFalse fun hne => hne h
  | .ok true => .isTrue fun heq => by simp [h] at heq
  | .error _ => .isTrue fun heq => by simp [h] at heq

instance {ε : Type} (label : String) : DecidablePred (HasLabel (ε := ε) label) := fun rule =>
  inferInstanceAs (Decidable (rule.label = label))

variable {store : Store} {truths : Bindings Bool} {numbers : Bindings Float}
  {i k : Nat} {matcher : Rule Matcher} {formula : Rule Formula} {label : String}

/-- A rule that has no value fails for a variable or for its nesting, never for a label. -/
theorem solveError_ne_noSolution {ε : Type} (rule : Rule ε) (fault : ReduceFault)
    (label : Option String) : rule.solveError fault ≠ .noSolution label := by
  cases fault <;> exact SolveError.noConfusion

/-- The scan of the matchers stops at the first one that is not false. -/
theorem firstLabel_eq (truths : Bindings Bool) (rules : List (Rule Matcher)) :
    firstLabel truths rules =
      match rules.find? fun rule => decide (NotFalse truths rule) with
      | none => .error (.noSolution none)
      | some rule =>
        match rule.expression.reduce truths with
        | .ok _ => .ok rule.label
        | .error fault => .error (rule.solveError fault) := by
  induction rules with
  | nil => rfl
  | cons rule rules ih =>
    rw [firstLabel]
    cases hr : rule.expression.reduce truths with
    | error fault => simp [NotFalse, hr]
    | ok truth => cases truth <;> simp [NotFalse, hr, ih]

theorem label_of_isNewest (h : IsNewest (NotFalse truths) store.matchers i matcher) :
    store.label truths =
      match matcher.expression.reduce truths with
      | .ok _ => .ok matcher.label
      | .error fault => .error (matcher.solveError fault) := by
  rw [Store.label, firstLabel_eq, find?_reverse_eq_some_iff.mpr ⟨i, h⟩]

theorem label_of_all_false
    (h : ∀ matcher ∈ store.matchers, matcher.expression.reduce truths = .ok false) :
    store.label truths = .error (.noSolution none) := by
  rw [Store.label, firstLabel_eq, find?_reverse_eq_none_iff.mpr]
  exact fun matcher hm hne => hne (h matcher hm)

theorem formula?_eq_some_iff :
    store.formula? label = some formula ↔
      ∃ k, IsNewest (HasLabel label) store.formulas k formula :=
  find?_reverse_eq_some_iff (p := HasLabel label)

theorem formula?_eq_none_iff :
    store.formula? label = none ↔ ∀ formula ∈ store.formulas, ¬ HasLabel label formula :=
  find?_reverse_eq_none_iff (p := HasLabel label)

theorem label_of_true (h : IsNewest (NotFalse truths) store.matchers i matcher)
    (htrue : matcher.expression.reduce truths = .ok true) :
    store.label truths = .ok matcher.label := by
  rw [label_of_isNewest h, htrue]

/-- The matcher decides the label: it is true, and no later one is true or fails. -/
def Wins (store : Store) (truths : Bindings Bool) (matcher : Rule Matcher) : Prop :=
  ∃ i, IsNewest (NotFalse truths) store.matchers i matcher ∧
    matcher.expression.reduce truths = .ok true

theorem Wins.mem (h : Wins store truths matcher) : matcher ∈ store.matchers := by
  obtain ⟨i, hi, -⟩ := h
  exact List.mem_of_getElem? hi.1

/-- A label comes from the matcher that wins. -/
theorem label_eq_ok_iff :
    store.label truths = .ok label ↔
      ∃ matcher, Wins store truths matcher ∧ matcher.label = label := by
  constructor
  · intro h
    rw [Store.label, firstLabel_eq] at h
    split at h
    · simp at h
    · rename_i matcher hfind
      obtain ⟨i, hi⟩ := find?_reverse_eq_some_iff.mp hfind
      split at h
      · rename_i truth htruth
        -- the scan does not stop at a matcher that is false
        have htrue : truth = true := by
          rw [← Bool.not_eq_false]
          rintro rfl
          exact hi.2.1 htruth
        exact ⟨matcher, ⟨i, hi, htrue ▸ htruth⟩, Except.ok.inj h⟩
      · simp at h
  · rintro ⟨matcher, ⟨i, hi, htrue⟩, rfl⟩
    exact label_of_true hi htrue

/-! ## Solving -/

variable [Limits]

theorem solve_of_label_error {e : SolveError} (h : store.label truths = .error e) :
    store.solve truths numbers = .error e := by
  unfold Store.solve
  rw [h]
  rfl

theorem solve_of_label_ok (h : store.label truths = .ok label) :
    store.solve truths numbers =
      match store.formula? label with
      | none => .error (.noSolution (some label))
      | some formula =>
        match formula.expression.reduce numbers nestingLimit with
        | .ok x => .ok ⟨label, x⟩
        | .error fault => .error (formula.solveError fault) := by
  unfold Store.solve Store.value
  rw [h]
  simp only [bind, Except.bind]
  cases store.formula? label with
  | none => rfl
  | some formula =>
    simp only
    cases formula.expression.reduce numbers nestingLimit <;> rfl

/-- Two stores give the same if they give the same label and have the same newest formula for it. -/
theorem solve_congr {store' : Store} (hlabel : store'.label truths = store.label truths)
    (hformula : ∀ label, store.label truths = .ok label →
      store'.formula? label = store.formula? label) :
    store'.solve truths numbers = store.solve truths numbers := by
  cases hl : store.label truths with
  | error e => rw [solve_of_label_error hl, solve_of_label_error (hlabel.trans hl)]
  | ok label =>
    rw [solve_of_label_ok hl, solve_of_label_ok (hlabel.trans hl), hformula label hl]

theorem Solves.solve_eq {r : Except SolveError Solution} (h : Solves store truths numbers r) :
    store.solve truths numbers = r := by
  cases h with
  | noMatcher hfalse => exact solve_of_label_error (label_of_all_false hfalse)
  | matcherFails hm hfault =>
    apply solve_of_label_error
    rw [label_of_isNewest hm, hfault]
  | noFormula hm htrue hnone =>
    rw [solve_of_label_ok (label_of_true hm htrue), formula?_eq_none_iff.mpr hnone]
  | value hm htrue hf hx =>
    rw [solve_of_label_ok (label_of_true hm htrue), formula?_eq_some_iff.mpr ⟨_, hf⟩]
    simp only [hx]
  | formulaFails hm htrue hf hfault =>
    rw [solve_of_label_ok (label_of_true hm htrue), formula?_eq_some_iff.mpr ⟨_, hf⟩]
    simp only [hfault]

/-- Every store has an outcome. -/
theorem exists_solves (store : Store) (truths : Bindings Bool) (numbers : Bindings Float) :
    ∃ r, Solves store truths numbers r := by
  cases hm : store.matchers.reverse.find? fun rule => decide (NotFalse truths rule) with
  | none =>
    -- the first scan goes through
    refine ⟨_, .noMatcher fun matcher hmem => ?_⟩
    exact not_not.mp (find?_reverse_eq_none_iff.mp hm matcher hmem)
  | some matcher =>
    obtain ⟨i, hi⟩ := find?_reverse_eq_some_iff.mp hm
    cases hr : matcher.expression.reduce truths with
    | error fault => exact ⟨_, .matcherFails hi hr⟩
    | ok truth =>
      have htrue : matcher.expression.reduce truths = .ok true := by
        cases truth with
        | true => exact hr
        | false => exact absurd hr hi.2.1
      -- the second scan looks for the label of the matcher that was found
      cases hf : store.formula? matcher.label with
      | none => exact ⟨_, .noFormula hi htrue (formula?_eq_none_iff.mp hf)⟩
      | some formula =>
        obtain ⟨k, hk⟩ := formula?_eq_some_iff.mp hf
        cases hx : formula.expression.reduce numbers nestingLimit with
        | ok x => exact ⟨_, .value hi htrue hk hx⟩
        | error fault => exact ⟨_, .formulaFails hi htrue hk hx⟩

/-- What solving computes. The outcome is the one of `Solves`; matchers older than the newest one
that is not false may be exchanged for any others; and so may the formulas, as long as the newest
one for the label stays what it is. -/
theorem solve_eq_iff_solves (store : Store) (truths : Bindings Bool) (numbers : Bindings Float) :
    (∀ r, store.solve truths numbers = r ↔ Solves store truths numbers r) ∧
      (∀ i matcher older, IsNewest (NotFalse truths) store.matchers i matcher →
        solve ⟨older ++ store.matchers.drop i, store.formulas⟩ truths numbers =
          store.solve truths numbers) ∧
      ∀ i matcher k formula k' formulas, IsNewest (NotFalse truths) store.matchers i matcher →
        IsNewest (HasLabel matcher.label) store.formulas k formula →
        IsNewest (HasLabel matcher.label) formulas k' formula →
        solve ⟨store.matchers, formulas⟩ truths numbers = store.solve truths numbers := by
  refine ⟨fun r => ⟨?_, Solves.solve_eq⟩, ?_, ?_⟩
  · rintro rfl
    obtain ⟨r, hr⟩ := exists_solves store truths numbers
    rwa [hr.solve_eq]
  · intro i matcher older hi
    refine solve_congr ?_ fun _ _ => rfl
    rw [label_of_isNewest hi]
    exact label_of_isNewest (hi.exchange older)
  · intro i matcher k formula k' formulas hi hk hk'
    refine solve_congr rfl fun label hlabel => ?_
    -- a label comes from the newest matcher, if that is true
    obtain rfl : matcher.label = label := by
      rw [label_of_isNewest hi] at hlabel
      split at hlabel
      · exact Except.ok.inj hlabel
      · simp at hlabel
    rw [formula?_eq_some_iff.mpr ⟨k, hk⟩]
    exact formula?_eq_some_iff.mpr ⟨k', hk'⟩

end Store

end Rulebook
