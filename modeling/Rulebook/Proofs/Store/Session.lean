import Mathlib.Data.List.Infix
import Rulebook.Expression.Form
import Rulebook.Proofs.Store.Adding
import Rulebook.Proofs.Store.Kinds
import Rulebook.Report
import Rulebook.Store.Solve

/-!
# Sessions

A session is a sequence of calls on one store: adding one text or several, solving, and asking for
the tree form or the report. A call that fails leaves the store as far as it had come, and the
session goes on.

Main statement: at every moment of a session that starts from the empty store or from the base
rules, every rule is what its own text reads as, and both lists begin with what they were at every
earlier moment. So the texts alone hold the store. Added to an empty store they give it back,
however the matchers and the formulas are mixed.
-/

namespace Rulebook

namespace Store

/-! ## Calls -/

/-- What can be asked of a store. -/
inductive Call where
  | add (text : RawText)
  | addAll (texts : List RawText)
  | solve (truths : Bindings Bool) (numbers : Bindings Float)
  | form
  | report

/-- What a call gives back. -/
inductive Reply where
  | done
  | refused (e : ParseError)
  | outcome (r : Except SolveError Solution)
  | form (value : Value)
  | report (report : Report)

/-- The texts that a call adds. -/
def Call.texts : Call → List RawText
  | .add text => [text]
  | .addAll texts => texts
  | .solve _ _ | .form | .report => []

section AnyLimit

variable [Limits]

/-- The store behind a call, and the reply. -/
def perform (store : Store) : Call → Store × Reply
  | .add text =>
    match store.add text with
    | .ok store => (store, .done)
    | .error e => (store, .refused e)
  | .addAll texts =>
    match store.addAll texts with
    | (store, none) => (store, .done)
    | (store, some e) => (store, .refused e)
  | .solve truths numbers => (store, .outcome (store.solve truths numbers))
  | .form => (store, .form store.form)
  | .report => (store, .report (.ofStore store))

/-- The store behind some calls. -/
def performAll (store : Store) (calls : List Call) : Store :=
  calls.foldl (fun store call => (store.perform call).1) store

/-! ## Moments -/

/-- The stores while texts are added, from the one in front of them to the one at their end or at
the first that does not read. -/
def adding (store : Store) : List RawText → List Store
  | [] => [store]
  | text :: texts =>
    match store.add text with
    | .ok next => store :: next.adding texts
    | .error _ => [store]

/-- The stores during some calls, call by call. -/
def during (store : Store) : List Call → List Store
  | [] => [store]
  | call :: calls => store.adding call.texts ++ (store.perform call).1.during calls

/-- Both lists of a later store begin with those of the store. -/
structure Precedes (older newer : Store) : Prop where
  matchers : older.matchers <+: newer.matchers
  formulas : older.formulas <+: newer.formulas

/-- Every rule of the store is what its text reads as. -/
structure Faithful (store : Store) : Prop where
  matchers : ∀ rule ∈ store.matchers,
    Matcher.readRule rule.text.toList = .ok (rule.expression, rule.label)
  formulas : ∀ rule ∈ store.formulas,
    Formula.readRule nestingLimit rule.text.toList = .ok (rule.expression, rule.label)

variable {store older newer next moment : Store} {text : RawText} {texts : List RawText}
  {call : Call} {calls : List Call} {entry : Entry}

/-! ## What one text changes -/

theorem add_eq_ok_iff :
    store.add text = .ok next ↔
      ∃ entry, Entry.ofText text = .ok entry ∧ next = store.push entry := by
  unfold Store.add
  cases Entry.ofText text with
  | error e => simp [Except.map]
  | ok entry => simp [Except.map, eq_comm]

omit [Limits] in
theorem Precedes.refl (store : Store) : store.Precedes store :=
  ⟨List.prefix_refl _, List.prefix_refl _⟩

omit [Limits] in
theorem Precedes.trans (h : older.Precedes store) (h' : store.Precedes newer) :
    older.Precedes newer :=
  ⟨h.matchers.trans h'.matchers, h.formulas.trans h'.formulas⟩

omit [Limits] in
/-- A rule is added at the end of its list. -/
theorem precedes_push (store : Store) (entry : Entry) : store.Precedes (store.push entry) := by
  cases entry with
  | matcher rule => exact ⟨List.prefix_append _ _, List.prefix_refl _⟩
  | formula rule => exact ⟨List.prefix_refl _, List.prefix_append _ _⟩

theorem precedes_of_add (h : store.add text = .ok next) : store.Precedes next := by
  obtain ⟨entry, -, rfl⟩ := add_eq_ok_iff.mp h
  exact precedes_push store entry

theorem faithful_empty : empty.Faithful where
  matchers _ hrule := absurd hrule List.not_mem_nil
  formulas _ hrule := absurd hrule List.not_mem_nil

/-- What a text reads as is read from it again when it is stored. -/
theorem Faithful.add (hstore : store.Faithful) (h : store.add text = .ok next) : next.Faithful := by
  obtain ⟨entry, hentry, rfl⟩ := add_eq_ok_iff.mp h
  cases entry with
  | matcher added =>
    refine ⟨fun rule hrule => ?_, hstore.formulas⟩
    obtain hold | hnew := List.mem_append.mp hrule
    · exact hstore.matchers rule hold
    · -- the new rule holds the very characters that were read
      obtain rfl := List.mem_singleton.mp hnew
      obtain ⟨hread, htext⟩ := Entry.matcher_of_ofText hentry
      rw [htext, RawText.legible, String.toList_ofList]
      exact hread
  | formula added =>
    refine ⟨hstore.matchers, fun rule hrule => ?_⟩
    obtain hold | hnew := List.mem_append.mp hrule
    · exact hstore.formulas rule hold
    · obtain rfl := List.mem_singleton.mp hnew
      obtain ⟨hread, htext⟩ := Entry.formula_of_ofText hentry
      rw [htext, RawText.legible, String.toList_ofList]
      exact hread

/-! ## What several texts change -/

theorem mem_adding_self (store : Store) (texts : List RawText) : store ∈ store.adding texts := by
  fun_cases adding store texts with
  | case1 => exact List.mem_singleton_self store
  | case2 => exact List.mem_cons_self
  | case3 => exact List.mem_singleton_self store

/-- The store at the end is the last one at hand. -/
theorem addAll_mem_adding (store : Store) (texts : List RawText) :
    (store.addAll texts).1 ∈ store.adding texts := by
  fun_induction adding store texts with
  | case1 store => exact List.mem_singleton_self store
  | case2 store text texts next hadd ih =>
    rw [addAll_of_ok hadd]
    exact List.mem_cons_of_mem store ih
  | case3 store text texts e hadd =>
    rw [addAll_of_error hadd]
    exact List.mem_singleton_self store

theorem precedes_of_mem_adding (h : moment ∈ store.adding texts) : store.Precedes moment := by
  fun_induction adding store texts with
  | case1 store =>
    obtain rfl := List.mem_singleton.mp h
    exact .refl moment
  | case2 store text texts next hadd ih =>
    obtain rfl | hlater := List.mem_cons.mp h
    · exact .refl moment
    · exact (precedes_of_add hadd).trans (ih hlater)
  | case3 store text texts e hadd =>
    obtain rfl := List.mem_singleton.mp h
    exact .refl moment

/-- While texts are added, every store at hand precedes the one at the end. -/
theorem precedes_addAll_of_mem_adding (h : moment ∈ store.adding texts) :
    moment.Precedes (store.addAll texts).1 := by
  fun_induction adding store texts with
  | case1 store =>
    obtain rfl := List.mem_singleton.mp h
    exact .refl moment
  | case2 store text texts next hadd ih =>
    rw [addAll_of_ok hadd]
    obtain rfl | hlater := List.mem_cons.mp h
    · have hend := precedes_of_mem_adding (addAll_mem_adding next texts)
      exact (precedes_of_add hadd).trans hend
    · exact ih hlater
  | case3 store text texts e hadd =>
    rw [addAll_of_error hadd]
    obtain rfl := List.mem_singleton.mp h
    exact .refl moment

theorem pairwise_adding (store : Store) (texts : List RawText) :
    (store.adding texts).Pairwise Precedes := by
  fun_induction adding store texts with
  | case1 store => exact List.pairwise_singleton _ store
  | case2 store text texts next hadd ih =>
    refine List.pairwise_cons.mpr ⟨fun moment hlater => ?_, ih⟩
    exact (precedes_of_add hadd).trans (precedes_of_mem_adding hlater)
  | case3 store text texts e hadd => exact List.pairwise_singleton _ store

theorem Faithful.of_mem_adding (hstore : store.Faithful) (h : moment ∈ store.adding texts) :
    moment.Faithful := by
  fun_induction adding store texts with
  | case1 store =>
    obtain rfl := List.mem_singleton.mp h
    exact hstore
  | case2 store text texts next hadd ih =>
    obtain rfl | hlater := List.mem_cons.mp h
    · exact hstore
    · exact ih (hstore.add hadd) hlater
  | case3 store text texts e hadd =>
    obtain rfl := List.mem_singleton.mp h
    exact hstore

theorem faithful_base : base.Faithful :=
  faithful_empty.of_mem_adding (addAll_mem_adding empty baseTexts)

/-! ## What calls change -/

/-- A call leaves the store with its texts added, as far as they read. -/
theorem perform_fst (store : Store) (call : Call) :
    (store.perform call).1 = (store.addAll call.texts).1 := by
  cases call with
  | add text =>
    show _ = (store.addAll [text]).1
    rw [perform]
    cases hadd : store.add text with
    | error e => rw [addAll_of_error hadd]
    | ok next =>
      rw [addAll_of_ok hadd]
      rfl
  | addAll texts =>
    show _ = (store.addAll texts).1
    rw [perform]
    obtain ⟨next, failure⟩ := store.addAll texts
    cases failure <;> rfl
  | solve truths numbers => rfl
  | form => rfl
  | report => rfl

theorem perform_mem_adding (store : Store) (call : Call) :
    (store.perform call).1 ∈ store.adding call.texts := by
  rw [perform_fst]
  exact addAll_mem_adding store call.texts

theorem precedes_of_mem_during (h : moment ∈ store.during calls) : store.Precedes moment := by
  induction calls generalizing store with
  | nil =>
    obtain rfl := List.mem_singleton.mp h
    exact .refl moment
  | cons call calls ih =>
    obtain hnow | hlater := List.mem_append.mp h
    · exact precedes_of_mem_adding hnow
    · exact (precedes_of_mem_adding (perform_mem_adding store call)).trans (ih hlater)

/-- The lists of a store only ever grow at their ends. -/
theorem pairwise_during (store : Store) (calls : List Call) :
    (store.during calls).Pairwise Precedes := by
  -- by the calls: what is at hand during the first one precedes what it leaves
  induction calls generalizing store with
  | nil => exact List.pairwise_singleton _ store
  | cons call calls ih =>
    refine List.pairwise_append.mpr ⟨pairwise_adding store call.texts, ih _, ?_⟩
    intro earlier hearlier later hlater
    have hleft := precedes_addAll_of_mem_adding hearlier
    rw [← perform_fst] at hleft
    exact hleft.trans (precedes_of_mem_during hlater)

/-- No call puts a rule into the store that is not what its text reads as. -/
theorem Faithful.of_mem_during (hstore : store.Faithful) (h : moment ∈ store.during calls) :
    moment.Faithful := by
  induction calls generalizing store with
  | nil =>
    obtain rfl := List.mem_singleton.mp h
    exact hstore
  | cons call calls ih =>
    obtain hnow | hlater := List.mem_append.mp h
    · exact hstore.of_mem_adding hnow
    · exact ih (hstore.of_mem_adding (perform_mem_adding store call)) hlater

/-- The stores in front of, between and behind the calls are at hand in this order. -/
theorem inits_sublist_during (store : Store) (calls : List Call) :
    (calls.inits.map store.performAll).Sublist (store.during calls) := by
  induction calls generalizing store with
  | nil => exact List.Sublist.refl [store]
  | cons call calls ih =>
    have hnow : [store].Sublist (store.adding call.texts) :=
      List.singleton_sublist.mpr (mem_adding_self store call.texts)
    rw [List.inits_cons, List.map_cons, List.map_map]
    exact hnow.append (ih (store.perform call).1)

theorem performAll_mem_during (store : Store) (calls : List Call) :
    store.performAll calls ∈ store.during calls := by
  apply (inits_sublist_during store calls).subset
  exact List.mem_map_of_mem ((List.mem_inits calls calls).mpr List.prefix_rfl)

/-! ## The texts hold the store -/

/-- A list that holds the entries of two lists, each of these in its order. -/
inductive Mixes {α : Type} : List α → List α → List α → Prop where
  | nil : Mixes [] [] []
  | left {a : α} {l r mixed : List α} : Mixes l r mixed → Mixes (a :: l) r (a :: mixed)
  | right {a : α} {l r mixed : List α} : Mixes l r mixed → Mixes l (a :: r) (a :: mixed)

theorem Entry.ofText_text_of_matcher {rule : Rule Matcher}
    (h : Matcher.readRule rule.text.toList = .ok (rule.expression, rule.label)) :
    ofText rule.text = .ok (.matcher rule) := by
  rw [← RawText.chars_ofString] at h
  rw [ofText_of_matcher h, RawText.legible_ofString]

theorem Entry.ofText_text_of_formula {rule : Rule Formula}
    (h : Formula.readRule nestingLimit rule.text.toList = .ok (rule.expression, rule.label)) :
    ofText rule.text = .ok (.formula rule) := by
  rw [← RawText.chars_ofString] at h
  rw [ofText_of_formula h, RawText.legible_ofString]

/-- The texts of rules that are what they read as put these rules behind those of a store, in
whatever way the texts of matchers and of formulas are mixed. -/
theorem addAll_of_mixes {matchers : List (Rule Matcher)} {formulas : List (Rule Formula)}
    {mixed : List String} (hfaithful : Faithful ⟨matchers, formulas⟩)
    (h : Mixes (matchers.map (·.text)) (formulas.map (·.text)) mixed) :
    store.addAll (mixed.map RawText.ofString) =
      (⟨store.matchers ++ matchers, store.formulas ++ formulas⟩, none) := by
  -- by the mixing, whose first text is that of the first matcher or of the first formula
  generalize hms : matchers.map (·.text) = ms at h
  generalize hfs : formulas.map (·.text) = fs at h
  induction h generalizing store matchers formulas with
  | nil =>
    obtain rfl := List.map_eq_nil_iff.mp hms
    obtain rfl := List.map_eq_nil_iff.mp hfs
    rw [List.append_nil, List.append_nil]
    rfl
  | left _ ih =>
    obtain ⟨rule, matchers, rfl, rfl, hbehind⟩ := List.map_eq_cons_iff.mp hms
    have hread := hfaithful.matchers rule List.mem_cons_self
    have hadd : store.add rule.text = .ok (store.push (.matcher rule)) :=
      add_of_ok (Entry.ofText_text_of_matcher hread)
    have hrest : Faithful ⟨matchers, formulas⟩ :=
      ⟨fun rule h => hfaithful.matchers rule (List.mem_cons_of_mem _ h), hfaithful.formulas⟩
    rw [List.map_cons, addAll_of_ok hadd, ih hrest hbehind hfs]
    show (Store.mk ((store.matchers ++ [rule]) ++ matchers) _, none) = _
    rw [List.append_assoc]
    rfl
  | right _ ih =>
    obtain ⟨rule, formulas, rfl, rfl, hbehind⟩ := List.map_eq_cons_iff.mp hfs
    have hread := hfaithful.formulas rule List.mem_cons_self
    have hadd : store.add rule.text = .ok (store.push (.formula rule)) :=
      add_of_ok (Entry.ofText_text_of_formula hread)
    have hrest : Faithful ⟨matchers, formulas⟩ :=
      ⟨hfaithful.matchers, fun rule h => hfaithful.formulas rule (List.mem_cons_of_mem _ h)⟩
    rw [List.map_cons, addAll_of_ok hadd, ih hrest hms hbehind]
    show (Store.mk _ ((store.formulas ++ [rule]) ++ formulas), none) = _
    rw [List.append_assoc]
    rfl

/-- In a session that starts from the empty store or from the base rules, the stores behind the
calls are among those at hand, each of which begins with all earlier ones. At every moment, every
rule is what its own text reads as, and the texts of the matchers and of the formulas, mixed in
whatever way, give the store back. -/
theorem session_is_replayable {start : Store} (hstart : start = empty ∨ start = base)
    (calls : List Call) :
    (calls.inits.map start.performAll).Sublist (start.during calls) ∧
      (start.during calls).Pairwise Precedes ∧
      ∀ store ∈ start.during calls, store.Faithful ∧
        ∀ mixed, Mixes (store.matchers.map (·.text)) (store.formulas.map (·.text)) mixed →
          empty.addAll (mixed.map RawText.ofString) = (store, none) := by
  refine ⟨inits_sublist_during start calls, pairwise_during start calls, ?_⟩
  intro store hmoment
  -- both starts hold only rules that were read, and no call changes that
  have hfirst : start.Faithful := by
    obtain rfl | rfl := hstart
    · exact faithful_empty
    · exact faithful_base
  have hfaithful := hfirst.of_mem_during hmoment
  exact ⟨hfaithful, fun mixed hmixed => addAll_of_mixes hfaithful hmixed⟩

end AnyLimit

/-- A list of texts with a bad one at its end leaves what stands in front of it, and its formula can
be added ahead of its matcher. -/
theorem session_is_replayable_after_failure :
    empty.addAll ["H = M => K = D", "A => H = M"] =
      (empty.performAll [.addAll ["A => H = M", "H = M => K = D", "A =>"], .report], none) := by
  have hsession := session_is_replayable (.inl rfl)
    [.addAll ["A => H = M", "H = M => K = D", "A =>"], .report]
  obtain ⟨-, hreplay⟩ := hsession.2.2 _ (performAll_mem_during empty _)
  apply hreplay ["H = M => K = D", "A => H = M"]
  have hmatchers : (empty.performAll [.addAll ["A => H = M", "H = M => K = D", "A =>"],
      .report]).matchers.map (·.text) = ["A => H = M"] := by decide +kernel
  have hformulas : (empty.performAll [.addAll ["A => H = M", "H = M => K = D", "A =>"],
      .report]).formulas.map (·.text) = ["H = M => K = D"] := by decide +kernel
  rw [hmatchers, hformulas]
  exact .right (.left .nil)

end Store

end Rulebook
