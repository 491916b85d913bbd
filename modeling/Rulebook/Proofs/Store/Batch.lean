import Rulebook.Proofs.Store.Adding

/-!
# Adding several rules at once

Adding a list of texts is adding one after the other, each as it would be added to an empty store.
Main statement: if every text is accepted alone, the store has the rules of all of them behind its
own. Otherwise it is the store behind the texts in front of the first one that is rejected, and the
error is about that whole text.
-/

namespace Rulebook.Store

variable {store : Store} {texts : List RawText} {text : RawText} {e : ParseError}

/-! ## Stores of single rules -/

/-- The store with the rules of some other stores behind its own. -/
def extendedBy (store : Store) (singles : List Store) : Store where
  matchers := store.matchers ++ singles.flatMap Store.matchers
  formulas := store.formulas ++ singles.flatMap Store.formulas

/-- A rule stands behind the others as it would stand alone. -/
theorem push_eq_extendedBy (store : Store) (entry : Entry) :
    store.push entry = store.extendedBy [empty.push entry] := by
  cases entry with
  | matcher rule => simp [push, extendedBy, empty]
  | formula rule => simp [push, extendedBy, empty]

theorem extendedBy_cons (store single : Store) (singles : List Store) :
    (store.extendedBy [single]).extendedBy singles = store.extendedBy (single :: singles) := by
  simp [extendedBy]

/-! ## One text -/

section AnyLimit

variable [Limits]

/-- Adding one text puts behind the rules of the store what it puts into an empty one, or nothing
if the text is rejected. -/
theorem add_eq_map (store : Store) (text : RawText) :
    store.add text = (empty.add text).map fun single => store.extendedBy [single] := by
  unfold add
  cases Entry.ofText text with
  | error e => rfl
  | ok entry =>
    show Except.ok (store.push entry) = .ok (store.extendedBy [empty.push entry])
    rw [push_eq_extendedBy]

/-- Whether a text is accepted is up to the text. -/
theorem exists_add_iff :
    (∃ single, empty.add text = .ok single) ↔ (Entry.ofText text).isOk := by
  unfold add
  cases Entry.ofText text with
  | error e => simp [Except.map, Except.isOk, Except.toBool]
  | ok entry => simp [Except.map, Except.isOk, Except.toBool]

/-- A text that is no rule is rejected as a whole, for what the formula rule lacks. -/
theorem Entry.ofText_eq_error (h : ofText text = .error e) :
    ∃ fault, Formula.readRule nestingLimit text.chars = .error fault ∧
      e = ⟨text, fault.expected⟩ := by
  unfold ofText at h
  split at h
  · cases h
  · split at h
    · cases h
    · rename_i fault hfault
      exact ⟨fault, hfault, (Except.error.inj h).symm⟩

/-! ## Several texts -/

/-- A list of texts is added as far as its first text that is rejected: the texts in front of it are
accepted alone, the store is the one behind them, and the error names the rejected text verbatim. It
expects shallower nesting, or what the formula rule lacks. -/
structure StopsAt (store : Store) (texts : List RawText) (k : Nat) (text : RawText)
    (e : ParseError) : Prop where
  rejected : texts[k]? = some text ∧ empty.add text = .error e
  accepted : ∀ earlier ∈ texts.take k, ∃ single, empty.add earlier = .ok single
  addAll_eq : store.addAll texts = ((store.addAll (texts.take k)).1, some e)
  error_eq :
    Formula.readRule nestingLimit text.chars = .error .tooDeep ∧ e = ⟨text, .shallowerNesting⟩ ∨
      ∃ rest expected, Formula.readRule nestingLimit text.chars =
        .error (.mismatch rest expected) ∧ e = ⟨text, expected⟩

theorem stopsAt_of_error {before after : List RawText} {entries : List Entry}
    (hbefore : Reads before entries) (htext : Entry.ofText text = .error e) :
    StopsAt store (before ++ text :: after) before.length text e where
  rejected := ⟨by simp, add_of_error htext⟩
  accepted := by
    intro earlier hearlier
    rw [List.take_left] at hearlier
    exact exists_add_iff.mpr (exists_reads_iff.mp ⟨entries, hbefore⟩ earlier hearlier)
  addAll_eq := by
    rw [List.take_left, addAll_of_error_behind hbefore htext, addAll_of_reads hbefore]
  error_eq := by
    obtain ⟨fault, hfault, rfl⟩ := Entry.ofText_eq_error htext
    cases fault with
    | tooDeep => exact .inl ⟨hfault, rfl⟩
    | mismatch rest expected => exact .inr ⟨rest, expected, hfault, rfl⟩

/-- Texts that are accepted alone add their rules one after the other. -/
theorem addAll_of_accepted (store : Store)
    (h : ∀ text ∈ texts, ∃ single, empty.add text = .ok single) :
    ∃ singles, List.Forall₂ (fun text single => empty.add text = .ok single) texts singles ∧
      store.addAll texts = (store.extendedBy singles, none) := by
  -- by the texts, each of which changes the store that the next one is added to
  induction texts generalizing store with
  | nil => exact ⟨[], .nil, by simp [addAll, extendedBy]⟩
  | cons text texts ih =>
    obtain ⟨⟨single, hsingle⟩, hrest⟩ := List.forall_mem_cons.mp h
    obtain ⟨singles, hsingles, hstore⟩ := ih (store.extendedBy [single]) hrest
    have hadd : store.add text = .ok (store.extendedBy [single]) := by
      rw [add_eq_map, hsingle]
      rfl
    refine ⟨single :: singles, .cons hsingle hsingles, ?_⟩
    rw [addAll_of_ok hadd, hstore, extendedBy_cons]

/-- If some text is not accepted alone, there is a first one. -/
theorem exists_stopsAt (store : Store)
    (h : ¬ ∀ text ∈ texts, ∃ single, empty.add text = .ok single) :
    ∃ k text e, StopsAt store texts k text e := by
  obtain ⟨entries, hreads⟩ | ⟨before, text, after, entries, e, rfl, hbefore, htext⟩ :=
    reads_or texts
  · refine absurd (fun text htext => ?_) h
    exact exists_add_iff.mpr (exists_reads_iff.mp ⟨entries, hreads⟩ text htext)
  · exact ⟨before.length, text, e, stopsAt_of_error hbefore htext⟩

/-- Texts behind others are added to the store that these give, unless one of them is rejected. -/
theorem addAll_append_eq (store : Store) (xs ys : List RawText) :
    store.addAll (xs ++ ys) =
      match store.addAll xs with
      | (next, none) => next.addAll ys
      | (next, some e) => (next, some e) := by
  induction xs generalizing store with
  | nil => rfl
  | cons text xs ih =>
    rw [List.cons_append, addAll, addAll]
    cases store.add text with
    | error e => rfl
    | ok next => exact ih next

/-- Adding several texts is adding one after the other, as far as they are accepted. One text puts
behind the rules of any store what it puts into an empty one, or nothing. All of them succeed
exactly if each is accepted by an empty store, and then the rules of these single stores stand
behind the others, in order. Otherwise the first rejected text ends it, with an error about the
whole of it. So a list in two parts is added part by part. -/
theorem addAll_adds_up_to_first_rejected :
    (∀ (store : Store) (text : RawText),
      store.add text = (empty.add text).map fun single => store.extendedBy [single]) ∧
    (∀ (store : Store) (texts : List RawText),
      ((store.addAll texts).2 = none ↔
        ∀ text ∈ texts, ∃ single, empty.add text = .ok single) ∧
      ((∀ text ∈ texts, ∃ single, empty.add text = .ok single) →
        ∃ singles, List.Forall₂ (fun text single => empty.add text = .ok single) texts singles ∧
          store.addAll texts = (store.extendedBy singles, none)) ∧
      ((¬ ∀ text ∈ texts, ∃ single, empty.add text = .ok single) →
        ∃ k text e, StopsAt store texts k text e)) ∧
    ∀ (store : Store) (xs ys : List RawText),
      store.addAll (xs ++ ys) =
        match store.addAll xs with
        | (next, none) => next.addAll ys
        | (next, some e) => (next, some e) := by
  refine ⟨add_eq_map, fun store texts => ⟨⟨fun hnone => ?_, fun h => ?_⟩,
    addAll_of_accepted store, exists_stopsAt store⟩, addAll_append_eq⟩
  · by_contra h
    obtain ⟨k, text, e, hstop⟩ := exists_stopsAt store h
    rw [hstop.addAll_eq] at hnone
    cases hnone
  · obtain ⟨singles, -, hstore⟩ := addAll_of_accepted store h
    rw [hstore]

end AnyLimit

/-- A rule without its label ends a list, whatever stands in front of it. -/
theorem addAll_adds_up_to_first_rejected_unlabelled :
    (empty.add "A => H = M").isOk ∧ ¬ (empty.add "A => H =").isOk ∧
      ∃ k text e, StopsAt base ["A => H = M", "A => H ="] k text e := by
  have haccepted : (empty.add "A => H = M").isOk = true := by decide +kernel
  have hrejected : (empty.add "A => H =").isOk = false := by decide +kernel
  refine ⟨haccepted, by simp [hrejected], ?_⟩
  apply (addAll_adds_up_to_first_rejected.2.1 base _).2.2
  intro h
  obtain ⟨single, hsingle⟩ := h "A => H =" (by simp)
  rw [hsingle] at hrejected
  cases hrejected

end Rulebook.Store
