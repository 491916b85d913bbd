import Mathlib.Data.List.Forall2
import Mathlib.Tactic.Common
import Rulebook.Store

/-!
# Adding rules one after the other

Whether a text is a rule does not depend on the store it is added to. So adding some texts comes
down to the entries that they read as, up to the first text that reads as none.
-/

namespace Rulebook.Store

variable [Limits] {store : Store} {texts before after : List RawText} {text : RawText}
  {entries : List Entry} {e : ParseError}

/-- The texts read as the entries, one by one. -/
def Reads (texts : List RawText) (entries : List Entry) : Prop :=
  List.Forall₂ (fun text entry => Entry.ofText text = .ok entry) texts entries

/-- The store with some more rules. -/
def pushAll (store : Store) (entries : List Entry) : Store :=
  entries.foldl push store

theorem add_of_ok {entry : Entry} (h : Entry.ofText text = .ok entry) :
    store.add text = .ok (store.push entry) := by
  rw [Store.add, h]
  rfl

theorem add_of_error (h : Entry.ofText text = .error e) : store.add text = .error e := by
  rw [Store.add, h]
  rfl

theorem addAll_of_ok {next : Store} (h : store.add text = .ok next) :
    store.addAll (text :: texts) = next.addAll texts := by
  rw [Store.addAll, h]

/-- A text that is rejected leaves the store as it was, and what stands behind it is not added. -/
theorem addAll_of_error (h : store.add text = .error e) :
    store.addAll (text :: texts) = (store, some e) := by
  rw [Store.addAll, h]

/-- What stands behind texts that all read is added to the store with their entries. -/
theorem addAll_append (h : Reads before entries) :
    store.addAll (before ++ after) = (store.pushAll entries).addAll after := by
  -- by the texts that read, each of which changes the store that the next one is added to
  induction h generalizing store with
  | nil => rfl
  | cons hhead _ ih =>
    rw [List.cons_append, addAll_of_ok (add_of_ok hhead)]
    exact ih

theorem addAll_of_reads (h : Reads texts entries) :
    store.addAll texts = (store.pushAll entries, none) := by
  have happend : store.addAll (texts ++ []) = (store.pushAll entries).addAll [] :=
    addAll_append h
  rwa [List.append_nil] at happend

/-- The first text that does not read ends it. -/
theorem addAll_of_error_behind (h : Reads before entries) (he : Entry.ofText text = .error e) :
    store.addAll (before ++ text :: after) = (store.pushAll entries, some e) := by
  rw [addAll_append h, addAll_of_error (add_of_error he)]

/-- Either all texts read, or there is a first one that does not. -/
theorem reads_or (texts : List RawText) :
    (∃ entries, Reads texts entries) ∨
      ∃ before text after entries e,
        texts = before ++ text :: after ∧ Reads before entries ∧ Entry.ofText text = .error e := by
  induction texts with
  | nil => exact .inl ⟨[], .nil⟩
  | cons text texts ih =>
    cases he : Entry.ofText text with
    | error e => exact .inr ⟨[], text, texts, [], e, rfl, .nil, he⟩
    | ok entry =>
      rcases ih with ⟨entries, h⟩ | ⟨before, bad, after, entries, e, rfl, h, hbad⟩
      · exact .inl ⟨entry :: entries, .cons he h⟩
      · exact .inr ⟨text :: before, bad, after, entry :: entries, e, rfl, .cons he h, hbad⟩

/-- All texts read if each of them does. -/
theorem exists_reads_iff :
    (∃ entries, Reads texts entries) ↔ ∀ text ∈ texts, (Entry.ofText text).isOk := by
  constructor
  · rintro ⟨entries, h⟩
    induction h with
    | nil => exact fun text htext => absurd htext List.not_mem_nil
    | cons hhead _ ih =>
      intro text htext
      obtain rfl | hbehind := List.mem_cons.mp htext
      · rw [hhead]
        rfl
      · exact ih text hbehind
  · intro h
    obtain hreads | ⟨before, bad, after, entries, e, rfl, -, hbad⟩ := reads_or texts
    · exact hreads
    · -- the first text that does not read would be one of those that do
      have hread := h bad (List.mem_append_right before List.mem_cons_self)
      rw [hbad] at hread
      cases hread

end Rulebook.Store
