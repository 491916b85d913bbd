import Mathlib.Data.List.Induction
import Rulebook.Proofs.Expression.Reads

/-!
# When a matcher is true

A matcher is evaluated from left to right, and one truth value is all that is kept on the way. Main
statement: it is true exactly if one of its literals carries the truth to the end, that is, a true
literal that is the head or stands behind `||`, with a true literal behind every later `&&`.

What is joined behind `||` carries the truth by itself if it is true; what is joined behind `&&`
lets it through only if it is true (`exists_carries_concat_iff`). The main statement follows over
the prefixes of a matcher.
-/

namespace Rulebook

/-! ## Values of chains whose operands have values -/

namespace Chain

variable {ω α β ε : Type} [Operator ω β] {value : α → Except ε β} {f : α → β}

theorem reduceFrom_eq_ok {tail : List (ω × α)} (h : ∀ p ∈ tail, value p.2 = .ok (f p.2)) (acc : β) :
    reduceFrom value acc tail =
      .ok (tail.foldl (fun acc p => Operator.apply p.1 acc (f p.2)) acc) := by
  induction tail generalizing acc with
  | nil => rfl
  | cons p tail ih =>
    obtain ⟨o, a⟩ := p
    have ha := h (o, a) List.mem_cons_self
    rw [reduceFrom_cons, ha, List.foldl_cons]
    exact ih (fun p hp => h p (List.mem_cons_of_mem _ hp)) _

/-- A chain whose operands all have values has a value. -/
theorem reduce_eq_ok {c : Chain ω α} (h : ∀ a ∈ c.operands, value a = .ok (f a)) :
    c.reduce value =
      .ok (c.tail.foldl (fun acc p => Operator.apply p.1 acc (f p.2)) (f c.head)) := by
  rw [reduce_eq, h c.head List.mem_cons_self]
  apply reduceFrom_eq_ok
  exact fun p hp => h p.2 (List.mem_cons_of_mem _ (List.mem_map_of_mem hp))

end Chain

/-- A literal whose name has a value has one. -/
theorem Literal.exists_value {bindings : Bindings Bool} {l : Literal}
    (h : ∀ name ∈ l.names, bindings name ≠ none) : ∃ x, l.reduce bindings = .ok x := by
  cases l with
  | const value => exact ⟨value, rfl⟩
  | var name =>
    obtain ⟨x, hx⟩ := Option.ne_none_iff_exists'.mp (h name List.mem_cons_self)
    exact ⟨x, by simp [Literal.reduce, Bindings.lookup, hx]⟩
  | negated name =>
    obtain ⟨x, hx⟩ := Option.ne_none_iff_exists'.mp (h name List.mem_cons_self)
    exact ⟨!x, by simp [Literal.reduce, Bindings.lookup, hx, Except.map]⟩

namespace Matcher

variable {bindings : Bindings Bool} {m : Matcher} {o : Connective} {l : Literal} {i j : Nat}

/-- The connective in front of a literal, by the number of the literal. The head has none. -/
def connective? (m : Matcher) : Nat → Option Connective
  | 0 => none
  | i + 1 => m.tail[i]?.map Prod.fst

/-- The truth of a matcher starts at a literal and is kept from there on: the literal is true, it is
the head or stands behind `||`, and every later literal behind `&&` is true. -/
structure Carries (m : Matcher) (bindings : Bindings Bool) (i : Nat) : Prop where
  starts : i = 0 ∨ m.connective? i = some .or
  holds : ∃ l, m.operands[i]? = some l ∧ l.reduce bindings = .ok true
  keeps : ∀ j l, i < j → m.connective? j = some .and → m.operands[j]? = some l →
    l.reduce bindings = .ok true

theorem Carries.lt (h : m.Carries bindings i) : i < m.operands.length := by
  obtain ⟨-, ⟨l, hl, -⟩, -⟩ := h
  exact (List.getElem?_eq_some_iff.mp hl).1

/-! ## One more literal -/

/-- The matcher with one more literal. -/
def concat (m : Matcher) (o : Connective) (l : Literal) : Matcher :=
  ⟨m.head, m.tail ++ [(o, l)]⟩

theorem operands_concat : (m.concat o l).operands = m.operands ++ [l] := by
  simp [concat, Chain.operands]

theorem getElem?_operands_concat_of_lt (h : j < m.operands.length) :
    (m.concat o l).operands[j]? = m.operands[j]? := by
  rw [operands_concat, List.getElem?_append_left h]

theorem getElem?_operands_concat_length :
    (m.concat o l).operands[m.operands.length]? = some l := by
  rw [operands_concat, List.getElem?_concat_length]

/-- A literal of the longer matcher is one of the matcher or the one that is joined. -/
theorem lt_or_eq_of_getElem?_concat {x : Literal} (h : (m.concat o l).operands[j]? = some x) :
    j < m.operands.length ∨ j = m.operands.length := by
  have hlt := (List.getElem?_eq_some_iff.mp h).1
  rw [operands_concat, List.length_append, List.length_singleton] at hlt
  exact Nat.lt_succ_iff_lt_or_eq.mp hlt

theorem connective?_concat_of_lt (h : j < m.operands.length) :
    (m.concat o l).connective? j = m.connective? j := by
  cases j with
  | zero => rfl
  | succ j =>
    rw [Chain.length_operands] at h
    show (m.tail ++ [(o, l)])[j]?.map Prod.fst = m.tail[j]?.map Prod.fst
    rw [List.getElem?_append_left (Nat.lt_of_succ_lt_succ h)]

theorem connective?_concat_length : (m.concat o l).connective? m.operands.length = some o := by
  rw [Chain.length_operands]
  show (m.tail ++ [(o, l)])[m.tail.length]?.map Prod.fst = some o
  rw [List.getElem?_concat_length, Option.map_some]

/-- A literal of the matcher carries the truth on, unless a false one is joined by `&&`. -/
theorem carries_concat_of_lt_iff (h : i < m.operands.length) :
    (m.concat o l).Carries bindings i ↔
      m.Carries bindings i ∧ (o = .and → l.reduce bindings = .ok true) := by
  constructor
  · rintro ⟨hstarts, hholds, hkeeps⟩
    rw [connective?_concat_of_lt h] at hstarts
    rw [getElem?_operands_concat_of_lt h] at hholds
    refine ⟨⟨hstarts, hholds, fun j x hij hj hx => ?_⟩, fun ho => ?_⟩
    · have hlt := (List.getElem?_eq_some_iff.mp hx).1
      apply hkeeps j x hij
      · rw [connective?_concat_of_lt hlt, hj]
      · rw [getElem?_operands_concat_of_lt hlt, hx]
    · apply hkeeps m.operands.length l h
      · rw [connective?_concat_length, ho]
      · exact getElem?_operands_concat_length
  · rintro ⟨⟨hstarts, hholds, hkeeps⟩, hand⟩
    rw [← connective?_concat_of_lt h] at hstarts
    rw [← getElem?_operands_concat_of_lt h] at hholds
    refine ⟨hstarts, hholds, fun j x hij hj hx => ?_⟩
    rcases lt_or_eq_of_getElem?_concat hx with hlt | rfl
    · rw [connective?_concat_of_lt hlt] at hj
      rw [getElem?_operands_concat_of_lt hlt] at hx
      exact hkeeps j x hij hj hx
    · rw [connective?_concat_length] at hj
      rw [getElem?_operands_concat_length] at hx
      obtain rfl := Option.some.inj hx
      exact hand (Option.some.inj hj)

/-- The literal that is joined carries the truth by itself if it is true and stands behind `||`. -/
theorem carries_concat_length_iff :
    (m.concat o l).Carries bindings m.operands.length ↔ o = .or ∧ l.reduce bindings = .ok true := by
  constructor
  · rintro ⟨hstarts, ⟨x, hx, htrue⟩, -⟩
    rw [getElem?_operands_concat_length] at hx
    obtain rfl := Option.some.inj hx
    rw [connective?_concat_length] at hstarts
    rcases hstarts with hzero | ho
    · rw [Chain.length_operands] at hzero
      exact absurd hzero (Nat.succ_ne_zero _)
    · exact ⟨Option.some.inj ho, htrue⟩
  · rintro ⟨rfl, htrue⟩
    refine ⟨.inr connective?_concat_length, ⟨l, getElem?_operands_concat_length, htrue⟩,
      fun j x hij _ hx => ?_⟩
    -- nothing stands behind the last literal
    rcases lt_or_eq_of_getElem?_concat hx with hlt | rfl
    · exact absurd hij (Nat.lt_asymm hlt)
    · exact absurd hij (Nat.lt_irrefl _)

/-- What one more literal does to the truth. -/
theorem exists_carries_concat_iff :
    (∃ i, (m.concat o l).Carries bindings i) ↔
      match o with
      | .and => (∃ i, m.Carries bindings i) ∧ l.reduce bindings = .ok true
      | .or => (∃ i, m.Carries bindings i) ∨ l.reduce bindings = .ok true := by
  constructor
  · rintro ⟨i, hi⟩
    obtain ⟨x, hx, -⟩ := hi.holds
    rcases lt_or_eq_of_getElem?_concat hx with hlt | rfl
    · obtain ⟨hm, hand⟩ := (carries_concat_of_lt_iff hlt).mp hi
      cases o with
      | and => exact ⟨⟨i, hm⟩, hand rfl⟩
      | or => exact .inl ⟨i, hm⟩
    · obtain ⟨rfl, htrue⟩ := carries_concat_length_iff.mp hi
      exact .inr htrue
  · intro h
    cases o with
    | and =>
      obtain ⟨⟨i, hm⟩, htrue⟩ := h
      exact ⟨i, (carries_concat_of_lt_iff hm.lt).mpr ⟨hm, fun _ => htrue⟩⟩
    | or =>
      rcases h with ⟨i, hm⟩ | htrue
      · exact ⟨i, (carries_concat_of_lt_iff hm.lt).mpr ⟨hm, nofun⟩⟩
      · exact ⟨_, carries_concat_length_iff.mpr ⟨rfl, htrue⟩⟩

/-! ## The whole matcher -/

theorem carries_single_iff : (∃ i, Carries ⟨l, []⟩ bindings i) ↔
    l.reduce bindings = .ok true := by
  constructor
  · rintro ⟨i, -, ⟨x, hx, htrue⟩, -⟩
    obtain rfl := List.mem_singleton.mp (List.mem_of_getElem? hx)
    exact htrue
  · intro htrue
    refine ⟨0, .inl rfl, ⟨l, rfl, htrue⟩, fun j x hj hand _ => ?_⟩
    -- there is no connective at all
    cases j with
    | zero => exact absurd hj (Nat.lt_irrefl 0)
    | succ j => simp [connective?] at hand

/-- Whether a literal has a value and is true. -/
def isTrue (bindings : Bindings Bool) (l : Literal) : Bool :=
  l.reduce bindings = .ok true

theorem foldl_eq_true_iff (head : Literal) (tail : List (Connective × Literal)) :
    tail.foldl (fun acc p => Operator.apply p.1 acc (isTrue bindings p.2)) (isTrue bindings head) =
      true ↔ ∃ i, Carries ⟨head, tail⟩ bindings i := by
  -- by the prefixes, each of which has one more pair at its end
  induction tail using List.reverseRecOn with
  | nil => exact decide_eq_true_iff.trans carries_single_iff.symm
  | append_singleton tail p ih =>
    obtain ⟨o, l⟩ := p
    rw [List.foldl_append, List.foldl_cons, List.foldl_nil]
    refine Iff.trans ?_ (exists_carries_concat_iff (m := ⟨head, tail⟩)).symm
    cases o with
    | and => exact (Bool.and_eq_true _ _).to_iff.trans (and_congr ih decide_eq_true_iff)
    | or => exact (Bool.or_eq_true _ _).to_iff.trans (or_congr ih decide_eq_true_iff)

/-- A matcher whose names all have values has a value itself, and is true exactly if one of its
literals carries the truth to the end. So neither connective binds tighter than the other. -/
theorem reduce_eq_true_iff_carries (m : Matcher) (bindings : Bindings Bool)
    (hbound : ∀ name ∈ m.names, bindings name ≠ none) :
    ∃ value, m.reduce bindings = .ok value ∧
      (value = true ↔ ∃ i, m.Carries bindings i) := by
  have hvalue : ∀ l ∈ m.operands, l.reduce bindings = .ok (isTrue bindings l) := by
    intro l hl
    obtain ⟨x, hx⟩ := Literal.exists_value fun name hname =>
      hbound name (List.mem_flatMap.mpr ⟨l, hl, hname⟩)
    cases x <;> simp [isTrue, hx]
  exact ⟨_, Chain.reduce_eq_ok hvalue, foldl_eq_true_iff m.head m.tail⟩

/-- In `A || B && C` the true `A` does not carry the truth past a false `C`. -/
theorem reduce_eq_true_iff_carries_past_and :
    (∀ name ∈ Matcher.names ⟨.var "A", [(.or, .var "B"), (.and, .var "C")]⟩,
      some (decide (name ≠ "C")) ≠ none) ∧
    ¬ ∃ i, Matcher.Carries ⟨.var "A", [(.or, .var "B"), (.and, .var "C")]⟩
      (fun name => some (decide (name ≠ "C"))) i := by
  have hbound : ∀ name ∈ Matcher.names ⟨.var "A", [(.or, .var "B"), (.and, .var "C")]⟩,
      some (decide (name ≠ "C")) ≠ none := fun _ _ => Option.some_ne_none _
  refine ⟨hbound, ?_⟩
  obtain ⟨value, hvalue, hiff⟩ := reduce_eq_true_iff_carries _ _ hbound
  have hfalse : Matcher.reduce (fun name => some (decide (name ≠ "C")))
      ⟨.var "A", [(.or, .var "B"), (.and, .var "C")]⟩ = .ok false := rfl
  obtain rfl := Except.ok.inj (hvalue.symm.trans hfalse)
  simpa using hiff

end Matcher

end Rulebook
