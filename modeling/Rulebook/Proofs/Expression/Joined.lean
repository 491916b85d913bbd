import Rulebook.Proofs.Matcher.Rule
import Rulebook.Proofs.Nesting.Written

/-!
# Joined texts

What an operator between two whole texts makes of their expressions. Main statement: with an
operator of the outer level the two chains stand in a row; with `*` or `/` the last term of the
first formula and the first term of the second one become one term, since these bind tighter; and
between texts in parentheses the operator is applied to the two values.

The texts are put together without a blank. That no token of the first one goes on into the
operator, nor the operator into the second one, is part of reading written texts back.
-/

namespace Rulebook

open Text

/-! ## Joined chains -/

namespace Chain

variable {ω α β ε : Type}

/-- The operands of one chain, an operator, and the operands of another chain. -/
def join (c : Chain ω α) (o : ω) (d : Chain ω α) : Chain ω α :=
  ⟨c.head, c.tail ++ (o, d.head) :: d.tail⟩

/-- One chain behind another, with the last operand of the first one and the first operand of the
second one glued together. -/
def fuse (glue : α → α → α) (c d : Chain ω α) : Chain ω α :=
  match c.tail.getLast? with
  | none => ⟨glue c.head d.head, d.tail⟩
  | some (o, a) => ⟨c.head, c.tail.dropLast ++ (o, glue a d.head) :: d.tail⟩

/-- Only the last operand of the first chain is glued. -/
theorem fuse_cons (glue : α → α → α) (a : α) (o : ω) (c d : Chain ω α) :
    (cons a o c).fuse glue d = cons a o (c.fuse glue d) := by
  obtain ⟨head, tail⟩ := c
  cases tail with
  | nil => rfl
  | cons p tail =>
    -- with a pair behind the new one, the last pair stays the last
    unfold fuse cons
    simp only [List.getLast?_cons, Option.getD_some, List.dropLast_cons_of_ne_nil,
      ne_eq, reduceCtorEq, not_false_eq_true, List.cons_append]

variable [Operator ω β]

theorem reduce_pair (value : α → Except ε β) (a : α) (o : ω) (b : α) :
    (⟨a, [(o, b)]⟩ : Chain ω α).reduce value = do
      return Operator.apply o (← value a) (← value b) := by
  rw [reduce_eq]
  cases value a with
  | error fault => rfl
  | ok x =>
    simp only [reduceFrom_cons]
    cases value b with
    | error fault => rfl
    | ok y => rfl

variable {writes : List Char → α → Prop} {w v : List Char} {c d : Chain ω α}

theorem WritesTail.append {first second : List (ω × α)} (h : WritesTail writes w first)
    (hv : WritesTail writes v second) : WritesTail writes (w ++ v) (first ++ second) := by
  induction h with
  | nil => exact hv
  | cons ha _ ih =>
    rw [List.append_assoc, List.append_assoc]
    exact .cons ha ih

/-- Two written chains with an operator between them write the chain of both. -/
theorem Writes.join (hc : Writes writes w c) (hd : Writes writes v d) (o : ω) :
    Writes writes (w ++ (Operator.token o).toList ++ v) (c.join o d) := by
  obtain ⟨hhead, htail⟩ := hc
  obtain ⟨hhead', htail'⟩ := hd
  rw [List.append_assoc, List.append_assoc]
  exact .mk hhead (htail.append (.cons hhead' htail'))

/-- So do two chains with a text between them that glues operands together. -/
theorem Writes.fuse {glue : α → α → α} {middle : List Char}
    (hglue : ∀ {w v a b}, writes w a → writes v b → writes (w ++ middle ++ v) (glue a b))
    (hc : Writes writes w c) (hd : Writes writes v d) :
    Writes writes (w ++ middle ++ v) (c.fuse glue d) := by
  obtain ⟨head, tail⟩ := c
  -- by the pairs behind the head, each of which becomes the head of the rest
  induction tail generalizing head w with
  | nil =>
    obtain ⟨hhead, htail⟩ := hc
    obtain ⟨hhead', htail'⟩ := hd
    cases htail
    rw [List.append_nil, ← List.append_assoc]
    exact .mk (hglue hhead hhead') htail'
  | cons pair tail ih =>
    obtain ⟨hhead, htail⟩ := hc
    obtain _ | @⟨o, a, u, s, _, ha, hs⟩ := htail
    have hrest := writes_cons (o := o) hhead (ih a (.mk ha hs))
    have hcons := fuse_cons glue head o ⟨a, tail⟩ d
    rw [cons] at hcons
    rw [hcons]
    simpa using hrest

end Chain

/-! ## Formulas in parentheses -/

/-- A text with parentheses around it. -/
def Text.parenthesized (w : List Char) : List Char :=
  '(' :: (w ++ [')'])

namespace Formula

variable {limit : Nat} {s t w v : List Char} {d e : Formula} {bindings : Bindings Float}

/-- A formula with parentheses around it. -/
def enclosed (e : Formula) : Formula :=
  ⟨⟨.parens e, []⟩, []⟩

/-- A formula that is read as a whole has its value within the limit. -/
theorem reduce_of_complete_read (h : (Formula.read limit).complete s = .ok e) :
    e.reduce bindings limit = e.reduceFreely bindings :=
  reduce_eq_reduceFreely (writesWithin_iff.mp (complete_read_iff.mp h)).2

/-- Below the limit there is room for one more pair of parentheses. -/
theorem WritesWithin.enclosed (h : WritesWithin limit w e) (hlt : e.nesting < limit) :
    WritesWithin limit (Text.parenthesized w) e.enclosed := by
  have hfactor : Factor.Writes ([] ++ '(' :: (w ++ ')' :: [])) (.parens e) :=
    .parens nofun (writesWithin_iff.mp h).1 nofun
  -- the parentheses count one level more than what stands in them
  have hwithin : Factor.WritesWithin limit (Text.parenthesized w) (.parens e) := by
    refine ⟨hfactor, ?_⟩
    rw [Factor.nesting_parens]
    omega
  exact Chain.writes_single (Chain.writes_single hwithin)

/-- With `*` or `/` between two texts the terms on both sides of it are one. -/
theorem WritesWithin.fuse (hd : WritesWithin limit w d) (he : WritesWithin limit v e)
    (o : Multiplicative) :
    WritesWithin limit (w ++ (Operator.token o).toList ++ v)
      (d.fuse (fun u u' => u.join o u') e) :=
  Chain.Writes.fuse (fun hu hu' => Chain.Writes.join hu hu' o) hd he

/-! ## Values of formulas in parentheses -/

theorem reduceFreely_enclosed : e.enclosed.reduceFreely bindings = e.reduceFreely bindings := by
  unfold enclosed
  rw [reduceFreely, Chain.reduce_nil, Term.reduceFreely, Chain.reduce_nil,
    Factor.reduceFreely_parens]

theorem reduceFreely_join_enclosed (o : Additive) :
    Formula.reduceFreely bindings (d.enclosed.join o e.enclosed) = do
      return Operator.apply o (← d.reduceFreely bindings) (← e.reduceFreely bindings) := by
  have hterm : ∀ e : Formula,
      Term.reduceFreely bindings ⟨.parens e, []⟩ = e.reduceFreely bindings := by
    intro e
    rw [Term.reduceFreely, Chain.reduce_nil, Factor.reduceFreely_parens]
  show Chain.reduce (Term.reduceFreely bindings) ⟨⟨.parens d, []⟩, [(o, ⟨.parens e, []⟩)]⟩ = _
  rw [Chain.reduce_pair, hterm, hterm]

theorem reduceFreely_fuse_enclosed (o : Multiplicative) :
    Formula.reduceFreely bindings (d.enclosed.fuse (fun u v => u.join o v) e.enclosed) = do
      return Operator.apply o (← d.reduceFreely bindings) (← e.reduceFreely bindings) := by
  show Chain.reduce (Term.reduceFreely bindings) ⟨⟨.parens d, [(o, .parens e)]⟩, []⟩ = _
  rw [Chain.reduce_nil, Term.reduceFreely, Chain.reduce_pair, Factor.reduceFreely_parens,
    Factor.reduceFreely_parens]

end Formula

/-! ## Joined texts -/

/-- What is read as a whole from two texts with an operator between them. For two formulas it is
their terms in a row if the operator is `+` or `-`; if it is `*` or `/`, the last term of the first
formula and the first term of the second one become one term. If both are in parentheses, which the
limit has to leave room for, the operator is applied to their values, and the error of the first one
comes first; parentheses around a single formula keep its value. For two matchers it is their
literals in a row. -/
theorem joined_texts_compose :
    (∀ limit s t d e, (Formula.read limit).complete s = .ok d →
      (Formula.read limit).complete t = .ok e →
      (∀ o : Additive,
        (Formula.read limit).complete (s ++ (Operator.token o).toList ++ t) =
          .ok (d.join o e)) ∧
      (∀ o : Multiplicative,
        (Formula.read limit).complete (s ++ (Operator.token o).toList ++ t) =
          .ok (d.fuse (fun u v => u.join o v) e)) ∧
      (d.nesting < limit →
        ∃ p, (Formula.read limit).complete (parenthesized s) = .ok p ∧
          ∀ bindings, p.reduce bindings limit = d.reduce bindings limit) ∧
      (d.nesting < limit → e.nesting < limit →
        (∀ o : Additive,
          ∃ p, (Formula.read limit).complete
              (parenthesized s ++ (Operator.token o).toList ++ parenthesized t) = .ok p ∧
            ∀ bindings, p.reduce bindings limit = do
              return Operator.apply o (← d.reduce bindings limit) (← e.reduce bindings limit)) ∧
        ∀ o : Multiplicative,
          ∃ p, (Formula.read limit).complete
              (parenthesized s ++ (Operator.token o).toList ++ parenthesized t) = .ok p ∧
            ∀ bindings, p.reduce bindings limit = do
              return Operator.apply o (← d.reduce bindings limit)
                (← e.reduce bindings limit))) ∧
    ∀ s t d e, Matcher.read.complete s = .ok d → Matcher.read.complete t = .ok e →
      ∀ o : Connective,
        Matcher.read.complete (s ++ (Operator.token o).toList ++ t) = .ok (d.join o e) := by
  refine ⟨fun limit s t d e hs ht => ?_, fun s t d e hs ht o => ?_⟩
  · have hd := Formula.complete_read_iff.mp hs
    have he := Formula.complete_read_iff.mp ht
    refine ⟨fun o => ?_, fun o => ?_, fun hlt => ?_, fun hlt hlt' => ⟨fun o => ?_, fun o => ?_⟩⟩
    · exact Formula.complete_read_iff.mpr (Chain.Writes.join hd he o)
    · exact Formula.complete_read_iff.mpr (hd.fuse he o)
    · have hp := Formula.complete_read_iff.mpr (hd.enclosed hlt)
      refine ⟨d.enclosed, hp, fun bindings => ?_⟩
      rw [Formula.reduce_of_complete_read hp, Formula.reduce_of_complete_read hs,
        Formula.reduceFreely_enclosed]
    · -- the laws for the outer operators, at the two texts in parentheses
      have hp := Formula.complete_read_iff.mpr
        (Chain.Writes.join (hd.enclosed hlt) (he.enclosed hlt') o)
      refine ⟨_, hp, fun bindings => ?_⟩
      rw [Formula.reduce_of_complete_read hp, Formula.reduce_of_complete_read hs,
        Formula.reduce_of_complete_read ht, Formula.reduceFreely_join_enclosed]
    · have hp := Formula.complete_read_iff.mpr ((hd.enclosed hlt).fuse (he.enclosed hlt') o)
      refine ⟨_, hp, fun bindings => ?_⟩
      rw [Formula.reduce_of_complete_read hp, Formula.reduce_of_complete_read hs,
        Formula.reduce_of_complete_read ht, Formula.reduceFreely_fuse_enclosed]
  · have hd := Matcher.complete_read_iff.mp hs
    have he := Matcher.complete_read_iff.mp ht
    exact Matcher.complete_read_iff.mpr (Chain.Writes.join hd he o)

/-- `A+B` and `C*D` with `*` between them are `A+B*C*D`. -/
theorem joined_texts_compose_product :
    (Formula.read 0).complete "A+B".toList =
        .ok ⟨⟨.var "A", []⟩, [(.add, ⟨.var "B", []⟩)]⟩ ∧
      (Formula.read 0).complete "C*D".toList = .ok ⟨⟨.var "C", [(.multiply, .var "D")]⟩, []⟩ ∧
      (Formula.read 0).complete "A+B*C*D".toList =
        .ok ⟨⟨.var "A", []⟩,
          [(.add, ⟨.var "B", [(.multiply, .var "C"), (.multiply, .var "D")]⟩)]⟩ := by
  have hs : (Formula.read 0).complete "A+B".toList =
      .ok ⟨⟨.var "A", []⟩, [(.add, ⟨.var "B", []⟩)]⟩ := by with_unfolding_all rfl
  have ht : (Formula.read 0).complete "C*D".toList =
      .ok ⟨⟨.var "C", [(.multiply, .var "D")]⟩, []⟩ := by with_unfolding_all rfl
  exact ⟨hs, ht, (joined_texts_compose.1 0 _ _ _ _ hs ht).2.1 .multiply⟩

end Rulebook
