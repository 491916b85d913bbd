import Rulebook.Proofs.Expression.Reads
import Rulebook.Proofs.Matcher.Rule
import Rulebook.Proofs.Text.Pieces

/-!
# Names in place of constants

A negation is carried out at two times: in front of a constant when the text is read, in front of a
name when the matcher is reduced. Main statement: both come to the same. Two names stand in for the
constants of a text; the text with these names is a matcher as well, and where the names have the
values of the constants it has the outcome of the first one, be that a value or the variable that is
missed.
-/

namespace Rulebook

open Text

/-! ## Replacing constants -/

/-- The piece of a text with a name in place of a constant. -/
def standIn (t f : String) (piece : List Char) : List Char :=
  if piece = "true".toList then t.toList
  else if piece = "false".toList then f.toList
  else piece

theorem standIn_of_ne {t f : String} {piece : List Char} (htrue : piece ≠ "true".toList)
    (hfalse : piece ≠ "false".toList) : standIn t f piece = piece :=
  (if_neg htrue).trans (if_neg hfalse)

theorem standIn_singleton (t f : String) (c : Char) : standIn t f [c] = [c] :=
  standIn_of_ne (by simp) (by simp)

/-- Two names that a text can have in place of the constants: other words than these, and none of
the words of the text. -/
structure StandIns (t f : String) (s : List Char) : Prop where
  word_true : Word t.toList
  word_false : Word f.toList
  true_not_constant : t ≠ "true" ∧ t ≠ "false"
  false_not_constant : f ≠ "true" ∧ f ≠ "false"
  ne : t ≠ f
  true_new : t.toList ∉ pieces s
  false_new : f.toList ∉ pieces s

/-- Bindings in which two names have the values of the constants. -/
def Bindings.withConstants (bindings : Bindings Bool) (t f : String) : Bindings Bool :=
  Function.update (Function.update bindings t (some true)) f (some false)

namespace Bindings

variable {bindings : Bindings Bool} {t f name : String}

theorem lookup_withConstants_true (h : t ≠ f) :
    (bindings.withConstants t f).lookup t = .ok true := by
  unfold lookup withConstants
  rw [Function.update_of_ne h, Function.update_self]

theorem lookup_withConstants_false : (bindings.withConstants t f).lookup f = .ok false := by
  unfold lookup withConstants
  rw [Function.update_self]

theorem lookup_withConstants_of_ne (ht : name ≠ t) (hf : name ≠ f) :
    (bindings.withConstants t f).lookup name = bindings.lookup name := by
  unfold lookup withConstants
  rw [Function.update_of_ne hf, Function.update_of_ne ht]

end Bindings

/-! ## Literals -/

/-- A name that is no constant is a literal, whose value a negation inverts. -/
theorem Literal.exists_denotes {name : String} (htrue : name ≠ "true") (hfalse : name ≠ "false")
    (negation : Bool) :
    ∃ l, Literal.Denotes negation name.toList l ∧
      ∀ bindings, l.reduce bindings = (bindings.lookup name).map (negation ^^ ·) := by
  have htrue' : name.toList ≠ "true".toList := fun h => htrue (String.toList_inj.mp h)
  have hfalse' : name.toList ≠ "false".toList := fun h => hfalse (String.toList_inj.mp h)
  cases negation with
  | false =>
    refine ⟨_, .var htrue' hfalse', fun bindings => ?_⟩
    cases h : bindings.lookup name <;> simp [Literal.reduce, h, Except.map]
  | true => exact ⟨_, .negated htrue' hfalse', fun bindings => by simp [Literal.reduce]⟩

theorem Connective.wordless_token (o : Connective) : Wordless (Operator.token o).toList := by
  cases o <;> decide

/-- Behind a literal no word goes on. -/
theorem Literal.stops_of_writesTail {s : List Char} {tail : List (Connective × Literal)}
    (h : Chain.WritesTail Literal.Writes s tail) : Stops Char.isAlpha s := by
  cases h with
  | nil => exact stops_nil
  | @cons o l w s tail hl htail => cases o <;> exact stops_cons.mpr (by decide)

namespace StandIns

variable {t f : String} {s s' w : List Char} {l : Literal} {negation : Bool}

theorem mono (h : StandIns t f s) (hsub : pieces s' ⊆ pieces s) : StandIns t f s' :=
  { h with
    true_new := fun hmem => h.true_new (hsub hmem)
    false_new := fun hmem => h.false_new (hsub hmem) }

theorem ne_true (h : StandIns t f s) (hw : w ∈ pieces s) : String.ofList w ≠ t := by
  rintro rfl
  exact h.true_new (by simpa using hw)

theorem ne_false (h : StandIns t f s) (hw : w ∈ pieces s) : String.ofList w ≠ f := by
  rintro rfl
  exact h.false_new (by simpa using hw)

theorem word_standIn (h : StandIns t f s) (hw : Word w) : Word (standIn t f w) := by
  unfold standIn
  split
  · exact h.word_true
  · split
    · exact h.word_false
    · exact hw

/-- A name in place of a constant, with or without a negation, has the value of the constant; any
other name keeps its own. -/
theorem denotes (h : StandIns t f s) (hw : w ∈ pieces s) (hl : Literal.Denotes negation w l) :
    ∃ l', Literal.Denotes negation (standIn t f w) l' ∧
      ∀ bindings : Bindings Bool, l'.reduce (bindings.withConstants t f) = l.reduce bindings := by
  cases hl with
  | true =>
    -- the negation of the constant has been carried out, that of the name is still to come
    obtain ⟨l', hl', hreduce⟩ :=
      Literal.exists_denotes h.true_not_constant.1 h.true_not_constant.2 negation
    refine ⟨l', hl', fun bindings => ?_⟩
    rw [hreduce, Bindings.lookup_withConstants_true h.ne]
    cases negation <;> rfl
  | false =>
    obtain ⟨l', hl', hreduce⟩ :=
      Literal.exists_denotes h.false_not_constant.1 h.false_not_constant.2 negation
    refine ⟨l', hl', fun bindings => ?_⟩
    rw [hreduce, Bindings.lookup_withConstants_false]
    cases negation <;> rfl
  | var htrue hfalse =>
    rw [standIn_of_ne htrue hfalse]
    refine ⟨_, .var htrue hfalse, fun bindings => ?_⟩
    exact Bindings.lookup_withConstants_of_ne (h.ne_true hw) (h.ne_false hw)
  | negated htrue hfalse =>
    rw [standIn_of_ne htrue hfalse]
    refine ⟨_, .negated htrue hfalse, fun bindings => ?_⟩
    exact congrArg (Except.map (!·))
      (Bindings.lookup_withConstants_of_ne (h.ne_true hw) (h.ne_false hw))

/-! ## Texts -/

/-- A text that writes a literal writes one with the names in it. -/
theorem literal_writes (h : StandIns t f s) (hl : Literal.Writes s l) :
    ∃ l', Literal.Writes (replace (standIn t f) s) l' ∧
      ∀ bindings : Bindings Bool, l'.reduce (bindings.withConstants t f) = l.reduce bindings := by
  obtain @⟨b, w, b', negation, _, hb, hw, hb', hl⟩ := hl
  have hnegation : Wordless (Literal.negationText negation) := by cases negation <;> decide
  -- the word is a piece of its own, with blanks or the sign of negation on both sides
  have hmem : w ∈ pieces (b ++ (Literal.negationText negation ++ (w ++ b'))) := by
    rw [hb.wordless.pieces_append, hnegation.pieces_append, pieces_append hb'.wordless.stops,
      hw.pieces_eq]
    simp
  obtain ⟨l', hl', hreduce⟩ := h.denotes hmem hl
  refine ⟨l', ?_, hreduce⟩
  rw [hb.wordless.replace_append (standIn_singleton t f),
    hnegation.replace_append (standIn_singleton t f), replace_append hb'.wordless.stops,
    hw.replace_eq, hb'.wordless.replace_eq (standIn_singleton t f)]
  exact .mk hb (h.word_standIn hw) hb' hl'

/-- A text that writes the literals behind the head writes some with the names in it, which go on
from every value as the first ones do. -/
theorem writesTail (h : StandIns t f s) {tail : List (Connective × Literal)}
    (htail : Chain.WritesTail Literal.Writes s tail) :
    ∃ tail' : List (Connective × Literal),
      Chain.WritesTail Literal.Writes (replace (standIn t f) s) tail' ∧
      ∀ (bindings : Bindings Bool) (acc : Bool),
        Chain.reduceFrom (Literal.reduce (bindings.withConstants t f)) acc tail' =
          Chain.reduceFrom (Literal.reduce bindings) acc tail := by
  -- by the pairs; a piece of a part is one of the whole, so that the names are new in every part
  induction htail with
  | nil => exact ⟨[], .nil, fun _ _ => rfl⟩
  | @cons o l w s tail hl htail ih =>
    have htoken := o.wordless_token
    have hstops := Literal.stops_of_writesTail htail
    have hpieces : pieces ((Operator.token o).toList ++ (w ++ s)) =
        pieces (Operator.token o).toList ++ (pieces w ++ pieces s) := by
      rw [htoken.pieces_append, pieces_append hstops]
    have hword : StandIns t f w := h.mono (by simp [hpieces])
    have hs : StandIns t f s := h.mono (by simp [hpieces])
    obtain ⟨l', hl', hhead⟩ := hword.literal_writes hl
    obtain ⟨tail', htail', hrest⟩ := ih hs
    refine ⟨(o, l') :: tail', ?_, fun bindings acc => ?_⟩
    · rw [htoken.replace_append (standIn_singleton t f), replace_append hstops]
      exact .cons hl' htail'
    · rw [Chain.reduceFrom_cons, Chain.reduceFrom_cons, hhead]
      cases l.reduce bindings with
      | error fault => rfl
      | ok x => exact hrest bindings _

/-- A text that writes a matcher writes one with the names in it, with the same outcome. -/
theorem matcher_writes (h : StandIns t f s) {m : Matcher} (hm : Matcher.Writes s m) :
    ∃ m' : Matcher, Matcher.Writes (replace (standIn t f) s) m' ∧
      ∀ bindings : Bindings Bool,
        m'.reduce (bindings.withConstants t f) = m.reduce bindings := by
  obtain @⟨l, tail, w, s, hl, htail⟩ := hm
  have hstops := Literal.stops_of_writesTail htail
  have hword : StandIns t f w := h.mono (by simp [pieces_append hstops])
  have hs : StandIns t f s := h.mono (by simp [pieces_append hstops])
  obtain ⟨l', hl', hhead⟩ := hword.literal_writes hl
  obtain ⟨tail', htail', hrest⟩ := hs.writesTail htail
  refine ⟨⟨l', tail'⟩, ?_, fun bindings => ?_⟩
  · rw [replace_append hstops]
    exact .mk hl' htail'
  · rw [Matcher.reduce, Matcher.reduce, Chain.reduce_eq, Chain.reduce_eq]
    simp only [hhead]
    cases l.reduce bindings with
    | error fault => rfl
    | ok x => exact hrest bindings x

end StandIns

/-! ## Constants are no names -/

/-- No literal that a text writes is a variable with the name of a constant. -/
theorem Literal.Writes.names_ne {s : List Char} {l : Literal} (h : Literal.Writes s l) :
    ∀ name ∈ l.names, name ≠ "true" ∧ name ≠ "false" := by
  have hname : ∀ {w : List Char}, w ≠ "true".toList → w ≠ "false".toList →
      String.ofList w ≠ "true" ∧ String.ofList w ≠ "false" := fun htrue hfalse =>
    ⟨fun h => htrue (by rw [← h, String.toList_ofList]),
      fun h => hfalse (by rw [← h, String.toList_ofList])⟩
  obtain @⟨_, _, _, _, _, _, _, _, hl⟩ := h
  cases hl with
  | true => simp [names]
  | false => simp [names]
  | var htrue hfalse => simpa [names] using hname htrue hfalse
  | negated htrue hfalse => simpa [names] using hname htrue hfalse

namespace Matcher

/-- No matcher that is read has a variable with the name of a constant. -/
theorem names_ne_of_run_read {s rest : List Char} {m : Matcher}
    (h : Matcher.read.run s = .ok (m, rest)) :
    ∀ name ∈ m.names, name ≠ "true" ∧ name ≠ "false" := by
  obtain ⟨w, hw, -⟩ := writes_of_run_read h
  have hoperands := Chain.Writes.forall_mem (fun _ _ hl => Literal.Writes.names_ne hl) hw
  intro name hname
  obtain ⟨l, hl, hname⟩ := List.mem_flatMap.mp hname
  exact hoperands l hl name hname

/-- Carrying out negations of constants while reading agrees with inverting values while reducing.

If a text is read as a matcher, it is also read with two new names in place of the constants, each
behind the negation that the constant had; and wherever the names have the values of the constants,
both matchers have the same outcome. The constants are no names of what is read, so that no value
for them changes anything. -/
theorem folding_agrees_with_inverting :
    (∀ (s : List Char) (m : Matcher) (t f : String), Matcher.read.complete s = .ok m →
      StandIns t f s →
      ∃ m' : Matcher, Matcher.read.complete (replace (standIn t f) s) = .ok m' ∧
        ∀ bindings : Bindings Bool,
          m'.reduce (bindings.withConstants t f) = m.reduce bindings) ∧
    ∀ (s rest : List Char) (m : Matcher), Matcher.read.run s = .ok (m, rest) →
      ∀ name ∈ ["true", "false"],
        Literal.var name ∉ m.operands ∧ Literal.negated name ∉ m.operands ∧
        ∀ (bindings : Bindings Bool) (value : Option Bool),
          m.reduce (Function.update bindings name value) = m.reduce bindings := by
  refine ⟨fun s m t f hread h => ?_, fun s rest m hread name hname => ?_⟩
  · obtain ⟨m', hm', hreduce⟩ := h.matcher_writes (complete_read_iff.mp hread)
    exact ⟨m', complete_read_iff.mpr hm', hreduce⟩
  · -- the names of a matcher are those of its literals, and its outcome depends on no others
    have hnew : name ∉ m.names := by
      intro hmem
      obtain ⟨htrue, hfalse⟩ := names_ne_of_run_read hread name hmem
      rcases List.mem_pair.mp hname with rfl | rfl
      · exact htrue rfl
      · exact hfalse rfl
    refine ⟨fun hl => hnew ?_, fun hl => hnew ?_, fun bindings value => ?_⟩
    · exact List.mem_flatMap.mpr ⟨_, hl, List.mem_singleton_self name⟩
    · exact List.mem_flatMap.mpr ⟨_, hl, List.mem_singleton_self name⟩
    · apply m.readsOnly.congr
      intro other hother
      have hne : other ≠ name := fun heq => hnew (heq ▸ hother)
      exact Function.update_of_ne hne _ _

/-- The constant behind a negation, and a word that only begins with one. -/
theorem folding_agrees_with_inverting_behind_negation :
    Matcher.read.complete "!true || trueish".toList =
        .ok ⟨.const false, [(.or, .var "trueish")]⟩ ∧
      StandIns "T" "F" "!true || trueish".toList ∧
      (∃ m' : Matcher, Matcher.read.complete "!T || trueish".toList = .ok m' ∧
        ∀ bindings : Bindings Bool, m'.reduce (bindings.withConstants "T" "F") =
          Matcher.reduce bindings ⟨.const false, [(.or, .var "trueish")]⟩) ∧
      Matcher.read.run "!true || trueish".toList =
        .ok (⟨.const false, [(.or, .var "trueish")]⟩, []) ∧
      ∀ (bindings : Bindings Bool) (value : Option Bool),
        Matcher.reduce (Function.update bindings "true" value)
            ⟨.const false, [(.or, .var "trueish")]⟩ =
          Matcher.reduce bindings ⟨.const false, [(.or, .var "trueish")]⟩ := by
  have hread : Matcher.read.complete "!true || trueish".toList =
      .ok ⟨.const false, [(.or, .var "trueish")]⟩ := by with_unfolding_all rfl
  have hnew : StandIns "T" "F" "!true || trueish".toList := by
    constructor <;> decide
  have hrun : Matcher.read.run "!true || trueish".toList =
      .ok (⟨.const false, [(.or, .var "trueish")]⟩, []) := by with_unfolding_all rfl
  exact ⟨hread, hnew, folding_agrees_with_inverting.1 _ _ _ _ hread hnew, hrun,
    (folding_agrees_with_inverting.2 _ _ _ hrun "true" List.mem_cons_self).2.2⟩

end Matcher

end Rulebook
