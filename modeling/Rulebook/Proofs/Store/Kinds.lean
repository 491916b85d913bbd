import Rulebook.Proofs.Formula.Rule
import Rulebook.Proofs.Matcher.Rule
import Rulebook.Store

/-!
# The two kinds of rule texts

Both kinds of rules are written with the same words and signs, and a text is tried as a matcher rule
first. Main statement: no text is of both kinds, so that the order of the two attempts makes no
difference to what a store takes up.

What tells them apart is the first sign behind the first word. A formula rule begins with `H =`; a
matcher that begins with the word `H` has a connective or the arrow `=>` behind it.
-/

namespace Rulebook

open Text

/-! ## A formula rule is no matcher rule -/

section Front

variable {s t clause body w b b' : List Char}

/-- An equals sign without an angle behind it is no arrow. -/
theorem dropToken?_arrow_eq_none (h : Stops (· == '>') t) : dropToken? "=>" ('=' :: t) = none := by
  apply if_neg
  intro hprefix
  obtain ⟨u, hu⟩ := hprefix
  have ht : t = '>' :: u := (List.cons.inj hu).2.symm
  rw [ht, stops_cons] at h
  exact Bool.noConfusion h

/-- The clause of a formula begins with the word `H` and an equals sign that is no arrow. -/
theorem Formula.WritesClause.exists_front (h : Formula.WritesClause clause w) (body : List Char) :
    ∃ b b' t, Blanks b ∧ Blanks b' ∧ Stops (· == '>') t ∧
      clause ++ body = b ++ ("H".toList ++ (b' ++ '=' :: t)) := by
  obtain @⟨b₁, b₂, b₃, b₄, b₅, b₆, _, hb₁, hb₂, hb₃, hw, -, -, -⟩ := h
  refine ⟨b₁, b₂, b₃ ++ (w ++ (b₄ ++ ("=>".toList ++ (b₅ ++ ("K".toList ++ (b₆ ++
    ("=".toList ++ body))))))), hb₁, hb₂, ?_, ?_⟩
  · obtain ⟨c, u, rfl, hc⟩ := hw.exists_cons
    -- behind the equals sign come blanks and the first letter of the label
    apply hb₃.stops
    · intro d hd
      rw [eq_of_beq hd]
      rfl
    · rw [List.cons_append, stops_cons]
      exact beq_false_of_ne (ne_of_member hc rfl)
  · simp

/-- A word that is no constant writes a variable. -/
theorem Literal.writes_var (hb : Blanks b) (hw : Word w) (hb' : Blanks b')
    (htrue : w ≠ "true".toList) (hfalse : w ≠ "false".toList) :
    Literal.Writes (b ++ (w ++ b')) (.var (String.ofList w)) := by
  have hwrites : Literal.Writes (b ++ (Literal.negationText false ++ (w ++ b'))) _ :=
    .mk hb hw hb' (.var htrue hfalse)
  exact hwrites

/-- A word in front of an equals sign is read as a matcher, and nothing more is. -/
theorem Matcher.run_read_word (hb : Blanks b) (hw : Word w) (hb' : Blanks b')
    (htrue : w ≠ "true".toList) (hfalse : w ≠ "false".toList) :
    Matcher.read.run (b ++ (w ++ (b' ++ '=' :: t))) =
      .ok (⟨.var (String.ofList w), []⟩, '=' :: t) := by
  have hmatcher : Matcher.Writes (b ++ (w ++ b')) ⟨.var (String.ofList w), []⟩ :=
    Chain.writes_single (Literal.writes_var hb hw hb' htrue hfalse)
  have hends : EndsAt ['='] ('=' :: t) := endsAt_cons.mpr (by simp)
  have hread := Matcher.takesWritten_read.run_append hmatcher hends
  simpa only [List.append_assoc] using hread

/-- Where the clause of a formula stands, no matcher rule is read: behind the first word the clause
of a matcher is missed. -/
theorem Matcher.readRule_of_formulaLabel? {r : String × List Char} (h : formulaLabel? s = some r) :
    ∃ rest, Matcher.readRule s = .error (.mismatch rest .matcherClause) := by
  obtain ⟨label, body⟩ := r
  obtain ⟨clause, w, hclause, -, rfl⟩ := Formula.formulaLabel?_eq_some_iff.mp h
  obtain ⟨b, b', t, hb, hb', ht, hs⟩ := hclause.exists_front body
  have hword : Word "H".toList := ⟨by simp, by simp⟩
  have hlabel : matcherLabel? ('=' :: t) = none := by
    rw [matcherLabel?, dropToken?_arrow_eq_none ht]
    rfl
  refine ⟨'=' :: t, ?_⟩
  rw [hs, Matcher.readRule_eq, Matcher.run_read_word hb hword hb' (by simp) (by simp)]
  simp only [hlabel]

/-- A matcher rule has no clause of a formula, and so is no formula rule within any limit. -/
theorem Formula.readRule_of_matcher {r : Matcher × String} (limit : Nat)
    (h : Matcher.readRule s = .ok r) :
    Formula.readRule limit s = .error (.mismatch s .formulaClause) := by
  have hnone : formulaLabel? s = none := by
    cases hl : formulaLabel? s with
    | none => rfl
    | some r =>
      obtain ⟨rest, hrest⟩ := Matcher.readRule_of_formulaLabel? hl
      rw [h] at hrest
      cases hrest
  unfold Formula.readRule
  rw [hnone]
  rfl

/-- A formula rule is read within a limit that its parentheses keep to. -/
theorem Formula.readRule_of_writesRule {e : Formula} {label : String} {limit : Nat}
    (hs : Text.nesting s ≤ limit) (h : Formula.WritesRule s e label) :
    Formula.readRule limit s = .ok (e, label) := by
  rw [(Formula.limitedOutcome_readRule limit s).eq_free (Formula.not_opensRule_of_nesting_le hs)]
  exact Formula.readRuleFreely_eq_ok_iff.mpr h

theorem blanks_space : Blanks [' '] := by
  simp [Blanks, isBlank, blankRanges]

theorem blanks_nil : Blanks [] := by
  simp [Blanks]

theorem word_singleton {c : Char} (hc : c.isAlpha = true) : Word [c] :=
  ⟨by simp, by simpa using hc⟩

/-- The words `H` and `K` can be names in a matcher, and any word can be its label. -/
theorem Matcher.readRule_of_label (hw : Word w) :
    Matcher.readRule ("H && K => H = ".toList ++ w) =
      .ok (⟨.var "H", [(.and, .var "K")]⟩, String.ofList w) := by
  have hH := Literal.writes_var blanks_nil (word_singleton rfl : Word ['H']) blanks_space
    (by simp) (by simp)
  have hK := Literal.writes_var blanks_space (word_singleton rfl : Word ['K']) blanks_space
    (by simp) (by simp)
  have hbody := Chain.writes_cons (o := Connective.and) hH (Chain.writes_single hK)
  have hclause := Matcher.WritesClause.mk blanks_space blanks_space blanks_space hw blanks_nil
  rw [List.append_nil] at hclause
  have hrule := Matcher.WritesRule.mk hbody hclause
  exact Matcher.readRule_of_writesRule hrule

/-- Any word can be the label of a formula. -/
theorem Formula.readRule_of_label (limit : Nat) (hw : Word w) :
    Formula.readRule limit ("H = ".toList ++ (w ++ " => K = D".toList)) =
      .ok (⟨⟨.var "D", []⟩, []⟩, String.ofList w) := by
  have hfactor : Factor.Writes ([' '] ++ (['D'] ++ [])) (.var "D") :=
    .var blanks_space (word_singleton rfl) blanks_nil
  have hbody : Formula.Writes [' ', 'D'] ⟨⟨.var "D", []⟩, []⟩ :=
    Chain.writes_single (Chain.writes_single hfactor)
  have hclause := Formula.WritesClause.mk blanks_nil blanks_space blanks_space hw blanks_space
    blanks_space blanks_space
  have hflat : '(' ∉ "H = ".toList ++ (w ++ " => K = D".toList) := by simp [hw.flat.1]
  apply Formula.readRule_of_writesRule
  · rw [nesting_eq_zero hflat]
    exact Nat.zero_le limit
  · simpa using Formula.WritesRule.mk hclause hbody

end Front

/-! ## The other order -/

variable [Limits]

namespace Store

variable {store : Store} {text : RawText}

theorem Entry.ofText_of_matcher {m : Matcher} {label : String}
    (h : Matcher.readRule text.chars = .ok (m, label)) :
    Entry.ofText text = .ok (.matcher ⟨m, label, text.legible⟩) := by
  unfold Entry.ofText
  rw [h]

theorem Entry.ofText_of_formula {e : Formula} {label : String}
    (h : Formula.readRule nestingLimit text.chars = .ok (e, label)) :
    Entry.ofText text = .ok (.formula ⟨e, label, text.legible⟩) := by
  unfold Entry.ofText
  cases hm : Matcher.readRule text.chars with
  | error f => rw [h]
  | ok r =>
    rw [Formula.readRule_of_matcher nestingLimit hm] at h
    cases h

/-- Reads a text as a formula rule, else as a matcher rule. -/
def Entry.ofTextFormulaFirst (text : RawText) : Except ParseError Entry :=
  match Formula.readRule nestingLimit text.chars with
  | .ok (e, label) => .ok (.formula ⟨e, label, text.legible⟩)
  | .error .tooDeep => .error ⟨text, .shallowerNesting⟩
  | .error (.mismatch _ _) =>
    match Matcher.readRule text.chars with
    | .ok (m, label) => .ok (.matcher ⟨m, label, text.legible⟩)
    | .error fault => .error ⟨text, fault.expected⟩

/-- Adds the rule that a text writes, where the formulas are tried first. -/
def addFormulaFirst (store : Store) (text : RawText) : Except ParseError Store :=
  (Entry.ofTextFormulaFirst text).map store.push

/-- The two orders read a text as the same entry, or both of them reject the text. -/
theorem Entry.ofText_cases (text : RawText) :
    (∃ entry, ofText text = .ok entry ∧ ofTextFormulaFirst text = .ok entry) ∨
      ∃ hint hint', ofText text = .error ⟨text, hint⟩ ∧
        ofTextFormulaFirst text = .error ⟨text, hint'⟩ := by
  unfold Entry.ofText Entry.ofTextFormulaFirst
  cases hm : Matcher.readRule text.chars with
  | ok r =>
    -- a matcher rule is passed over by the attempt at a formula
    rw [Formula.readRule_of_matcher nestingLimit hm]
    exact .inl ⟨_, rfl, rfl⟩
  | error fault =>
    cases Formula.readRule nestingLimit text.chars with
    | ok r => exact .inl ⟨_, rfl, rfl⟩
    | error fault' =>
      cases fault' with
      | mismatch rest expected => exact .inr ⟨_, _, rfl, rfl⟩
      | tooDeep => exact .inr ⟨_, _, rfl, rfl⟩

/-- An entry is what the text reads as in the language of its kind. -/
theorem Entry.matcher_of_ofText {rule : Rule Matcher}
    (h : Entry.ofText text = .ok (.matcher rule)) :
    Matcher.readRule text.chars = .ok (rule.expression, rule.label) ∧ rule.text = text.legible := by
  unfold Entry.ofText at h
  split at h
  · rename_i hm
    cases h
    exact ⟨hm, rfl⟩
  · split at h
    · cases h
    · cases h

theorem Entry.formula_of_ofText {rule : Rule Formula}
    (h : Entry.ofText text = .ok (.formula rule)) :
    Formula.readRule nestingLimit text.chars = .ok (rule.expression, rule.label) ∧
      rule.text = text.legible := by
  unfold Entry.ofText at h
  split at h
  · cases h
  · split at h
    · rename_i he
      cases h
      exact ⟨he, rfl⟩
    · cases h

end Store

/-- The two kinds of rules. No text is read as a matcher rule and, within any limit, as a formula
rule, though the words `H` and `K` can be names in a matcher and any word can be the label of a rule
of either kind. So both orders of trying give the same store or reject the same texts, and a text
that is not rejected stands behind the others of one list, as the rule of the kind that it is, and
leaves the other list as it was. -/
theorem kinds_are_disjoint :
    (∀ s limit m e, ¬ (Matcher.readRule s = .ok m ∧ Formula.readRule limit s = .ok e)) ∧
      (∀ w, Word w →
        Matcher.readRule ("H && K => H = ".toList ++ w) =
            .ok (⟨.var "H", [(.and, .var "K")]⟩, String.ofList w) ∧
          Formula.readRule nestingLimit ("H = ".toList ++ (w ++ " => K = D".toList)) =
            .ok (⟨⟨.var "D", []⟩, []⟩, String.ofList w)) ∧
      ∀ (store : Store) (text : RawText),
        (store.addFormulaFirst text).toOption = (store.add text).toOption ∧
          (∀ e, store.add text = .error e ∨ store.addFormulaFirst text = .error e →
            e.text = text) ∧
          ∀ store', store.add text = .ok store' →
            Xor
              (∃ rule, Matcher.readRule text.chars = .ok (rule.expression, rule.label) ∧
                rule.text = text.legible ∧ store'.matchers = store.matchers ++ [rule] ∧
                store'.formulas = store.formulas)
              (∃ rule, Formula.readRule nestingLimit text.chars =
                  .ok (rule.expression, rule.label) ∧
                rule.text = text.legible ∧ store'.formulas = store.formulas ++ [rule] ∧
                store'.matchers = store.matchers) := by
  refine ⟨?_, fun w hw =>
    ⟨Matcher.readRule_of_label hw, Formula.readRule_of_label nestingLimit hw⟩, ?_⟩
  · intro s limit m e h
    rw [Formula.readRule_of_matcher limit h.1] at h
    cases h.2
  · intro store text
    unfold Store.add Store.addFormulaFirst
    obtain ⟨entry, hentry, hfirst⟩ | ⟨hint, hint', he, he'⟩ := Store.Entry.ofText_cases text
    · rw [hentry, hfirst]
      refine ⟨rfl, fun e he => ?_, fun store' hstore => ?_⟩
      · cases he <;> contradiction
      · obtain rfl := Except.ok.inj hstore
        cases entry with
        | matcher rule =>
          obtain ⟨hread, htext⟩ := Store.Entry.matcher_of_ofText hentry
          refine .inl ⟨⟨rule, hread, htext, rfl, rfl⟩, ?_⟩
          -- the matchers have become more
          intro ⟨_, _, _, _, hsame⟩
          exact List.cons_ne_nil _ _ (List.append_right_eq_self.mp hsame)
        | formula rule =>
          obtain ⟨hread, htext⟩ := Store.Entry.formula_of_ofText hentry
          refine .inr ⟨⟨rule, hread, htext, rfl, rfl⟩, ?_⟩
          intro ⟨_, _, _, _, hsame⟩
          exact List.cons_ne_nil _ _ (List.append_right_eq_self.mp hsame)
    · rw [he, he']
      refine ⟨rfl, fun e h => ?_, fun store' hstore => ?_⟩
      · cases h with
        | inl h =>
          obtain rfl := Except.error.inj h
          rfl
        | inr h =>
          obtain rfl := Except.error.inj h
          rfl
      · cases hstore

end Rulebook
