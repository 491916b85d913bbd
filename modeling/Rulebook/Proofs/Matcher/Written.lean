import Rulebook.Proofs.Chain.Written
import Rulebook.Proofs.Text.Parentheses
import Rulebook.Rule

/-!
# The texts of matchers

The grammar of matchers, as the texts that write a literal, a matcher and a matcher rule:

    Rule    := Matcher "=>" blanks "H" blanks "=" blanks word blanks
    Matcher := Literal (("&&" | "||") Literal)*
    Literal := blanks "!"? word blanks

A text that is read writes what was read. No text of this grammar has a parenthesis in it, so that
a text with one is never a matcher rule.
-/

namespace Rulebook

open Text

/-! ## The grammar -/

/-- The sign of negation, if there is one. -/
def Literal.negationText (negation : Bool) : List Char :=
  if negation then ['!'] else []

/-- What a word stands for, with or without a negation: the words `true` and `false` as a whole are
the constants, and any other word is a name. -/
inductive Literal.Denotes : Bool → List Char → Literal → Prop where
  | true (negation : Bool) : Literal.Denotes negation "true".toList (.const (!negation))
  | false (negation : Bool) : Literal.Denotes negation "false".toList (.const negation)
  | var {w : List Char} : w ≠ "true".toList → w ≠ "false".toList →
      Literal.Denotes false w (.var (String.ofList w))
  | negated {w : List Char} : w ≠ "true".toList → w ≠ "false".toList →
      Literal.Denotes true w (.negated (String.ofList w))

/-- A text that writes a literal. -/
inductive Literal.Writes : List Char → Literal → Prop where
  | mk {b w b' : List Char} {negation : Bool} {l : Literal} : Blanks b → Word w → Blanks b' →
      Literal.Denotes negation w l →
      Literal.Writes (b ++ (Literal.negationText negation ++ (w ++ b'))) l

/-- A text that writes a matcher. -/
def Matcher.Writes (w : List Char) (m : Matcher) : Prop :=
  Chain.Writes Literal.Writes w m

/-- A text that writes the clause `=> H = <LABEL>` for a label, and blanks behind it. -/
inductive Matcher.WritesClause : List Char → List Char → Prop where
  | mk {b₁ b₂ b₃ b₄ label : List Char} : Blanks b₁ → Blanks b₂ → Blanks b₃ → Word label →
      Blanks b₄ →
      Matcher.WritesClause ("=>".toList ++ (b₁ ++ ("H".toList ++ (b₂ ++ ("=".toList ++
        (b₃ ++ (label ++ b₄))))))) label

/-- A text that writes a matcher rule: the matcher, and the clause up to the end. -/
inductive Matcher.WritesRule : List Char → Matcher → String → Prop where
  | mk {body clause label : List Char} {m : Matcher} :
      Matcher.Writes body m → Matcher.WritesClause clause label →
      Matcher.WritesRule (body ++ clause) m (String.ofList label)

/-! ## Reading takes a written matcher -/

namespace Literal

variable {s rest w : List Char} {l : Literal}

theorem negationText_append (s : List Char) :
    s = negationText (takeNegation s).1 ++ (takeNegation s).2 := by
  unfold takeNegation
  split <;> rfl

theorem denotes_ofWord (negation : Bool) (w : List Char) :
    Denotes negation w (ofWord negation w) := by
  unfold ofWord
  split
  · rename_i hw
    exact hw ▸ .true negation
  · rename_i htrue
    split
    · rename_i hw
      exact hw ▸ .false negation
    · rename_i hfalse
      cases negation with
      | false => exact .var htrue hfalse
      | true => exact .negated htrue hfalse

theorem run_read (s : List Char) :
    Literal.read.run s =
      match takeWord? (takeNegation (skipBlanks s)).2 with
      | none => .error (.mismatch s .literal)
      | some (w, t) => .ok (ofWord (takeNegation (skipBlanks s)).1 w, skipBlanks t) := by
  unfold Reader.run Literal.read
  split
  · rename_i h
    simp [h, Except.map]
  · rename_i h
    simp [h, Except.map]

/-- What is read off the front of a text writes the literal. -/
theorem writes_of_run_read (h : Literal.read.run s = .ok (l, rest)) :
    ∃ w, Literal.Writes w l ∧ s = w ++ rest := by
  rw [run_read] at h
  split at h
  · simp at h
  · rename_i w t htake
    obtain ⟨hw, hskip, -⟩ := word_of_takeWord? htake
    obtain ⟨b, hb, hs⟩ := exists_blanks_append s
    obtain ⟨b', hb', ht⟩ := exists_blanks_append t
    obtain ⟨rfl, rfl⟩ := Prod.mk.inj (Except.ok.inj h)
    refine ⟨_, .mk hb hw hb' (denotes_ofWord _ _), ?_⟩
    conv => lhs; rw [hs, negationText_append (skipBlanks s), hskip, ht]
    simp

end Literal

namespace Matcher

variable {s rest w : List Char} {m : Matcher} {label : String}

/-- What is read off the front of a text writes the matcher. -/
theorem writes_of_run_read (h : Matcher.read.run s = .ok (m, rest)) :
    ∃ w, Matcher.Writes w m ∧ s = w ++ rest :=
  Chain.writes_of_run_read (fun _ _ _ _ hl => Literal.writes_of_run_read hl) h

/-- The clause is found only where it is written. -/
theorem writesClause_of_matcherLabel? (h : matcherLabel? s = some label) :
    ∃ w, WritesClause s w ∧ label = String.ofList w := by
  simp only [matcherLabel?, Option.bind_eq_bind, Option.bind_eq_some_iff] at h
  obtain ⟨s₁, h₁, s₂, h₂, s₃, h₃, ⟨w, s₄⟩, h₄, h₅⟩ := h
  obtain rfl := append_of_dropToken? h₁
  obtain ⟨b₁, hb₁, rfl⟩ := (dropToken?_skipBlanks_iff rfl (by decide)).mp h₂
  obtain ⟨b₂, hb₂, rfl⟩ := (dropToken?_skipBlanks_iff rfl (by decide)).mp h₃
  obtain ⟨b₃, hb₃, hw, -, rfl⟩ := takeWord?_skipBlanks_iff.mp h₄
  split at h₅
  · rename_i hempty
    -- nothing is left behind the blanks at the end
    have hb₄ : Blanks s₄ := by
      obtain ⟨b, hb, hs⟩ := exists_blanks_append s₄
      rw [List.isEmpty_iff.mp hempty, List.append_nil] at hs
      exact hs ▸ hb
    exact ⟨w, .mk hb₁ hb₂ hb₃ hw hb₄, (Option.some.inj h₅).symm⟩
  · simp at h₅

/-- A text that is read as a matcher rule writes it. -/
theorem writesRule_of_readRule (h : Matcher.readRule s = .ok (m, label)) :
    WritesRule s m label := by
  unfold Matcher.readRule at h
  cases hr : Matcher.read s with
  | error f => simp [hr, bind, Except.bind] at h
  | ok r =>
    obtain ⟨d, rest, hlt⟩ := r
    simp only [hr, bind, Except.bind] at h
    cases hl : matcherLabel? rest with
    | none => simp [hl, throw, throwThe, MonadExceptOf.throw] at h
    | some l =>
      simp only [hl, pure, Except.pure, Except.ok.injEq, Prod.mk.injEq] at h
      obtain ⟨rfl, rfl⟩ := h
      obtain ⟨body, hbody, rfl⟩ := writes_of_run_read (Reader.run_eq_ok_iff.mpr ⟨hlt, hr⟩)
      obtain ⟨w, hclause, rfl⟩ := writesClause_of_matcherLabel? hl
      exact .mk hbody hclause

end Matcher

/-! ## No parentheses -/

theorem Literal.Writes.flat {w : List Char} {l : Literal} (h : Literal.Writes w l) : Flat w := by
  obtain @⟨_, _, _, negation, _, hb, hw, hb', _⟩ := h
  have hnegation : Flat (Literal.negationText negation) := by cases negation <;> decide
  simp only [flat_append]
  exact ⟨hb.flat, hnegation, hw.flat, hb'.flat⟩

theorem Matcher.Writes.flat {w : List Char} {m : Matcher} (h : Matcher.Writes w m) : Flat w := by
  obtain ⟨head, tail⟩ := m
  -- by the pairs behind the head, each of which becomes the head of the rest
  induction tail generalizing head w with
  | nil =>
    obtain ⟨hhead, htail⟩ := h
    cases htail
    rw [List.append_nil]
    exact hhead.flat
  | cons pair tail ih =>
    obtain ⟨hhead, htail⟩ := h
    obtain _ | @⟨o, l, v, u, _, hl, hu⟩ := htail
    have htoken : Flat (Operator.token o).toList := by cases o <;> decide
    have hrest := ih l (.mk hl hu)
    rw [flat_append, flat_append]
    exact ⟨hhead.flat, htoken, hrest⟩

theorem Matcher.WritesRule.flat {s : List Char} {m : Matcher} {label : String}
    (h : Matcher.WritesRule s m label) : Flat s := by
  obtain ⟨hbody, hb₁, hb₂, hb₃, hw, hb₄⟩ := h
  simp only [flat_append]
  exact ⟨hbody.flat, by decide, hb₁.flat, by decide, hb₂.flat, by decide, hb₃.flat, hw.flat,
    hb₄.flat⟩

end Rulebook
