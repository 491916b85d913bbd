import Rulebook.Proofs.Formula.Induction
import Rulebook.Proofs.Nesting.Unlimited
import Rulebook.Proofs.Number.Written
import Rulebook.Proofs.Reader.Written

/-!
# The texts of formulas

The grammar of formulas, as the texts that write a factor, a term or a formula:

    Formula := Term (("+" | "-") Term)*
    Term    := Factor (("*" | "/") Factor)*
    Factor  := blanks ("(" Formula ")" | numeral | word) blanks

Reading without a limit takes a written formula off the front of a text, and reads every written
formula back. The second half is a matter of what follows: in front of an operator, of a closing
parenthesis and of the end no token goes on, neither a numeral into a sign nor a word into a letter.
-/

namespace Rulebook

open Text

/-! ## The grammar -/

/-- A text that writes a factor. -/
inductive Factor.Writes : List Char → Factor → Prop where
  | const {b w b' : List Char} {x : Number.Numeral} :
      Blanks b → Number.Numeral.Writes w x → Blanks b' →
      Factor.Writes (b ++ (w ++ b')) (.const x.toFloat)
  | var {b w b' : List Char} :
      Blanks b → Word w → Blanks b' → Factor.Writes (b ++ (w ++ b')) (.var (String.ofList w))
  | parens {b w b' : List Char} {e : Formula} :
      Blanks b → Chain.Writes (Chain.Writes Factor.Writes) w e → Blanks b' →
      Factor.Writes (b ++ '(' :: (w ++ ')' :: b')) (.parens e)

/-- A text that writes a term. -/
def Term.Writes (w : List Char) (t : Term) : Prop :=
  Chain.Writes Factor.Writes w t

/-- A text that writes a formula. -/
def Formula.Writes (w : List Char) (e : Formula) : Prop :=
  Chain.Writes Term.Writes w e

/-! ## Where a factor, a term and a formula end -/

/-- What may follow a factor. -/
def Factor.closers : List Char := ['*', '/', '+', '-', ')']

/-- What may follow a term. -/
def Term.closers : List Char := ['+', '-', ')']

theorem Additive.readable : Operator.Readable Additive := by
  intro o s
  cases o <;> rfl

theorem Multiplicative.readable : Operator.Readable Multiplicative := by
  intro o s
  cases o <;> rfl

theorem Additive.endsAt_token (o : Additive) (s : List Char) :
    EndsAt Term.closers ((Operator.token o).toList ++ s) := by
  cases o <;> exact endsAt_cons.mpr (by decide)

theorem Multiplicative.endsAt_token (o : Multiplicative) (s : List Char) :
    EndsAt Factor.closers ((Operator.token o).toList ++ s) := by
  cases o <;> exact endsAt_cons.mpr (by decide)

/-- No factor goes on where a term may end. -/
theorem Multiplicative.absent {s : List Char} (h : EndsAt Term.closers s) :
    Operator.Absent Multiplicative s := by
  cases s with
  | nil => exact ⟨_, rfl⟩
  | cons c s =>
    have hc := endsAt_cons.mp h
    simp only [Term.closers, List.mem_cons, List.not_mem_nil, or_false] at hc
    rcases hc with rfl | rfl | rfl <;> exact ⟨_, rfl⟩

/-- No term goes on where a formula may end. -/
theorem Additive.absent {s : List Char} (h : EndsAt [')'] s) : Operator.Absent Additive s := by
  cases s with
  | nil => exact ⟨_, rfl⟩
  | cons c s =>
    obtain rfl := List.mem_singleton.mp (endsAt_cons.mp h)
    exact ⟨_, rfl⟩

/-! ## Leaves -/

namespace Factor

variable {s t w b b' rest : List Char} {f : Factor}

theorem run_readLeaf (s : List Char) :
    Reader.run readLeaf s =
      match Number.Numeral.read? (skipBlanks s) with
      | some (x, t) => .ok (.const x.toFloat, skipBlanks t)
      | none =>
        match takeWord? (skipBlanks s) with
        | some (w, t) => .ok (.var (String.ofList w), skipBlanks t)
        | none => .error (.mismatch s .factor) := by
  unfold Reader.run readLeaf
  split
  · rename_i hn
    simp [hn, Except.map]
  · rename_i hn
    split
    · rename_i hw
      simp [hn, hw, Except.map]
    · rename_i hw
      simp [hn, hw, Except.map]

/-- A leaf that is read is a numeral or a name, and the blanks behind it are skipped. -/
theorem run_readLeaf_ok (h : Reader.run readLeaf s = .ok (f, rest)) :
    (∃ x t, Number.Numeral.read? (skipBlanks s) = some (x, t) ∧ f = .const x.toFloat ∧
      rest = skipBlanks t) ∨
    ∃ w t, takeWord? (skipBlanks s) = some (w, t) ∧ f = .var (String.ofList w) ∧
      rest = skipBlanks t := by
  rw [run_readLeaf] at h
  split at h
  · rename_i x t hn
    obtain ⟨rfl, rfl⟩ := Prod.mk.inj (Except.ok.inj h)
    exact .inl ⟨x, t, hn, rfl, rfl⟩
  · split at h
    · rename_i w t htake
      obtain ⟨rfl, rfl⟩ := Prod.mk.inj (Except.ok.inj h)
      exact .inr ⟨w, t, htake, rfl, rfl⟩
    · simp at h

theorem writes_of_run_readLeaf (h : Reader.run readLeaf s = .ok (f, rest)) :
    ∃ w, Factor.Writes w f ∧ s = w ++ rest := by
  obtain ⟨b, hb, hs⟩ := exists_blanks_append s
  obtain ⟨x, t, hn, rfl, rfl⟩ | ⟨w, t, htake, rfl, rfl⟩ := run_readLeaf_ok h
  · obtain ⟨w, hw, hskip⟩ := Number.Numeral.writes_of_read? hn
    obtain ⟨b', hb', ht⟩ := exists_blanks_append t
    refine ⟨_, .const hb hw hb', ?_⟩
    conv => lhs; rw [hs, hskip, ht]
    simp
  · obtain ⟨hw, hskip, -⟩ := word_of_takeWord? htake
    obtain ⟨b', hb', ht⟩ := exists_blanks_append t
    refine ⟨_, .var hb hw hb', ?_⟩
    conv => lhs; rw [hs, hskip, ht]
    simp

/-- Behind a factor no numeral goes on. -/
theorem ends_numeral (hb : Blanks b) (hs : EndsAt closers s) : Number.Numeral.Ends (b ++ s) where
  digit := hb.stops (fun _ => isBlank_eq_false_of_isDigit) (hs.stops (by decide))
  point := hb.stops (fun c hc => by rw [eq_of_beq hc]; decide) (hs.stops (by decide))
  exponent := by
    refine hb.stops (fun c hc => ?_) (hs.stops (by decide))
    rcases Bool.or_eq_true_iff.mp hc with hc | hc <;> rw [eq_of_beq hc] <;> decide

/-- Behind a factor no word goes on. -/
theorem stops_word (hb : Blanks b) (hs : EndsAt closers s) : Stops Char.isAlpha (b ++ s) :=
  hb.stops (fun _ => isBlank_eq_false_of_isAlpha) (hs.stops (by decide))

/-- The blanks behind a factor end where it ends. -/
theorem skipBlanks_closers (hb : Blanks b) (hs : EndsAt closers s) : skipBlanks (b ++ s) = s :=
  skipBlanks_append hb (hs.stops (by decide))

theorem run_readWith_const {inside : Reader Formula} {x : Number.Numeral} (hb : Blanks b)
    (hw : Number.Numeral.Writes w x) (hb' : Blanks b') (hs : EndsAt closers s) :
    (readWith inside).run (b ++ (w ++ b') ++ s) = .ok (.const x.toFloat, s) := by
  have hread := Number.Numeral.read?_append hw (ends_numeral hb' hs)
  obtain ⟨c, u, rfl, hc⟩ := hw.exists_cons
  -- a digit, a point and a sign are no blanks and no parentheses
  have hc : isBlank c = false ∧ c ≠ '(' := by
    rcases hc with hc | hc
    · exact ⟨isBlank_eq_false_of_isDigit hc, ne_of_member hc (by decide)⟩
    · simp only [List.mem_cons, List.not_mem_nil, or_false] at hc
      rcases hc with rfl | rfl | rfl <;> decide
  have hskip : skipBlanks (b ++ (c :: u ++ b') ++ s) = c :: u ++ (b' ++ s) := by
    rw [List.append_assoc, List.append_assoc]
    exact skipBlanks_append hb (stops_cons.mpr hc.1)
  rw [run_readWith, hskip]
  split
  · rename_i heq
    exact absurd (List.cons.inj heq).1 hc.2
  · rw [run_readLeaf, hskip, hread]
    simp only [skipBlanks_closers hb' hs]

theorem run_readWith_var {inside : Reader Formula} (hb : Blanks b) (hw : Word w)
    (hb' : Blanks b') (hs : EndsAt closers s) :
    (readWith inside).run (b ++ (w ++ b') ++ s) = .ok (.var (String.ofList w), s) := by
  have htake := takeWord?_append hw (stops_word hb' hs)
  obtain ⟨c, u, rfl, hc⟩ := hw.exists_cons
  have hparen : c ≠ '(' := ne_of_member hc (by decide)
  have hskip : skipBlanks (b ++ (c :: u ++ b') ++ s) = c :: u ++ (b' ++ s) := by
    rw [List.append_assoc, List.append_assoc]
    exact skipBlanks_append hb (stops_cons.mpr (isBlank_eq_false_of_isAlpha hc))
  -- a letter is neither digit nor point nor sign, so no numeral comes first
  have hnone : Number.Numeral.read? (c :: u ++ (b' ++ s)) = none := by
    apply Number.Numeral.read?_eq_none (isDigit_eq_false_of_isAlpha hc)
    intro hmem
    simp only [List.mem_cons, List.not_mem_nil, or_false] at hmem
    rcases hmem with rfl | rfl | rfl <;> simp at hc
  rw [run_readWith, hskip]
  split
  · rename_i heq
    exact absurd (List.cons.inj heq).1 hparen
  · rw [run_readLeaf, hskip, hnone, htake]
    simp only [skipBlanks_closers hb' hs]

/-! ## Reading takes a written formula -/

/-- A factor that is read is a formula between parentheses, or a leaf. -/
theorem run_readWith_ok {inside : Reader Formula}
    (h : (readWith inside).run s = .ok (f, rest)) :
    (∃ t e u, skipBlanks s = '(' :: t ∧ inside.run t = .ok (e, ')' :: u) ∧ f = .parens e ∧
      rest = skipBlanks u) ∨
    Reader.run readLeaf s = .ok (f, rest) := by
  rw [run_readWith] at h
  split at h
  · rename_i t ht
    split at h
    · rename_i e u hinside
      obtain ⟨rfl, rfl⟩ := Prod.mk.inj (Except.ok.inj h)
      exact .inl ⟨t, e, u, ht, hinside, rfl, rfl⟩
    · simp at h
    · simp at h
  · exact .inr h

theorem writes_of_run_readWith {inside : Reader Formula}
    (hin : ∀ t e u, t.length < s.length → inside.run t = .ok (e, u) →
      ∃ w, Formula.Writes w e ∧ t = w ++ u)
    (h : (readWith inside).run s = .ok (f, rest)) : ∃ w, Factor.Writes w f ∧ s = w ++ rest := by
  obtain ⟨b, hb, hs⟩ := exists_blanks_append s
  obtain ⟨t, e, u, ht, hinside, rfl, rfl⟩ | hleaf := run_readWith_ok h
  · obtain ⟨w, hw, htext⟩ := hin t e _ (length_lt_of_skipBlanks_eq_cons ht) hinside
    obtain ⟨b', hb', hu⟩ := exists_blanks_append u
    refine ⟨_, .parens hb hw hb', ?_⟩
    conv => lhs; rw [hs, ht, htext, hu]
    simp
  · exact writes_of_run_readLeaf hleaf

/-- What is read freely off the front of a text writes the factor. -/
theorem writes_of_run_readFreely (h : Reader.run readFreely s = .ok (f, rest)) :
    ∃ w, Factor.Writes w f ∧ s = w ++ rest := by
  -- by the length of the text, which is shorter between parentheses
  induction hn : s.length using Nat.strong_induction_on generalizing s f rest with
  | _ n ih =>
    rw [readFreely_eq] at h
    refine writes_of_run_readWith (fun t e u ht he => ?_) h
    refine Chain.writes_of_run_read (fun t' a u' ht' ha => ?_) he
    exact Chain.writes_of_run_read (fun t'' g u'' ht'' hg => ih t''.length (by omega) hg rfl) ha

/-! ## A written formula is read -/

/-- What a chain of terms needs of its factors to be read back. -/
theorem run_formula_append {p : Reader Factor} {e : Formula}
    (hp : ∀ t ∈ e.operands, ∀ f ∈ t.operands, ∀ w s, Factor.Writes w f → EndsAt closers s →
      p.run (w ++ s) = .ok (f, s))
    (hw : Formula.Writes w e) (hs : EndsAt [')'] s) :
    (Chain.read (Chain.read p) : Reader Formula).run (w ++ s) = .ok (e, s) := by
  refine Chain.run_read_append Additive.readable Additive.endsAt_token (fun t ht v u hv hu => ?_)
    hw (hs.mono (by decide)) (Additive.absent hs)
  exact Chain.run_read_append Multiplicative.readable Multiplicative.endsAt_token (hp t ht) hv
    (hu.mono (by decide)) (Multiplicative.absent hu)

/-- A written factor is read back where a factor may end, if what stands between its parentheses
is. -/
theorem run_readWith_append {inside : Reader Formula}
    (hin : ∀ e v u, f = .parens e → Formula.Writes v e →
      inside.run (v ++ ')' :: u) = .ok (e, ')' :: u))
    (hw : Factor.Writes w f) (hs : EndsAt closers s) :
    (readWith inside).run (w ++ s) = .ok (f, s) := by
  cases hw with
  | const hb hx hb' => exact run_readWith_const hb hx hb' hs
  | var hb hword hb' => exact run_readWith_var hb hword hb' hs
  | @parens b v b' e hb hv hb' =>
    have hskip : skipBlanks (b ++ '(' :: (v ++ ')' :: b') ++ s) =
        '(' :: (v ++ ')' :: (b' ++ s)) := by
      rw [List.append_assoc, List.cons_append, skipBlanks_append hb (stops_cons.mpr (by decide))]
      simp
    rw [run_readWith, hskip]
    simp only [hin e v (b' ++ s) rfl hv, skipBlanks_closers hb' hs]

theorem run_readFreely_append (f : Factor) {w s : List Char} (hw : Factor.Writes w f)
    (hs : EndsAt closers s) : Reader.run readFreely (w ++ s) = .ok (f, s) := by
  -- by the factor; what stands between parentheses is a formula of factors that are read back
  induction f using Factor.induct generalizing w s with
  | const x =>
    rw [readFreely_eq]
    exact run_readWith_append nofun hw hs
  | var name =>
    rw [readFreely_eq]
    exact run_readWith_append nofun hw hs
  | parens e ih =>
    rw [readFreely_eq]
    refine run_readWith_append (fun d v u hd hv => ?_) hw hs
    obtain rfl := Factor.parens.inj hd
    exact run_formula_append (fun t ht f hf _ _ => ih t ht f hf) hv
      (endsAt_cons.mpr (by decide))

/-- No blank is left behind a factor. -/
theorem stops_of_run_readWith {inside : Reader Formula}
    (h : (readWith inside).run s = .ok (f, rest)) : Stops isBlank rest := by
  -- every way to read a factor ends in skipping blanks
  obtain ⟨t, e, u, -, -, -, rfl⟩ | hleaf := run_readWith_ok h
  · exact stops_skipBlanks u
  · obtain ⟨x, t, -, -, rfl⟩ | ⟨w, t, -, -, rfl⟩ := run_readLeaf_ok hleaf
    · exact stops_skipBlanks t
    · exact stops_skipBlanks t

theorem takesWritten_readFreely : Reader.TakesWritten readFreely Factor.Writes closers where
  writes_of_run hr := writes_of_run_readFreely hr
  stops_of_run hr := by
    rw [readFreely_eq] at hr
    exact stops_of_run_readWith hr
  run_append hw hs := run_readFreely_append _ hw hs

end Factor

/-! ## Terms and formulas -/

/-- A term is read as it is written if its factors are. -/
theorem Term.takesWritten {p : Reader Factor} {writes : List Char → Factor → Prop}
    (hp : p.TakesWritten writes Factor.closers) :
    (Chain.read p : Reader Term).TakesWritten (Chain.Writes writes) Term.closers :=
  Chain.takesWritten hp Multiplicative.readable Multiplicative.endsAt_token (by decide)
    Multiplicative.absent

/-- A formula is read as it is written if its terms are. -/
theorem Formula.takesWritten {p : Reader Term} {writes : List Char → Term → Prop}
    (hp : p.TakesWritten writes Term.closers) :
    (Chain.read p : Reader Formula).TakesWritten (Chain.Writes writes) [')'] :=
  Chain.takesWritten hp Additive.readable Additive.endsAt_token (by decide) Additive.absent

/-- A whole text is read as a formula exactly if it writes the formula. -/
theorem Formula.complete_readFreely_iff {s : List Char} {e : Formula} :
    Formula.readFreely.complete s = .ok e ↔ Formula.Writes s e :=
  (takesWritten (Term.takesWritten Factor.takesWritten_readFreely)).complete_eq_ok_iff

/-- A text writes one formula at most. -/
theorem Formula.Writes.unique {s : List Char} {d e : Formula} (hd : Formula.Writes s d)
    (he : Formula.Writes s e) : d = e := by
  have h := Formula.complete_readFreely_iff.mpr hd
  rw [Formula.complete_readFreely_iff.mpr he] at h
  exact (Except.ok.inj h).symm

end Rulebook
