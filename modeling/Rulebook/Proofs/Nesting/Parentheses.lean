import Rulebook.Proofs.Formula.Written
import Rulebook.Proofs.Text.Parentheses

/-!
# Parentheses that reading opens

Reading a formula never has more parentheses open at once than the text does: what it has read
before lies between matching parentheses, so that passing over it leaves their number where it was.
-/

namespace Rulebook

open Text

/-! ## Written formulas are passed over -/

/-- The characters of a numeral. -/
theorem Number.Numeral.Writes.mem {w : List Char} {x : Number.Numeral}
    (h : Number.Numeral.Writes w x) {c : Char} (hc : c ∈ w) :
    isDigit c = true ∨ c ∈ ['+', '-', '.', 'e', 'E'] := by
  have hsign : ∀ {sign : List Char} {negative : Bool}, WritesSign sign negative → c ∈ sign →
      c ∈ ['+', '-', '.', 'e', 'E'] := by
    intro sign negative h hc
    cases h <;> simp_all
  obtain ⟨h₁, h₂, h₃⟩ := h
  simp only [List.mem_append] at hc
  rcases hc with hc | hc | hc
  · exact .inr (hsign h₁ hc)
  · cases h₂ with
    | whole _ hds => exact .inl (hds c hc)
    | point _ hwhole hfraction =>
      rcases List.mem_append.mp hc with hc | hc
      · exact .inl (hwhole c hc)
      · rcases List.mem_cons.mp hc with rfl | hc
        · exact .inr (by decide)
        · exact .inl (hfraction c hc)
    | fraction _ hfraction =>
      rcases List.mem_cons.mp hc with rfl | hc
      · exact .inr (by decide)
      · exact .inl (hfraction c hc)
  · cases h₃ with
    | none => exact absurd hc List.not_mem_nil
    | some hd hs _ hds =>
      rcases List.mem_cons.mp hc with rfl | hc
      · rcases hd with rfl | rfl <;> exact .inr (by decide)
      · rcases List.mem_append.mp hc with hc | hc
        · exact .inr (hsign hs hc)
        · exact .inl (hds c hc)

theorem Number.Numeral.Writes.flat {w : List Char} {x : Number.Numeral}
    (h : Number.Numeral.Writes w x) : Flat w := by
  have hnot : ∀ c, isDigit c = false → c ∉ ['+', '-', '.', 'e', 'E'] → c ∉ w := by
    intro c hdigit hother hmem
    rcases h.mem hmem with hc | hc
    · simp [hdigit] at hc
    · exact hother hc
  exact ⟨hnot '(' (by decide) (by decide), hnot ')' (by decide) (by decide)⟩

/-- A written chain is passed over if its operators and operands are. -/
theorem Chain.Writes.passes {ω α β : Type} [Operator ω β] {operand : List Char → α → Prop}
    {w : List Char} {c : Chain ω α} (h : Chain.Writes operand w c)
    (htoken : ∀ o : ω, Passes (Operator.token o).toList)
    (hp : ∀ a ∈ c.operands, ∀ w, operand w a → Passes w) : Passes w := by
  obtain ⟨head, tail⟩ := c
  -- by the pairs behind the head, each of which becomes the head of the rest
  induction tail generalizing head w with
  | nil =>
    obtain ⟨hhead, htail⟩ := h
    cases htail
    rw [List.append_nil]
    exact hp head (by simp [operands]) _ hhead
  | cons pair tail ih =>
    obtain ⟨hhead, htail⟩ := h
    obtain _ | @⟨o, a, v, u, _, ha, hu⟩ := htail
    have hrest := ih a (.mk ha hu) fun b hb => hp b (List.mem_cons_of_mem _ hb)
    exact (hp head (by simp [operands]) _ hhead).append ((htoken o).append hrest)

theorem Additive.passes_token (o : Additive) : Passes (Operator.token o).toList := by
  cases o <;> exact Flat.passes (by decide)

theorem Multiplicative.passes_token (o : Multiplicative) : Passes (Operator.token o).toList := by
  cases o <;> exact Flat.passes (by decide)

theorem Factor.Writes.passes {w : List Char} {f : Factor} (h : Factor.Writes w f) : Passes w := by
  induction f using Factor.induct generalizing w with
  | const x =>
    cases h with
    | const hb hx hb' => exact hb.flat.passes.append (hx.flat.passes.append hb'.flat.passes)
  | var name =>
    cases h with
    | var hb hw hb' => exact hb.flat.passes.append (hw.flat.passes.append hb'.flat.passes)
  | parens e ih =>
    cases h with
    | @parens b v b' _ hb hv hb' =>
      have hinside : Passes v :=
        hv.passes Additive.passes_token fun t ht u hu =>
          hu.passes Multiplicative.passes_token fun f hf _ => ih t ht f hf
      have hwhole := hb.flat.passes.append (hinside.parens.append hb'.flat.passes)
      simpa using hwhole

theorem Term.Writes.passes {w : List Char} {t : Term} (h : Term.Writes w t) : Passes w :=
  Chain.Writes.passes h Multiplicative.passes_token fun _ _ _ => Factor.Writes.passes

/-! ## Reading opens no more than the text -/

/-- What is read in front of an operand that is tried is passed over. -/
theorem Chain.Tries.openFrom_le {ω α β : Type} [Operator ω β] {p : Reader α} {s t : List Char}
    (h : Chain.Tries ω p s t) (htoken : ∀ o : ω, Passes (Operator.token o).toList)
    (hp : ∀ s a u, p.run s = .ok (a, u) → ∃ w, Passes w ∧ s = w ++ u) (n : Nat) :
    openFrom n t ≤ openFrom n s := by
  induction h with
  | head => exact Nat.le_refl _
  | @next s s₁ s₂ t a o ha ho _ ih =>
    obtain ⟨w, hw, rfl⟩ := hp s a s₁ ha
    obtain rfl := Operator.append_of_run ho
    calc openFrom n t ≤ openFrom n s₂ := ih
      _ ≤ openFrom n ((Operator.token o).toList ++ s₂) := htoken o n s₂
      _ ≤ openFrom n (w ++ ((Operator.token o).toList ++ s₂)) := hw n _

theorem Factor.passes_of_run_readFreely {s u : List Char} {f : Factor}
    (h : Reader.run Factor.readFreely s = .ok (f, u)) : ∃ w, Passes w ∧ s = w ++ u := by
  obtain ⟨w, hw, hs⟩ := Factor.writes_of_run_readFreely h
  exact ⟨w, hw.passes, hs⟩

theorem Term.passes_of_run_readFreely {s u : List Char} {t : Term}
    (h : Term.readFreely.run s = .ok (t, u)) : ∃ w, Passes w ∧ s = w ++ u := by
  obtain ⟨w, hw, hs⟩ :=
    Chain.writes_of_run_read (fun _ _ _ _ hf => Factor.writes_of_run_readFreely hf) h
  exact ⟨w, Term.Writes.passes hw, hs⟩

theorem Factor.Opens.add_le {s : List Char} {n : Nat} (h : Factor.Opens s n) (k : Nat) :
    k + n ≤ openFrom k s := by
  -- by the levels that are opened, each with the parenthesis that its factor begins with
  induction h generalizing k with
  | none => exact le_openFrom k _
  | @inside s t u v n hs hu hv _ ih =>
    obtain ⟨b, hb, heq⟩ := exists_blanks_append s
    have hterm := hu.openFrom_le Additive.passes_token
      (fun _ _ _ => Term.passes_of_run_readFreely) (k + 1)
    have hfactor := hv.openFrom_le Multiplicative.passes_token
      (fun _ _ _ => Factor.passes_of_run_readFreely) (k + 1)
    calc k + (n + 1) = k + 1 + n := by omega
      _ ≤ openFrom (k + 1) v := ih (k + 1)
      _ ≤ openFrom (k + 1) u := hfactor
      _ ≤ openFrom (k + 1) t := hterm
      _ = openFrom k ('(' :: t) := by rw [openFrom, if_pos rfl]
      _ ≤ openFrom k s := by
        rw [heq, hs]
        exact hb.flat.passes k _

theorem Term.Opens.le_openFrom {s : List Char} {n : Nat} (h : Term.Opens s n) (k : Nat) :
    k + n ≤ openFrom k s := by
  obtain ⟨t, ht, ho⟩ := h
  exact Nat.le_trans (ho.add_le k) (ht.openFrom_le Multiplicative.passes_token
    (fun _ _ _ => Factor.passes_of_run_readFreely) k)

/-- Reading a formula opens at most as many parentheses at once as there are in the text. -/
theorem Formula.Opens.le_nesting {s : List Char} {n : Nat} (h : Formula.Opens s n) :
    n ≤ Text.nesting s := by
  obtain ⟨t, ht, ho⟩ := h
  have hle := Nat.le_trans (ho.le_openFrom 0) (ht.openFrom_le Additive.passes_token
    (fun _ _ _ => Term.passes_of_run_readFreely) 0)
  rwa [Nat.zero_add] at hle

end Rulebook
