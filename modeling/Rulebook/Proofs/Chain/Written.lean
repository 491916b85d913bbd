import Rulebook.Proofs.Reader.Run

/-!
# The texts of chains

`Chain.Writes` says which texts write a chain, given which ones write its operands: an operand, then
tokens of operators with operands. If the reader of operands takes written operands off the front
of a text, then so does the reader of chains (`writes_of_run_read`). If it reads a written operand
back wherever an operand may end, then the reader of chains reads a written chain back wherever no
further operator follows (`run_read_append`).
-/

namespace Rulebook

variable {ω α β : Type} [Operator ω β]

/-! ## Written form -/

/-- A text of operators, each followed by an operand. -/
inductive Chain.WritesTail (operand : List Char → α → Prop) :
    List Char → List (ω × α) → Prop where
  | nil : Chain.WritesTail operand [] []
  | cons {o : ω} {a : α} {w s : List Char} {tail : List (ω × α)} :
      operand w a → Chain.WritesTail operand s tail →
      Chain.WritesTail operand ((Operator.token o).toList ++ (w ++ s)) ((o, a) :: tail)

/-- A text that writes a chain. -/
inductive Chain.Writes (operand : List Char → α → Prop) : List Char → Chain ω α → Prop where
  | mk {head : α} {tail : List (ω × α)} {w s : List Char} :
      operand w head → Chain.WritesTail operand s tail →
      Chain.Writes operand (w ++ s) ⟨head, tail⟩

/-- The token of every operator is read as that operator. -/
def Operator.Readable (ω : Type) {β : Type} [Operator ω β] : Prop :=
  ∀ (o : ω) (s : List Char), (Operator.read : Reader ω).run ((token o).toList ++ s) = .ok (o, s)

/-- No operator stands in front of the text. -/
def Operator.Absent (ω : Type) {β : Type} [Operator ω β] (s : List Char) : Prop :=
  ∃ f, (Operator.read : Reader ω).run s = .error f

namespace Chain

variable {operand : List Char → α → Prop} {p : Reader α} {s rest w : List Char}
  {a : α} {o : ω} {c : Chain ω α}

theorem writes_single (h : operand w a) : Writes operand w (⟨a, []⟩ : Chain ω α) := by
  have := Writes.mk (ω := ω) h .nil
  rwa [List.append_nil] at this

theorem writes_cons (h : operand w a) (hc : Writes operand s c) :
    Writes operand (w ++ ((Operator.token o).toList ++ s)) (cons a o c) := by
  obtain ⟨hhead, htail⟩ := hc
  exact .mk h (.cons hhead htail)

theorem WritesTail.forall_mem {tail : List (ω × α)} {P : α → Prop}
    (hP : ∀ w a, operand w a → P a) (h : WritesTail operand s tail) : ∀ p ∈ tail, P p.2 := by
  induction h with
  | nil => exact fun p hp => absurd hp List.not_mem_nil
  | cons ha _ ih => exact List.forall_mem_cons.mpr ⟨hP _ _ ha, ih⟩

/-- What holds of every operand that some text writes holds of the operands of a written chain. -/
theorem Writes.forall_mem {P : α → Prop} (hP : ∀ w a, operand w a → P a)
    (h : Writes operand s c) : ∀ a ∈ c.operands, P a := by
  obtain ⟨hhead, htail⟩ := h
  exact List.forall_mem_cons.mpr ⟨hP _ _ hhead, List.forall_mem_map.mpr (htail.forall_mem hP)⟩

/-! ## Reading takes a written chain -/

/-- What is read off the front of a text writes the chain, if that holds for the operands of texts
that are not longer. -/
theorem writes_of_run_read
    (hp : ∀ t a u, t.length ≤ s.length → p.run t = .ok (a, u) → ∃ w, operand w a ∧ t = w ++ u)
    (h : (Chain.read p : Reader (Chain ω α)).run s = .ok (c, rest)) :
    ∃ w, Writes operand w c ∧ s = w ++ rest := by
  induction hn : s.length using Nat.strong_induction_on generalizing s c with
  | _ n ih =>
    rcases run_read_ok h with ⟨a, ha, rfl, -⟩ | ⟨a, s₁, o, s₂, d, ha, ho, hd, rfl⟩
    · obtain ⟨w, hw, rfl⟩ := hp s a rest (Nat.le_refl _) ha
      exact ⟨w, writes_single hw, rfl⟩
    · have h₁ := Reader.length_lt_of_run ha
      have h₂ := Reader.length_lt_of_run ho
      obtain ⟨w, hw, rfl⟩ := hp s a s₁ (Nat.le_refl _) ha
      obtain rfl := Operator.append_of_run ho
      obtain ⟨v, hv, rfl⟩ := ih s₂.length (by omega) (fun t a u ht => hp t a u (by omega)) hd rfl
      exact ⟨_, writes_cons hw hv, by simp⟩

/-! ## A written chain is read -/

/-- A written chain is read back where no operator follows, if written operands are read back where
an operand may end; it may end in front of every operator of the chain. -/
theorem run_read_append (hop : Operator.Readable ω) {ends : List Char → Prop}
    (hends : ∀ (o : ω) s, ends ((Operator.token o).toList ++ s))
    (hp : ∀ a ∈ c.operands, ∀ w s, operand w a → ends s → p.run (w ++ s) = .ok (a, s))
    (hw : Writes operand w c) (hs : ends s) (habsent : Operator.Absent ω s) :
    (Chain.read p : Reader (Chain ω α)).run (w ++ s) = .ok (c, s) := by
  obtain ⟨head, tail⟩ := c
  -- by the pairs behind the head, each of which becomes the head of the rest
  induction tail generalizing head w with
  | nil =>
    obtain ⟨hhead, htail⟩ := hw
    cases htail
    obtain ⟨f, hf⟩ := habsent
    rw [List.append_nil, run_read, hp head (by simp [operands]) _ _ hhead hs]
    simp only [hf]
  | cons pair tail ih =>
    obtain ⟨hhead, htail⟩ := hw
    rename_i w₁ w₂
    obtain _ | @⟨o, b, v, u, _, hb, hu⟩ := htail
    have hfirst : p.run (w₁ ++ ((Operator.token o).toList ++ (v ++ u) ++ s)) =
        .ok (head, (Operator.token o).toList ++ (v ++ u) ++ s) := by
      apply hp head (by simp [operands]) _ _ hhead
      rw [List.append_assoc]
      exact hends o _
    have hrest := ih b (fun a ha => hp a (List.mem_cons_of_mem _ ha)) (.mk hb hu)
    rw [List.append_assoc, run_read, hfirst]
    simp only [List.append_assoc (Operator.token o).toList, hop o, hrest]
    rfl

end Chain

end Rulebook
