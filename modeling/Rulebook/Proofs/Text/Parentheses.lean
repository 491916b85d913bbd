import Rulebook.Proofs.Text.Front

/-!
# Parentheses of a text

How many parentheses are open at once is a number that can be counted on the text alone, whether or
not it writes anything. A text that leaves as many open as there were is passed over without a
change to that count.
-/

namespace Rulebook.Text

/-- The greatest number of parentheses open at once, where some are open in front of the text. One
that closes nothing is not counted. -/
def openFrom (opened : Nat) : List Char → Nat
  | [] => opened
  | c :: s =>
    if c = '(' then openFrom (opened + 1) s
    else if c = ')' then max opened (openFrom (opened - 1) s)
    else openFrom opened s

/-- The greatest number of parentheses open at once, closed later or not. -/
def nesting (s : List Char) : Nat :=
  openFrom 0 s

/-- Passing over the text leaves as many parentheses open as there were. -/
def Passes (w : List Char) : Prop :=
  ∀ n s, openFrom n s ≤ openFrom n (w ++ s)

variable {w v s : List Char} {n : Nat}

theorem le_openFrom (n : Nat) (s : List Char) : n ≤ openFrom n s := by
  induction s generalizing n with
  | nil => exact Nat.le_refl n
  | cons c s ih =>
    rw [openFrom]
    split
    · exact Nat.le_of_succ_le (ih (n + 1))
    · split
      · exact Nat.le_max_left _ _
      · exact ih n

theorem Passes.append (hw : Passes w) (hv : Passes v) : Passes (w ++ v) := by
  intro n s
  rw [List.append_assoc]
  exact Nat.le_trans (hv n s) (hw n (v ++ s))

/-- A pair of parentheses is passed over with what stands between. -/
theorem Passes.parens (hw : Passes w) : Passes ('(' :: (w ++ [')'])) := by
  intro n s
  have hclose : openFrom n s ≤ openFrom (n + 1) (')' :: s) := by
    rw [openFrom, if_neg (by decide), if_pos rfl]
    exact Nat.le_max_right _ _
  calc openFrom n s ≤ openFrom (n + 1) (')' :: s) := hclose
    _ ≤ openFrom (n + 1) (w ++ ')' :: s) := hw (n + 1) _
    _ = openFrom n ('(' :: (w ++ [')']) ++ s) := by simp [openFrom]

/-- A text that opens nothing has nothing open. -/
theorem nesting_eq_zero (h : '(' ∉ s) : nesting s = 0 := by
  suffices hs : ∀ s, '(' ∉ s → ∀ n, openFrom n s = n by exact hs s h 0
  intro s
  -- for any number that is open in front, which is not exceeded when one is closed
  induction s with
  | nil => exact fun _ _ => rfl
  | cons c s ih =>
    intro h n
    have hc : c ≠ '(' := fun hc => h (hc ▸ List.mem_cons_self)
    have ih := ih fun hs => h (List.mem_cons_of_mem c hs)
    rw [openFrom, if_neg hc]
    split
    · rw [ih, Nat.max_eq_left (Nat.sub_le n 1)]
    · exact ih n

/-! ## Flat texts -/

/-- A text without parentheses. -/
def Flat (w : List Char) : Prop :=
  '(' ∉ w ∧ ')' ∉ w

instance : DecidablePred Flat := fun w =>
  inferInstanceAs (Decidable ('(' ∉ w ∧ ')' ∉ w))

theorem flat_append : Flat (w ++ v) ↔ Flat w ∧ Flat v := by
  simp only [Flat, List.mem_append, not_or]
  exact and_and_and_comm

/-- A text is flat if a class without parentheses has all its characters. -/
theorem flat_of_member {member : Char → Bool} (hw : ∀ c ∈ w, member c = true)
    (hopen : member '(' = false) (hclose : member ')' = false) : Flat w :=
  ⟨fun hc => ne_of_member (hw _ hc) hopen rfl, fun hc => ne_of_member (hw _ hc) hclose rfl⟩

theorem Blanks.flat (hw : Blanks w) : Flat w :=
  flat_of_member hw (by decide) (by decide)

theorem Word.flat (hw : Word w) : Flat w :=
  flat_of_member hw.2 (by decide) (by decide)

/-- A text without parentheses changes no count. -/
theorem Flat.openFrom_append (hw : Flat w) : openFrom n (w ++ s) = openFrom n s := by
  induction w with
  | nil => rfl
  | cons c w ih =>
    have hopen : c ≠ '(' := fun hc => hw.1 (hc ▸ List.mem_cons_self)
    have hclose : c ≠ ')' := fun hc => hw.2 (hc ▸ List.mem_cons_self)
    rw [List.cons_append, openFrom, if_neg hopen, if_neg hclose]
    exact ih ⟨fun h => hw.1 (List.mem_cons_of_mem c h), fun h => hw.2 (List.mem_cons_of_mem c h)⟩

theorem Flat.passes (hw : Flat w) : Passes w :=
  fun _ _ => Nat.le_of_eq hw.openFrom_append.symm

end Rulebook.Text
