import Rulebook.Proofs.Chain.Written
import Rulebook.Proofs.Text.Front

/-!
# Readers of written texts

A reader belongs to a written form if it takes exactly the written texts off the front of a text
(`Reader.TakesWritten`). Whole texts are then read exactly if they are written, and what is read off
the front is read alone as well. The property passes from the operands of a chain to the chain, so
that every level of a language has it once its leaves do.
-/

namespace Rulebook

open Text

variable {ω α β : Type}

/-- What is read stands written in front of the text, with no blank behind it; and what is written
is read back in front of the closers and at the end of the text. -/
structure Reader.TakesWritten (p : Reader α) (writes : List Char → α → Prop)
    (closers : List Char) : Prop where
  writes_of_run : ∀ {s rest a}, p.run s = .ok (a, rest) → ∃ w, writes w a ∧ s = w ++ rest
  stops_of_run : ∀ {s rest a}, p.run s = .ok (a, rest) → Stops isBlank rest
  run_append : ∀ {w s a}, writes w a → EndsAt closers s → p.run (w ++ s) = .ok (a, s)

namespace Reader.TakesWritten

variable {p : Reader α} {writes : List Char → α → Prop} {closers s w rest : List Char} {a : α}

/-- A written text is read with nothing left. -/
theorem run_of_writes (h : p.TakesWritten writes closers) (hw : writes w a) :
    p.run w = .ok (a, []) := by
  have hr : p.run (w ++ []) = .ok (a, []) := h.run_append hw endsAt_nil
  rwa [List.append_nil] at hr

/-- A whole text is read exactly if it is written. -/
theorem complete_eq_ok_iff (h : p.TakesWritten writes closers) :
    p.complete s = .ok a ↔ writes s a := by
  rw [Reader.complete_eq]
  constructor
  · intro hc
    cases hr : p.run s with
    | error f => simp [hr] at hc
    | ok r =>
      obtain ⟨b, rest⟩ := r
      simp only [hr] at hc
      split at hc
      · rename_i hblank
        obtain rfl := Except.ok.inj hc
        -- what is left are blanks, and it does not begin with one
        obtain rfl := (h.stops_of_run hr).eq_nil hblank
        obtain ⟨w, hw, rfl⟩ := h.writes_of_run hr
        rwa [List.append_nil]
      · simp at hc
  · intro hw
    simp [h.run_of_writes hw]

/-- What is read off the front is read alone, and as a whole text. -/
theorem exists_prefix (h : p.TakesWritten writes closers) (hr : p.run s = .ok (a, rest)) :
    ∃ w, w ≠ [] ∧ s = w ++ rest ∧ p.run w = .ok (a, []) ∧ p.complete w = .ok a := by
  obtain ⟨w, hw, rfl⟩ := h.writes_of_run hr
  refine ⟨w, ?_, rfl, h.run_of_writes hw, h.complete_eq_ok_iff.mpr hw⟩
  -- a rest that is shorter than the text leaves something in front of it
  rintro rfl
  exact Nat.lt_irrefl _ (Reader.length_lt_of_run hr)

end Reader.TakesWritten

/-! ## Chains -/

/-- A chain is read as it is written if its operands are: in front of every operator, and where the
chain may end without one. -/
theorem Chain.takesWritten [Operator ω β] {p : Reader α} {writes : List Char → α → Prop}
    {closers ends : List Char} (hp : p.TakesWritten writes closers) (hop : Operator.Readable ω)
    (htoken : ∀ (o : ω) s, EndsAt closers ((Operator.token o).toList ++ s))
    (hsub : ends ⊆ closers) (habsent : ∀ {s}, EndsAt ends s → Operator.Absent ω s) :
    (Chain.read p : Reader (Chain ω α)).TakesWritten (Chain.Writes writes) ends where
  writes_of_run hr := writes_of_run_read (fun _ _ _ _ ha => hp.writes_of_run ha) hr
  stops_of_run hr := rest_of_run_read (fun _ _ _ ha => hp.stops_of_run ha) hr
  run_append hw hs := run_read_append hop htoken (fun _ _ _ _ ha hu => hp.run_append ha hu) hw
    (hs.mono hsub) (habsent hs)

/-- An operator that stands behind a chain is followed by no operand. -/
theorem Chain.mismatch_behind [Operator ω β] {p : Reader α} {s rest t : List Char} {o : ω}
    {c : Chain ω α} (h : (Chain.read p : Reader (Chain ω α)).run s = .ok (c, rest))
    (ho : (Operator.read : Reader ω).run rest = .ok (o, t)) :
    ∃ u x, p.run t = .error (.mismatch u x) := by
  -- by the length of the text: the rest is that behind the last operand
  induction hn : s.length using Nat.strong_induction_on generalizing s c with
  | _ n ih =>
    rcases run_read_ok h with ⟨a, -, -, hend⟩ | ⟨a, s₁, o', s₂, d, ha, ho', hd, -⟩
    · exact hend o t ho
    · have h₁ := Reader.length_lt_of_run ha
      have h₂ := Reader.length_lt_of_run ho'
      exact ih s₂.length (by omega) hd rfl

end Rulebook
