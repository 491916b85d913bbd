import Rulebook.Number.Numeral
import Rulebook.Proofs.Text.Front

/-!
# The texts of numerals

`Numeral.Writes` says which texts write a numeral, and which numeral: an optional sign, digits with
an optional point, and an optional exponent. Reading takes the longest such text, which is the text
that was written wherever what follows cannot go on with a numeral (`read?_append`).
-/

namespace Rulebook.Number.Numeral

open Rulebook.Text

/-! ## Written form -/

/-- A text of digits, possibly empty. -/
def Digits (ds : List Char) : Prop :=
  ∀ d ∈ ds, isDigit d = true

/-- An optional sign, and whether it is a minus. -/
inductive WritesSign : List Char → Bool → Prop where
  | none : WritesSign [] false
  | plus : WritesSign ['+'] false
  | minus : WritesSign ['-'] true

/-- `12`, `12.`, `12.5` or `.5`: the whole digits and those after the point. -/
inductive WritesMantissa : List Char → List Char → List Char → Prop where
  | whole {ds : List Char} : ds ≠ [] → Digits ds → WritesMantissa ds ds []
  | point {whole fraction : List Char} : whole ≠ [] → Digits whole → Digits fraction →
      WritesMantissa (whole ++ '.' :: fraction) whole fraction
  | fraction {fraction : List Char} : fraction ≠ [] → Digits fraction →
      WritesMantissa ('.' :: fraction) [] fraction

/-- An optional exponent `e3`, `E-3`. -/
inductive WritesExponent : List Char → Int → Prop where
  | none : WritesExponent [] 0
  | some {c : Char} {sign ds : List Char} {negative : Bool} : c = 'e' ∨ c = 'E' →
      WritesSign sign negative → ds ≠ [] → Digits ds →
      WritesExponent (c :: (sign ++ ds))
        (if negative then -(digitsValue ds : Int) else digitsValue ds)

/-- A text that writes a numeral. -/
inductive Writes : List Char → Numeral → Prop where
  | mk {sign mantissa exponent whole fraction : List Char} {negative : Bool} {e : Int} :
      WritesSign sign negative → WritesMantissa mantissa whole fraction →
      WritesExponent exponent e →
      Writes (sign ++ (mantissa ++ exponent))
        ⟨negative, digitsValue (whole ++ fraction), e - fraction.length⟩

/-- A numeral does not go on with this text. -/
structure Ends (s : List Char) : Prop where
  digit : Stops isDigit s
  point : Stops (· == '.') s
  exponent : Stops (fun c => c == 'e' || c == 'E') s

/-! ## Reading takes a written numeral -/

section Sound

variable {s rest : List Char}

theorem writesSign_takeSign (s : List Char) :
    ∃ sign, WritesSign sign (takeSign s).1 ∧ s = sign ++ (takeSign s).2 := by
  unfold takeSign
  split
  · exact ⟨['+'], .plus, rfl⟩
  · exact ⟨['-'], .minus, rfl⟩
  · exact ⟨[], .none, rfl⟩

theorem digits_takeWhile (s : List Char) : Digits (s.takeWhile isDigit) :=
  fun _ hd => List.mem_takeWhile_imp hd

theorem writesMantissa_of_takeMantissa? {whole fraction : List Char}
    (h : takeMantissa? s = some ((whole, fraction), rest)) :
    ∃ mantissa, WritesMantissa mantissa whole fraction ∧ s = mantissa ++ rest := by
  have hs := takeDigits_append isDigit s
  have hds : Digits (takeDigits isDigit s).1 := digits_takeWhile s
  unfold takeMantissa? at h
  split at h
  · -- no whole digits, but a point
    rename_i s₁ heq
    have hs₁ := takeDigits_append isDigit s₁
    have hds₁ : Digits (takeDigits isDigit s₁).1 := digits_takeWhile s₁
    rw [heq] at hs
    split at h
    · simp at h
    · rename_i ds s₂ hne heq₁
      simp only [Option.some.injEq, Prod.mk.injEq] at h
      obtain ⟨⟨rfl, rfl⟩, rfl⟩ := h
      rw [heq₁] at hs₁ hds₁
      exact ⟨_, .fraction hne hds₁, by simp [← hs, ← hs₁]⟩
  · -- neither whole digits nor a point
    simp at h
  · rename_i ds s₁ hne heq
    -- whole digits and a point
    have hs₁ := takeDigits_append isDigit s₁
    rw [heq] at hs hds
    simp only [Option.some.injEq, Prod.mk.injEq] at h
    obtain ⟨⟨rfl, rfl⟩, rfl⟩ := h
    exact ⟨_, .point hne hds (digits_takeWhile s₁), by simp [← hs, hs₁]⟩
  · rename_i ds s₁ _ hne _ heq
    -- whole digits, behind which no point follows
    rw [heq] at hs hds
    simp only [Option.some.injEq, Prod.mk.injEq] at h
    obtain ⟨⟨rfl, rfl⟩, rfl⟩ := h
    exact ⟨_, .whole hne hds, hs.symm⟩

theorem writesExponent_of_takeExponent? {e : Int} (h : takeExponent? isDigit s = some (e, rest)) :
    ∃ exponent, WritesExponent exponent e ∧ s = exponent ++ rest := by
  cases s with
  | nil => simp [takeExponent?] at h
  | cons c s =>
    rw [takeExponent?] at h
    split at h
    · rename_i hc
      obtain ⟨⟨ds, t⟩, hrun, heq⟩ := Option.map_eq_some_iff.mp h
      obtain ⟨rfl, rfl⟩ := Prod.mk.inj heq
      obtain ⟨hs, hne, hds, -⟩ := of_takeRun? hrun
      obtain ⟨sign, hsign, hs'⟩ := writesSign_takeSign s
      exact ⟨_, .some hc hsign hne hds, by rw [hs', hs]; simp⟩
    · simp at h

/-- What is taken for an exponent, nothing if there is none. -/
theorem writesExponent_getD (s : List Char) :
    ∃ exponent, WritesExponent exponent ((takeExponent? isDigit s).getD (0, s)).1 ∧
      s = exponent ++ ((takeExponent? isDigit s).getD (0, s)).2 := by
  cases h : takeExponent? isDigit s with
  | none => exact ⟨[], .none, rfl⟩
  | some r => exact writesExponent_of_takeExponent? h

/-- A numeral that is read stands in front of the text. -/
theorem writes_of_read? {x : Numeral} (h : read? s = some (x, rest)) :
    ∃ w, Writes w x ∧ s = w ++ rest := by
  obtain ⟨sign, hsign, hs⟩ := writesSign_takeSign s
  unfold read? at h
  simp only at h
  split at h
  · simp at h
  · rename_i whole fraction s₂ hm
    obtain ⟨mantissa, hmantissa, hs₁⟩ := writesMantissa_of_takeMantissa? hm
    obtain ⟨exponent, hexponent, hs₂⟩ := writesExponent_getD s₂
    obtain ⟨rfl, rfl⟩ := Prod.mk.inj (Option.some.inj h)
    refine ⟨_, .mk hsign hmantissa hexponent, ?_⟩
    conv => lhs; rw [hs, hs₁, hs₂]
    simp

end Sound

/-! ## A written numeral is read -/

section Complete

variable {s w : List Char}

/-- A mantissa begins with a digit or a point. -/
theorem WritesMantissa.exists_cons {mantissa whole fraction : List Char}
    (h : WritesMantissa mantissa whole fraction) :
    ∃ c t, mantissa = c :: t ∧ (isDigit c = true ∨ c = '.') := by
  cases h with
  | whole hne hds =>
    obtain ⟨c, t, rfl⟩ := List.exists_cons_of_ne_nil hne
    exact ⟨c, t, rfl, .inl (hds c List.mem_cons_self)⟩
  | point hne hds _ =>
    obtain ⟨c, t, rfl⟩ := List.exists_cons_of_ne_nil hne
    exact ⟨c, _, rfl, .inl (hds c List.mem_cons_self)⟩
  | fraction => exact ⟨'.', _, rfl, .inr rfl⟩

/-- A numeral begins with a digit, a point or a sign. -/
theorem Writes.exists_cons {x : Numeral} (h : Writes w x) :
    ∃ c t, w = c :: t ∧ (isDigit c = true ∨ c ∈ ['.', '+', '-']) := by
  obtain ⟨hsign, hmantissa, _⟩ := h
  cases hsign with
  | none =>
    obtain ⟨c, t, rfl, hc⟩ := hmantissa.exists_cons
    exact ⟨c, _, rfl, hc.imp_right fun h => by simp [h]⟩
  | plus => exact ⟨'+', _, rfl, .inr (by decide)⟩
  | minus => exact ⟨'-', _, rfl, .inr (by decide)⟩

theorem takeSign_append {sign : List Char} {negative : Bool} (h : WritesSign sign negative)
    (hs : Stops (fun c => c == '+' || c == '-') s) : takeSign (sign ++ s) = (negative, s) := by
  cases h with
  | plus => rfl
  | minus => rfl
  | none =>
    rw [List.nil_append]
    unfold takeSign
    split
    · simp at hs
    · simp at hs
    · rfl

theorem takeDigits_append_of_stops {ds : List Char} (hds : Digits ds) (hs : Stops isDigit s) :
    takeDigits isDigit (ds ++ s) = (ds, s) := by
  rw [takeDigits, takeWhile_append_of_stops hds hs, dropWhile_append_of_stops hds hs]

theorem takeMantissa?_append {mantissa whole fraction : List Char}
    (h : WritesMantissa mantissa whole fraction) (hdigit : Stops isDigit s)
    (hpoint : Stops (· == '.') s) :
    takeMantissa? (mantissa ++ s) = some ((whole, fraction), s) := by
  have hdot : isDigit '.' = false := by decide
  unfold takeMantissa?
  cases h with
  | whole hne hds =>
    rw [takeDigits_append_of_stops hds hdigit]
    obtain ⟨d, ds, rfl⟩ := List.exists_cons_of_ne_nil hne
    cases s with
    | nil => rfl
    | cons c s =>
      have hc : c ≠ '.' := by simpa using hpoint
      split <;> simp_all
  | point hne hds hfraction =>
    obtain ⟨d, ds, rfl⟩ := List.exists_cons_of_ne_nil hne
    rw [List.append_assoc, takeDigits_append_of_stops hds (by simp [hdot])]
    simp [takeDigits_append_of_stops hfraction hdigit]
  | fraction hne hfraction =>
    obtain ⟨d, ds, rfl⟩ := List.exists_cons_of_ne_nil hne
    have h : takeDigits isDigit ([] ++ '.' :: (d :: ds ++ s)) = ([], '.' :: (d :: ds ++ s)) :=
      takeDigits_append_of_stops (by simp [Digits]) (by simp [hdot])
    rw [List.nil_append] at h
    rw [List.cons_append, h]
    simp only [takeDigits_append_of_stops hfraction hdigit]

theorem takeExponent?_append {exponent : List Char} {e : Int} (h : WritesExponent exponent e)
    (hs : Ends s) : (takeExponent? isDigit (exponent ++ s)).getD (0, exponent ++ s) = (e, s) := by
  cases h with
  | none =>
    -- what follows does not begin like an exponent
    have hnone : takeExponent? isDigit s = none := by
      cases s with
      | nil => rfl
      | cons c s =>
        have hc : ¬ (c = 'e' ∨ c = 'E') := by simpa using hs.exponent
        rw [takeExponent?, if_neg hc]
    simp [hnone]
  | @some c sign ds negative hc hsign hne hds =>
    -- a digit is no sign, so the sign ends where it is written to end
    obtain ⟨d, t, rfl⟩ := List.exists_cons_of_ne_nil hne
    have hd : isDigit d = true := hds d List.mem_cons_self
    have hd₁ : d ≠ '+' := ne_of_member hd (by decide)
    have hd₂ : d ≠ '-' := ne_of_member hd (by decide)
    rw [List.cons_append, List.append_assoc, takeExponent?, if_pos hc,
      takeSign_append hsign (by simp [hd₁, hd₂])]
    simp only [takeRun?_append hne hds hs.digit, Option.map_some, Option.getD_some]

/-- A written numeral is read as it was written, unless what follows goes on with it. -/
theorem read?_append {x : Numeral} (h : Writes w x) (hs : Ends s) :
    read? (w ++ s) = some (x, s) := by
  obtain ⟨hsign, hmantissa, hexponent⟩ := h
  rename_i sign mantissa exponent whole fraction negative e
  -- the first character behind the sign is no sign, the one behind the mantissa no digit
  have hfirst : Stops (fun c => c == '+' || c == '-') (mantissa ++ (exponent ++ s)) := by
    obtain ⟨c, t, rfl, hc⟩ := hmantissa.exists_cons
    rcases hc with hc | rfl
    · simp [ne_of_member hc (show isDigit '+' = false by decide),
        ne_of_member hc (show isDigit '-' = false by decide)]
    · simp
  have hsecond : Stops isDigit (exponent ++ s) ∧ Stops (· == '.') (exponent ++ s) := by
    cases hexponent with
    | none => exact ⟨hs.digit, hs.point⟩
    | some hc => rcases hc with rfl | rfl <;> simp <;> decide
  unfold read?
  simp only [List.append_assoc, takeSign_append hsign hfirst,
    takeMantissa?_append hmantissa hsecond.1 hsecond.2, takeExponent?_append hexponent hs]

/-- A text that does not begin like a numeral has none. -/
theorem read?_eq_none {c : Char} {t : List Char} (hdigit : isDigit c = false)
    (hc : c ∉ ['.', '+', '-']) : read? (c :: t) = none := by
  cases h : read? (c :: t) with
  | none => rfl
  | some r =>
    -- a numeral that were read would be written in front of the text
    have hwritten : ∃ w, Writes w r.1 ∧ c :: t = w ++ r.2 := writes_of_read? h
    obtain ⟨w, hw, heq⟩ := hwritten
    obtain ⟨d, u, rfl, hd⟩ := hw.exists_cons
    obtain ⟨rfl, -⟩ := List.cons.inj (heq.trans (List.cons_append ..))
    rcases hd with hd | hd
    · simp [hdigit] at hd
    · exact absurd hd hc

end Complete

end Rulebook.Number.Numeral
