import Mathlib.Data.List.TakeWhile
import Mathlib.Tactic.Common
import Rulebook.Text.Blank
import Rulebook.Text.DecimalDigit
import Rulebook.Text.Word

/-!
# What stands in front of a text

A token of a class of characters is read to its end, so that a text which begins with a token is
read as it was written only if what follows does not go on with the class (`Stops`). The classes of
the rule languages, blanks, digits of any script and ASCII letters, have no character in common.
-/

namespace Rulebook.Text

/-! ## Ends of tokens -/

/-- The text does not begin with a character of the class. -/
def Stops (member : Char → Bool) (s : List Char) : Prop :=
  ∀ c ∈ s.head?, member c = false

/-- The text is at its end or begins with one of some characters. -/
def EndsAt (closers : List Char) (s : List Char) : Prop :=
  ∀ c ∈ s.head?, c ∈ closers

section Ends

variable {member : Char → Bool} {closers closers' s t w : List Char} {c : Char}

@[simp]
theorem stops_nil : Stops member [] := by
  simp [Stops]

@[simp]
theorem stops_cons : Stops member (c :: s) ↔ member c = false := by
  simp [Stops]

@[simp]
theorem endsAt_nil : EndsAt closers [] := by
  simp [EndsAt]

@[simp]
theorem endsAt_cons : EndsAt closers (c :: s) ↔ c ∈ closers := by
  simp [EndsAt]

theorem EndsAt.mono (h : EndsAt closers s) (hsub : closers ⊆ closers') : EndsAt closers' s :=
  fun c hc => hsub (h c hc)

/-- A class without a closing character stops at each of them. -/
theorem EndsAt.stops (h : EndsAt closers s) (hnot : closers.any member = false) :
    Stops member s := by
  intro c hc
  rw [Bool.eq_false_iff]
  exact fun hmember => List.any_eq_false.mp hnot c (h c hc) hmember

/-- A text of a class at which the class stops is empty. -/
theorem Stops.eq_nil (h : Stops member s) (hs : s.all member = true) : s = [] := by
  cases s with
  | nil => rfl
  | cons c s => simp [stops_cons.mp h] at hs

/-- Where a class stops is decided by the first of two texts, unless that is empty. -/
theorem stops_append (ht : ∀ c ∈ t, member c = false) (hs : Stops member s) :
    Stops member (t ++ s) := by
  cases t with
  | nil => exact hs
  | cons c t => simp [ht c]

theorem takeWhile_append_of_stops (hw : ∀ c ∈ w, member c = true) (hs : Stops member s) :
    (w ++ s).takeWhile member = w := by
  rw [List.takeWhile_append_of_pos hw]
  cases s with
  | nil => simp
  | cons c s => simp [stops_cons.mp hs]

theorem dropWhile_append_of_stops (hw : ∀ c ∈ w, member c = true) (hs : Stops member s) :
    (w ++ s).dropWhile member = s := by
  rw [List.dropWhile_append_of_pos hw]
  cases s with
  | nil => rfl
  | cons c s => simp [stops_cons.mp hs]

theorem stops_dropWhile (s : List Char) : Stops member (s.dropWhile member) := by
  intro c hc
  have h := List.head?_dropWhile_not member s
  rw [Option.mem_def.mp hc] at h
  simpa using h

/-- A run is read back when it is not empty and the class stops behind it. -/
theorem takeRun?_append (hne : w ≠ []) (hw : ∀ c ∈ w, member c = true) (hs : Stops member s) :
    takeRun? member (w ++ s) = some (w, s) := by
  unfold takeRun?
  rw [takeWhile_append_of_stops hw hs, dropWhile_append_of_stops hw hs]
  cases w with
  | nil => exact absurd rfl hne
  | cons c w => rfl

/-- A run that is read has characters of the class only, and the class stops behind it. -/
theorem of_takeRun? (h : takeRun? member s = some (w, t)) :
    s = w ++ t ∧ w ≠ [] ∧ (∀ c ∈ w, member c = true) ∧ Stops member t := by
  obtain ⟨hne, rfl, rfl⟩ := takeRun?_eq_some h
  exact ⟨(append_of_takeRun? h).symm, hne, fun c hc => List.mem_takeWhile_imp hc,
    stops_dropWhile s⟩

end Ends

/-! ## Blanks -/

section Blanks

variable {b s : List Char}

/-- A text of blanks, possibly empty. -/
def Blanks (b : List Char) : Prop :=
  ∀ c ∈ b, isBlank c = true

theorem skipBlanks_append (hb : Blanks b) (hs : Stops isBlank s) : skipBlanks (b ++ s) = s :=
  dropWhile_append_of_stops hb hs

theorem stops_skipBlanks (s : List Char) : Stops isBlank (skipBlanks s) :=
  stops_dropWhile s

/-- What is skipped are blanks. -/
theorem exists_blanks_append (s : List Char) : ∃ b, Blanks b ∧ s = b ++ skipBlanks s :=
  ⟨s.takeWhile isBlank, fun _ hc => List.mem_takeWhile_imp hc,
    List.takeWhile_append_dropWhile.symm⟩

/-- A class without blanks stops at blanks. -/
theorem Blanks.stops {member : Char → Bool} (hb : Blanks b)
    (hmember : ∀ c, member c = true → isBlank c = false) (hs : Stops member s) :
    Stops member (b ++ s) := by
  refine stops_append (fun c hc => ?_) hs
  rw [Bool.eq_false_iff]
  intro h
  have := hmember c h
  simp [hb c hc] at this

end Blanks

/-! ## Words -/

section Words

variable {s w t : List Char}

/-- A text of ASCII letters that is not empty. -/
def Word (w : List Char) : Prop :=
  w ≠ [] ∧ ∀ c ∈ w, c.isAlpha = true

instance (w : List Char) : Decidable (Word w) :=
  decidable_of_iff (!w.isEmpty && w.all Char.isAlpha) (by simp [Word])

theorem takeWord?_append (hw : Word w) (hs : Stops Char.isAlpha s) :
    takeWord? (w ++ s) = some (w, s) :=
  takeRun?_append hw.1 hw.2 hs

theorem word_of_takeWord? (h : takeWord? s = some (w, t)) :
    Word w ∧ s = w ++ t ∧ Stops Char.isAlpha t := by
  obtain ⟨hs, hne, hw, ht⟩ := of_takeRun? h
  exact ⟨⟨hne, hw⟩, hs, ht⟩

theorem Word.exists_cons (hw : Word w) : ∃ c u, w = c :: u ∧ c.isAlpha = true := by
  obtain ⟨c, u, rfl⟩ := List.exists_cons_of_ne_nil hw.1
  exact ⟨c, u, rfl, hw.2 c List.mem_cons_self⟩

end Words

/-! ## Classes without a common character -/

section Classes

variable {c : Char}

/-- The codes of the ASCII letters. -/
theorem toNat_of_isAlpha (h : c.isAlpha = true) :
    (65 ≤ c.toNat ∧ c.toNat ≤ 90) ∨ (97 ≤ c.toNat ∧ c.toNat ≤ 122) := by
  change (decide (c.val ≥ 65 ∧ c.val ≤ 90) || (c.val ≥ 97 && c.val ≤ 122)) = true at h
  simp only [Bool.or_eq_true, Bool.and_eq_true, decide_eq_true_eq] at h
  rcases h with ⟨h₁, h₂⟩ | ⟨h₁, h₂⟩
  · exact .inl ⟨UInt32.le_iff_toNat_le.mp h₁, UInt32.le_iff_toNat_le.mp h₂⟩
  · exact .inr ⟨UInt32.le_iff_toNat_le.mp h₁, UInt32.le_iff_toNat_le.mp h₂⟩

theorem range_of_isBlank (h : isBlank c = true) :
    ∃ r ∈ blankRanges, r.1 ≤ c.toNat ∧ c.toNat ≤ r.2 := by
  simpa [isBlank] using h

theorem range_of_isDigit (h : isDigit c = true) :
    ∃ z ∈ digitZeros, z ≤ c.toNat ∧ c.toNat ≤ z + 9 := by
  simpa [isDigit, digitValue?] using h

/-- No digit is blank. -/
theorem isBlank_eq_false_of_isDigit (h : isDigit c = true) : isBlank c = false := by
  rw [Bool.eq_false_iff]
  intro hb
  obtain ⟨r, hr, hr₁, hr₂⟩ := range_of_isBlank hb
  obtain ⟨z, hz, hz₁, hz₂⟩ := range_of_isDigit h
  -- the two tables have no code in common
  have apart : ∀ r ∈ blankRanges, ∀ z ∈ digitZeros, r.2 < z ∨ z + 9 < r.1 := by decide
  have := apart r hr z hz
  omega

/-- No letter is blank. -/
theorem isBlank_eq_false_of_isAlpha (h : c.isAlpha = true) : isBlank c = false := by
  rw [Bool.eq_false_iff]
  intro hb
  obtain ⟨r, hr, hr₁, hr₂⟩ := range_of_isBlank hb
  have apart : ∀ r ∈ blankRanges, r.2 < 65 ∨ 122 < r.1 := by decide
  have := apart r hr
  have := toNat_of_isAlpha h
  omega

/-- No letter is a digit. -/
theorem isDigit_eq_false_of_isAlpha (h : c.isAlpha = true) : isDigit c = false := by
  rw [Bool.eq_false_iff]
  intro hd
  obtain ⟨z, hz, hz₁, hz₂⟩ := range_of_isDigit hd
  have apart : ∀ z ∈ digitZeros, z + 9 < 65 ∨ 122 < z := by decide
  have := apart z hz
  have := toNat_of_isAlpha h
  omega

/-- A class that leaves out a fixed character has only other characters. -/
theorem ne_of_member {member : Char → Bool} {d : Char} (h : member c = true)
    (hd : member d = false) : c ≠ d := by
  rintro rfl
  simp [hd] at h

end Classes

/-! ## Tokens behind blanks -/

section Tokens

variable {token : String} {s t w : List Char}

theorem dropToken?_append (token : String) (s : List Char) :
    dropToken? token (token.toList ++ s) = some s := by
  unfold dropToken?
  rw [if_pos (List.prefix_append _ _), List.drop_left]

/-- A token that does not begin with a blank is taken behind blanks. -/
theorem dropToken?_skipBlanks_iff {c : Char} {u : List Char} (htoken : token.toList = c :: u)
    (hc : isBlank c = false) :
    dropToken? token (skipBlanks s) = some t ↔ ∃ b, Blanks b ∧ s = b ++ (token.toList ++ t) := by
  constructor
  · intro h
    obtain ⟨b, hb, hs⟩ := exists_blanks_append s
    exact ⟨b, hb, by rw [append_of_dropToken? h]; exact hs⟩
  · rintro ⟨b, hb, rfl⟩
    have hstop : Stops isBlank (token.toList ++ t) := by
      rw [htoken]
      exact stops_cons.mpr hc
    rw [skipBlanks_append hb hstop, dropToken?_append]

/-- A word is taken behind blanks, up to where it ends. -/
theorem takeWord?_skipBlanks_iff :
    takeWord? (skipBlanks s) = some (w, t) ↔
      ∃ b, Blanks b ∧ Word w ∧ Stops Char.isAlpha t ∧ s = b ++ (w ++ t) := by
  constructor
  · intro h
    obtain ⟨b, hb, hs⟩ := exists_blanks_append s
    obtain ⟨hw, heq, ht⟩ := word_of_takeWord? h
    exact ⟨b, hb, hw, ht, by rw [← heq]; exact hs⟩
  · rintro ⟨b, hb, hw, ht, rfl⟩
    have htake := takeWord?_append hw ht
    obtain ⟨c, u, rfl, hc⟩ := hw.exists_cons
    have hstop : Stops isBlank (c :: u ++ t) := stops_cons.mpr (isBlank_eq_false_of_isAlpha hc)
    rwa [skipBlanks_append hb hstop]

end Tokens

end Rulebook.Text
