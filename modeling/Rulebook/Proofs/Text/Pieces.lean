import Mathlib.Data.List.SplitBy
import Rulebook.Proofs.Text.Front

/-!
# Words inside a text

A text is made of pieces: its words, each up to where the letters end on both sides, and the
characters between them one by one. A word inside of a longer word is no piece, so that a function
on pieces replaces whole words only.
-/

namespace Rulebook.Text

/-- The words of a text, as long as they go, and every other character by itself. -/
def pieces (s : List Char) : List (List Char) :=
  s.splitBy fun c d => c.isAlpha && d.isAlpha

/-- The text with every piece replaced. -/
def replace (f : List Char → List Char) (s : List Char) : List Char :=
  (pieces s).flatMap f

/-- A text without letters. -/
def Wordless (s : List Char) : Prop :=
  ∀ c ∈ s, c.isAlpha = false

instance (s : List Char) : Decidable (Wordless s) :=
  decidable_of_iff (s.all fun c => !c.isAlpha) (by simp [Wordless])

/-! ## Laws -/

variable {f : List Char → List Char} {s t w : List Char}

theorem replace_nil (f : List Char → List Char) : replace f [] = [] :=
  rfl

/-- No piece goes on where the second text begins with something else than a letter. -/
theorem pieces_append (ht : Stops Char.isAlpha t) : pieces (s ++ t) = pieces s ++ pieces t := by
  apply List.splitBy_append
  intro c _ d hd
  rw [ht d hd, Bool.and_false]

/-- No piece goes on behind a text without letters. -/
theorem Wordless.pieces_append (hs : Wordless s) (t : List Char) :
    pieces (s ++ t) = pieces s ++ pieces t := by
  apply List.splitBy_append
  intro c hc d _
  rw [hs c (List.mem_of_mem_getLast? hc), Bool.false_and]

theorem replace_append (ht : Stops Char.isAlpha t) :
    replace f (s ++ t) = replace f s ++ replace f t := by
  rw [replace, pieces_append ht, List.flatMap_append]
  rfl

/-- A word is one piece. -/
theorem Word.pieces_eq (hw : Word w) : pieces w = [w] := by
  apply List.splitBy_of_isChain hw.1
  apply List.Pairwise.isChain
  apply List.pairwise_of_forall_mem_list
  intro c hc d hd
  rw [hw.2 c hc, hw.2 d hd, Bool.and_true]

theorem Word.replace_eq (hw : Word w) : replace f w = f w := by
  rw [replace, hw.pieces_eq, List.flatMap_singleton]

/-- What leaves single characters alone leaves a text without letters alone. -/
theorem Wordless.replace_append (hs : Wordless s) (hf : ∀ c, f [c] = [c]) (t : List Char) :
    replace f (s ++ t) = s ++ replace f t := by
  -- by the characters, each of which is a piece
  induction s with
  | nil => rfl
  | cons c s ih =>
    have hc : Wordless [c] := fun d hd => hs d (List.mem_cons.mpr (.inl (List.mem_singleton.mp hd)))
    have hrest := ih fun d hd => hs d (List.mem_cons_of_mem _ hd)
    have hpieces : pieces (c :: (s ++ t)) = [c] :: pieces (s ++ t) := hc.pieces_append (s ++ t)
    rw [List.cons_append, replace, hpieces, List.flatMap_cons, hf, List.singleton_append]
    exact congrArg _ hrest

theorem Wordless.replace_eq (hs : Wordless s) (hf : ∀ c, f [c] = [c]) : replace f s = s := by
  have happend := hs.replace_append hf []
  rwa [replace_nil, List.append_nil] at happend

theorem Wordless.stops (hs : Wordless s) : Stops Char.isAlpha s :=
  fun c hc => hs c (List.mem_of_mem_head? hc)

/-- There are no letters among blanks. -/
theorem Blanks.wordless (hs : Blanks s) : Wordless s := by
  intro c hc
  rw [Bool.eq_false_iff]
  intro halpha
  have hblank := isBlank_eq_false_of_isAlpha halpha
  rw [hs c hc] at hblank
  exact Bool.noConfusion hblank

end Rulebook.Text
