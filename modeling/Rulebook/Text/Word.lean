import Rulebook.Text.Run

/-!
# Words

A word is a run of ASCII letters; names, labels and the literals `true` and `false` are words.
-/

namespace Rulebook.Text

/-- The word in front of a text, which is not empty, and what follows it. -/
def takeWord? (s : List Char) : Option (List Char × List Char) :=
  takeRun? Char.isAlpha s

/-! ## Laws -/

/-- A word takes at least one character. -/
theorem length_takeWord?_lt {s word rest : List Char} (h : takeWord? s = some (word, rest)) :
    rest.length < s.length :=
  length_takeRun?_lt h

end Rulebook.Text
