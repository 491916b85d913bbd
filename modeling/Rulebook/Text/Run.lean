/-!
# Runs and fixed tokens

The two ways in which a reader takes something off the front of a text: as many characters of a
class as there are, or a token that is written in only one way.
-/

namespace Rulebook.Text

/-- The run of characters of a class in front of a text, which is not empty, and what follows it. -/
def takeRun? (member : Char → Bool) (s : List Char) : Option (List Char × List Char) :=
  match s.takeWhile member with
  | [] => none
  | run => some (run, s.dropWhile member)

/-- What follows a fixed token in front of a text. -/
def dropToken? (token : String) (s : List Char) : Option (List Char) :=
  if token.toList <+: s then some (s.drop token.toList.length) else none

/-! ## Laws -/

theorem takeRun?_eq_some {member : Char → Bool} {s run rest : List Char}
    (h : takeRun? member s = some (run, rest)) :
    run ≠ [] ∧ run = s.takeWhile member ∧ rest = s.dropWhile member := by
  unfold takeRun? at h
  split at h
  · simp at h
  · rename_i hne
    obtain ⟨rfl, rfl⟩ := Prod.mk.inj (Option.some.inj h)
    exact ⟨hne, rfl, rfl⟩

/-- A run and its rest make up the text. -/
theorem append_of_takeRun? {member : Char → Bool} {s run rest : List Char}
    (h : takeRun? member s = some (run, rest)) : run ++ rest = s := by
  obtain ⟨_, rfl, rfl⟩ := takeRun?_eq_some h
  exact List.takeWhile_append_dropWhile

/-- A run takes at least one character. -/
theorem length_takeRun?_lt {member : Char → Bool} {s run rest : List Char}
    (h : takeRun? member s = some (run, rest)) : rest.length < s.length := by
  rw [← append_of_takeRun? h, List.length_append]
  have := List.length_pos_iff.2 (takeRun?_eq_some h).1
  omega

/-- A token and its rest make up the text. -/
theorem append_of_dropToken? {token : String} {s rest : List Char}
    (h : dropToken? token s = some rest) : token.toList ++ rest = s := by
  unfold dropToken? at h
  split at h
  · rename_i hs
    obtain rfl := Option.some.inj h
    exact List.prefix_iff_eq_append.1 hs
  · simp at h

end Rulebook.Text
