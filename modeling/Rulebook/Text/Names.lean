/-!
# Sorted names

A set of names as a list: each name once, in the order of code points.
-/

namespace Rulebook.Text

/-- The distinct names of a list in order. -/
def sortNames (names : List String) : List String :=
  names.eraseDups.mergeSort fun a b => decide (a ≤ b)

/-! ## Laws -/

/-- Sorting keeps exactly the names that are there. -/
theorem mem_sortNames {name : String} {names : List String} :
    name ∈ sortNames names ↔ name ∈ names := by
  simp [sortNames]

theorem nodup_eraseDups (names : List String) : names.eraseDups.Nodup := by
  -- by the length, since the first name is taken out of the rest before that is looked at
  match names with
  | [] => exact List.nodup_nil
  | name :: rest =>
    rw [List.eraseDups_cons, List.nodup_cons]
    exact ⟨by simp, nodup_eraseDups (rest.filter fun other => !other == name)⟩
termination_by names.length
decreasing_by exact Nat.lt_succ_of_le (List.length_filter_le _ rest)

/-- Each name is there once. -/
theorem nodup_sortNames (names : List String) : (sortNames names).Nodup :=
  (List.mergeSort_perm _ _).nodup_iff.mpr (nodup_eraseDups names)

/-- The names stand in order. -/
theorem pairwise_sortNames (names : List String) : (sortNames names).Pairwise (· ≤ ·) := by
  have hsorted : (sortNames names).Pairwise fun a b => decide (a ≤ b) = true := by
    apply List.pairwise_mergeSort
    · intro a b c hab hbc
      exact decide_eq_true (String.le_trans (of_decide_eq_true hab) (of_decide_eq_true hbc))
    · intro a b
      simpa using String.le_total a b
  exact hsorted.imp of_decide_eq_true

/-- A set of names is one sorted list, in whatever order and how often the names are given. -/
theorem sortNames_congr {names others : List String}
    (h : ∀ name, name ∈ names ↔ name ∈ others) : sortNames names = sortNames others := by
  have hperm : (sortNames names).Perm (sortNames others) := by
    rw [List.perm_ext_iff_of_nodup (nodup_sortNames names) (nodup_sortNames others)]
    intro name
    rw [mem_sortNames, mem_sortNames, h]
  exact hperm.eq_of_pairwise (fun _ _ _ _ => String.le_antisymm) (pairwise_sortNames names)
    (pairwise_sortNames others)

end Rulebook.Text
