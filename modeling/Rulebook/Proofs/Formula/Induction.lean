import Rulebook.Formula

/-!
# Induction on factors

What holds of constants and variables, and of parentheses whenever it holds of all factors inside,
holds of every factor. The two chains between a pair of parentheses and its factors are passed over
once, here.
-/

namespace Rulebook

/-- Induction on factors, over the factors that stand between parentheses. -/
@[elab_as_elim]
theorem Factor.induct {motive : Factor → Prop} (const : ∀ x, motive (.const x))
    (var : ∀ name, motive (.var name))
    (parens : ∀ e : Formula, (∀ t ∈ e.operands, ∀ f ∈ t.operands, motive f) → motive (.parens e))
    (f : Factor) : motive f := by
  refine @Factor.rec motive (fun e => ∀ t ∈ e.operands, ∀ f ∈ t.operands, motive f)
    (fun t => ∀ f ∈ t.operands, motive f) (fun l => ∀ p ∈ l, ∀ f ∈ p.2.operands, motive f)
    (fun l => ∀ p ∈ l, motive p.2) (fun p => ∀ f ∈ p.2.operands, motive f)
    (fun p => motive p.2) const var parens ?_ ?_ ?_ ?_ ?_ ?_ ?_ ?_ f
  · -- a formula: its head and the terms behind it
    intro head tail hhead htail t ht
    rcases List.mem_cons.mp ht with rfl | ht
    · exact hhead
    · obtain ⟨p, hp, rfl⟩ := List.mem_map.mp ht
      exact htail p hp
  · -- a term: its head and the factors behind it
    intro head tail hhead htail f hf
    rcases List.mem_cons.mp hf with rfl | hf
    · exact hhead
    · obtain ⟨p, hp, rfl⟩ := List.mem_map.mp hf
      exact htail p hp
  · intro p hp
    exact absurd hp List.not_mem_nil
  · intro pair rest hpair hrest p hp
    rcases List.mem_cons.mp hp with rfl | hp
    · exact hpair
    · exact hrest p hp
  · intro p hp
    exact absurd hp List.not_mem_nil
  · intro pair rest hpair hrest p hp
    rcases List.mem_cons.mp hp with rfl | hp
    · exact hpair
    · exact hrest p hp
  · exact fun _ _ h => h
  · exact fun _ _ h => h

end Rulebook
