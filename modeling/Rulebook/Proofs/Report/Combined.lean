import Mathlib.Data.List.Basic
import Mathlib.Data.List.Perm.Basic
import Rulebook.Proofs.Report.Shadowed
import Rulebook.Proofs.Store.Layers

/-!
# Reports on stores in parts

A report goes through the matchers and through the formulas, and puts together sums, a maximum, sets
of labels and one table for each kind of variable. Main statement: what it says of a store comes
from what it says of the parts of the store, and is the same in whatever order the rules stand. The
order decides which formulas are shadowed, but not how many.
-/

namespace Rulebook

/-! ## Sums and maxima -/

theorem total_append (ms ns : List Nat) : total (ms ++ ns) = total ms + total ns :=
  List.sum_append

theorem total_eq_of_perm {ms ns : List Nat} (h : ms.Perm ns) : total ms = total ns :=
  h.sum_nat

theorem greatest_append (ms ns : List Nat) :
    greatest (ms ++ ns) = max (greatest ms) (greatest ns) := by
  induction ms with
  | nil => exact (Nat.zero_max _).symm
  | cons m ms ih =>
    show max m (greatest (ms ++ ns)) = max (max m (greatest ms)) (greatest ns)
    rw [ih, Nat.max_assoc]

theorem greatest_eq_of_perm {ms ns : List Nat} (h : ms.Perm ns) : greatest ms = greatest ns :=
  h.foldr_eq 0

namespace Report

/-! ## Tables of usage -/

/-- How many rules use a name by a table. A name that is not in the table is used by none. -/
def users (usage : List (String × Nat)) (name : String) : Nat :=
  (usage.lookup name).getD 0

/-- A table holds the names that are used, each of them once and with how often it is used. -/
structure Tabulates (usage : List (String × Nat)) (uses : String → Nat) : Prop where
  nodup : (usage.map Prod.fst).Nodup
  mem_iff : ∀ name, name ∈ usage.map Prod.fst ↔ 0 < uses name
  users_eq : ∀ name, users usage name = uses name

/-- How many rules mention a name, each of them counted once. -/
def mentions {ε : Type} (names : ε → List String) (rules : List (Rule ε)) (name : String) : Nat :=
  rules.countP fun rule => decide (name ∈ names rule.expression)

theorem users_map (names : List String) (uses : String → Nat) (name : String) :
    users (names.map fun name => (name, uses name)) name =
      if name ∈ names then uses name else 0 := by
  unfold users
  split
  · rename_i hname
    rw [List.lookup_graph uses hname, Option.getD_some]
  · rename_i hname
    have hnone : (names.map fun name => (name, uses name)).lookup name = none := by
      rw [List.lookup_eq_none_iff]
      intro entry hentry
      obtain ⟨other, hother, rfl⟩ := List.mem_map.mp hentry
      exact bne_iff_ne.mpr fun h => hname (h ▸ hother)
    rw [hnone, Option.getD_none]

/-- The table for some lists of names counts the lists that hold a name. -/
theorem tabulates_usage (l : List (List String)) :
    Tabulates (usage l) fun name => l.countP (·.contains name) := by
  have hnames : (usage l).map Prod.fst = Text.sortNames l.flatten := by
    simp [usage, Function.comp_def]
  have hmem : ∀ name, name ∈ Text.sortNames l.flatten ↔ 0 < l.countP (·.contains name) := by
    intro name
    simp [Text.mem_sortNames, List.countP_pos_iff]
  refine ⟨hnames ▸ Text.nodup_sortNames l.flatten, hnames ▸ hmem, fun name => ?_⟩
  rw [usage, users_map]
  split
  · rfl
  · rename_i hname
    -- no list holds a name that is not in the table
    rw [hmem] at hname
    omega

theorem tabulates_mentions {ε : Type} (names : ε → List String) (rules : List (Rule ε)) :
    Tabulates (usage (rules.map fun rule => names rule.expression)) (mentions names rules) := by
  have huses : (fun name => (rules.map fun rule => names rule.expression).countP
      (·.contains name)) = mentions names rules := by
    funext name
    simp [mentions, List.countP_map, Function.comp_def]
  exact huses ▸ tabulates_usage _

theorem users_usage_append (l m : List (List String)) (name : String) :
    users (usage (l ++ m)) name = users (usage l) name + users (usage m) name := by
  simp only [(tabulates_usage _).users_eq, List.countP_append]

/-- A table does not depend on the order of the lists. -/
theorem usage_eq_of_perm {l m : List (List String)} (h : l.Perm m) : usage l = usage m := by
  have hnames : Text.sortNames l.flatten = Text.sortNames m.flatten :=
    Text.sortNames_congr fun _ => h.flatten.mem_iff
  unfold usage
  rw [hnames]
  exact List.map_congr_left fun name _ => by rw [h.countP_eq]

/-! ## Two stores -/

/-- What a report says of all rules is put together from what two reports say of some of them. -/
structure Combines (report first second : Report) : Prop where
  totalMatchers_eq : report.totalMatchers = first.totalMatchers + second.totalMatchers
  totalFormulas_eq : report.totalFormulas = first.totalFormulas + second.totalFormulas
  totalNodes_eq : report.totalNodes = first.totalNodes + second.totalNodes
  maxDepth_eq : report.maxDepth = max first.maxDepth second.maxDepth
  produced_iff : ∀ label,
    label ∈ report.labelsProduced ↔ label ∈ first.labelsProduced ∨ label ∈ second.labelsProduced
  required_iff : ∀ label,
    label ∈ report.labelsRequired ↔ label ∈ first.labelsRequired ∨ label ∈ second.labelsRequired
  truthUsers_eq : ∀ name,
    users report.truthUsage name = users first.truthUsage name + users second.truthUsage name
  numberUsers_eq : ∀ name,
    users report.numberUsage name = users first.numberUsage name + users second.numberUsage name

theorem combines_append (first second : Store) :
    Combines (ofStore (first ++ second)) (ofStore first) (ofStore second) where
  totalMatchers_eq := List.length_append
  totalFormulas_eq := List.length_append
  totalNodes_eq := by
    simp only [ofStore, Store.matchers_append, Store.formulas_append, List.map_append,
      total_append]
    omega
  maxDepth_eq := by
    simp only [ofStore, Store.matchers_append, Store.formulas_append, List.map_append,
      greatest_append]
    omega
  produced_iff label := by
    simp only [ofStore, Store.matchers_append, List.map_append, Text.mem_sortNames, List.mem_append]
  required_iff label := by
    simp only [ofStore, Store.formulas_append, List.map_append, Text.mem_sortNames, List.mem_append]
  truthUsers_eq name := by
    simp only [ofStore, Store.matchers_append, List.map_append, users_usage_append]
  numberUsers_eq name := by
    simp only [ofStore, Store.formulas_append, List.map_append, users_usage_append]

/-! ## Other orders -/

/-- Two reports agree on all but which formulas are shadowed, and what is warned of. -/
structure SameInventory (report other : Report) : Prop where
  totalMatchers_eq : report.totalMatchers = other.totalMatchers
  totalFormulas_eq : report.totalFormulas = other.totalFormulas
  truthUsage_eq : report.truthUsage = other.truthUsage
  numberUsage_eq : report.numberUsage = other.numberUsage
  maxDepth_eq : report.maxDepth = other.maxDepth
  totalNodes_eq : report.totalNodes = other.totalNodes
  labelsProduced_eq : report.labelsProduced = other.labelsProduced
  labelsRequired_eq : report.labelsRequired = other.labelsRequired
  labelsWithoutFormula_eq : report.labelsWithoutFormula = other.labelsWithoutFormula
  labelsWithoutMatcher_eq : report.labelsWithoutMatcher = other.labelsWithoutMatcher
  length_shadowedFormulas_eq : report.shadowedFormulas.length = other.shadowedFormulas.length

theorem sortNames_labels_eq {ε : Type} {rules others : List (Rule ε)} (h : rules.Perm others) :
    Text.sortNames (rules.map (·.label)) = Text.sortNames (others.map (·.label)) :=
  Text.sortNames_congr fun _ => (h.map _).mem_iff

/-- As many rules are shadowed in any order, since all but one for each label are. -/
theorem length_shadowed_eq {ε : Type} {rules others : List (Rule ε)} (h : rules.Perm others) :
    (shadowed rules).length = (shadowed others).length := by
  have hrules := length_shadowed_add rules
  have hothers := length_shadowed_add others
  have hlength := h.length_eq
  have hlabels := (h.map (·.label)).dedup.length_eq
  omega

theorem sameInventory_of_perm {store other : Store} (hmatchers : store.matchers.Perm other.matchers)
    (hformulas : store.formulas.Perm other.formulas) :
    SameInventory (ofStore store) (ofStore other) := by
  have hproduced := sortNames_labels_eq hmatchers
  have hrequired := sortNames_labels_eq hformulas
  exact {
    totalMatchers_eq := hmatchers.length_eq
    totalFormulas_eq := hformulas.length_eq
    truthUsage_eq := usage_eq_of_perm (hmatchers.map _)
    numberUsage_eq := usage_eq_of_perm (hformulas.map _)
    maxDepth_eq := congrArg₂ max (greatest_eq_of_perm (hmatchers.map _))
      (greatest_eq_of_perm (hformulas.map _))
    totalNodes_eq := congrArg₂ (· + ·) (total_eq_of_perm (hmatchers.map _))
      (total_eq_of_perm (hformulas.map _))
    labelsProduced_eq := hproduced
    labelsRequired_eq := hrequired
    labelsWithoutFormula_eq := by simp only [ofStore, hproduced, hrequired]
    labelsWithoutMatcher_eq := by simp only [ofStore, hproduced, hrequired]
    length_shadowedFormulas_eq := by
      simp only [ofStore, List.length_map, length_shadowed_eq hformulas] }

/-- Reports add up, in any order of the rules. The report on two stores, one behind the other, has
the sums of their totals and of their counts for each name, the greater depth and the labels of
both. A count is the number of rules of its kind that mention the name. And reordering the rules of
either kind changes neither these nor the labels without formula or matcher, nor how many formulas
are shadowed. -/
theorem reports_add_up_in_any_order :
    (∀ first second : Store,
      Combines (ofStore (first ++ second)) (ofStore first) (ofStore second)) ∧
    (∀ store : Store,
      Tabulates (ofStore store).truthUsage (mentions Matcher.names store.matchers) ∧
        Tabulates (ofStore store).numberUsage (mentions Formula.names store.formulas)) ∧
    ∀ store other : Store, store.matchers.Perm other.matchers →
      store.formulas.Perm other.formulas → SameInventory (ofStore store) (ofStore other) :=
  ⟨combines_append,
    fun store => ⟨tabulates_mentions Matcher.names store.matchers,
      tabulates_mentions Formula.names store.formulas⟩,
    fun _ _ => sameInventory_of_perm⟩

/-- A formula rule for the label `M`, whose value is that of a variable. -/
def copying (name : String) : Rule Formula :=
  ⟨⟨⟨.var name, []⟩, []⟩, "M", "H = M => K = " ++ name⟩

/-- Of two formulas for one label one is shadowed in either order, though it is not the same one. -/
theorem reports_add_up_in_any_order_swapped :
    [copying "D", copying "E"].Perm [copying "E", copying "D"] ∧
      SameInventory (ofStore ⟨[], [copying "D", copying "E"]⟩)
        (ofStore ⟨[], [copying "E", copying "D"]⟩) ∧
      (ofStore ⟨[], [copying "D", copying "E"]⟩).shadowedFormulas = ["H = M => K = D"] ∧
      (ofStore ⟨[], [copying "E", copying "D"]⟩).shadowedFormulas = ["H = M => K = E"] := by
  have hperm : [copying "D", copying "E"].Perm [copying "E", copying "D"] := .swap _ _ []
  exact ⟨hperm, reports_add_up_in_any_order.2.2 _ _ .nil hperm, rfl, rfl⟩

end Report

end Rulebook
