import Rulebook.Store
import Rulebook.Text.Names

/-!
# Reports on stores

An inventory of a store: how many rules and how large their expressions, which variables how many
rules use, which labels are produced and required, and warnings about rules that can never
contribute to a solution. Making a report changes nothing.
-/

namespace Rulebook

/-- Something in a store that is probably a mistake. -/
inductive Warning where
  /-- Matchers produce these labels and no formula requires them: solving fails when they win. -/
  | withoutFormula (labels : List String)
  /-- Formulas require these labels and no matcher produces them. -/
  | withoutMatcher (labels : List String)
  /-- A later formula requires the same label as the one with this text. -/
  | shadowed (text : String)
deriving DecidableEq, Repr

/-- The text of a warning. -/
def Warning.message : Warning → String
  | withoutFormula labels => "Labels without formula: " ++ ", ".intercalate labels
  | withoutMatcher labels => "Formulas never selected: " ++ ", ".intercalate labels
  | shadowed text => "Shadowed formula: " ++ text

/-- The inventory of a store. Sets of names are sorted lists. -/
structure Report where
  totalMatchers : Nat
  totalFormulas : Nat
  /-- For each variable of the matchers, how many of them use it. -/
  truthUsage : List (String × Nat)
  /-- For each variable of the formulas, how many of them use it. -/
  numberUsage : List (String × Nat)
  maxDepth : Nat
  totalNodes : Nat
  labelsProduced : List String
  labelsRequired : List String
  labelsWithoutFormula : List String
  labelsWithoutMatcher : List String
  /-- The texts of the formulas that a later one hides, in the order of the store. -/
  shadowedFormulas : List String
  warnings : List Warning

namespace Report

/-- The names of the variables of the matchers. -/
def truthNames (report : Report) : List String :=
  report.truthUsage.map Prod.fst

/-- The names of the variables of the formulas. -/
def numberNames (report : Report) : List String :=
  report.numberUsage.map Prod.fst

/-- For each name, how many of the lists of names hold it. -/
def usage (names : List (List String)) : List (String × Nat) :=
  (Text.sortNames names.flatten).map fun name => (name, names.countP (·.contains name))

/-- The rules whose label has been seen, outside the list or further to its front. -/
def repeated {ε : Type} (seen : List String) : List (Rule ε) → List (Rule ε)
  | [] => []
  | rule :: rules =>
    let further := repeated (rule.label :: seen) rules
    if seen.contains rule.label then rule :: further else further

/-- The rules that a later rule with the same label hides, found from the newest to the oldest. -/
def shadowed {ε : Type} (rules : List (Rule ε)) : List (Rule ε) :=
  (repeated [] rules.reverse).reverse

/-- A warning about a set of labels, unless it is empty. -/
def aboutLabels (warning : List String → Warning) (labels : List String) : List Warning :=
  if labels.isEmpty then [] else [warning labels]

/-- The warnings with one more, unless it has been given already. -/
def addWarning (warnings : List Warning) (warning : Warning) : List Warning :=
  if warning ∈ warnings then warnings else warnings ++ [warning]

/-- The report on a store. -/
def ofStore (store : Store) : Report :=
  let produced := Text.sortNames (store.matchers.map (·.label))
  let required := Text.sortNames (store.formulas.map (·.label))
  let withoutFormula := produced.filter (!required.contains ·)
  let withoutMatcher := required.filter (!produced.contains ·)
  let shadowedTexts := (shadowed store.formulas).map (·.text)
  { totalMatchers := store.matchers.length
    totalFormulas := store.formulas.length
    truthUsage := usage (store.matchers.map (·.expression.names))
    numberUsage := usage (store.formulas.map (·.expression.names))
    maxDepth :=
      max (greatest (store.matchers.map (·.expression.depth)))
        (greatest (store.formulas.map (·.expression.depth)))
    totalNodes :=
      total (store.matchers.map (·.expression.size)) +
        total (store.formulas.map (·.expression.size))
    labelsProduced := produced
    labelsRequired := required
    labelsWithoutFormula := withoutFormula
    labelsWithoutMatcher := withoutMatcher
    shadowedFormulas := shadowedTexts
    warnings :=
      (aboutLabels .withoutFormula withoutFormula ++ aboutLabels .withoutMatcher withoutMatcher ++
        shadowedTexts.map Warning.shadowed).foldl addWarning [] }

/-! ## Laws -/

variable {store : Store} {label name : String}

theorem mem_usage_iff {α : Type} {rules : List α} {names : α → List String} :
    name ∈ (usage (rules.map names)).map Prod.fst ↔ ∃ rule ∈ rules, name ∈ names rule := by
  simp [usage, Text.mem_sortNames, ← List.flatMap_def]

theorem mem_truthNames_iff :
    name ∈ (ofStore store).truthNames ↔ ∃ rule ∈ store.matchers, name ∈ rule.expression.names :=
  mem_usage_iff

theorem mem_numberNames_iff :
    name ∈ (ofStore store).numberNames ↔ ∃ rule ∈ store.formulas, name ∈ rule.expression.names :=
  mem_usage_iff

theorem mem_labelsRequired_iff :
    label ∈ (ofStore store).labelsRequired ↔ ∃ formula ∈ store.formulas, formula.label = label := by
  simp [ofStore, Text.mem_sortNames]

theorem mem_labelsWithoutFormula_iff :
    label ∈ (ofStore store).labelsWithoutFormula ↔
      (∃ matcher ∈ store.matchers, matcher.label = label) ∧
        ∀ formula ∈ store.formulas, formula.label ≠ label := by
  simp [ofStore, Text.mem_sortNames]

theorem mem_labelsWithoutMatcher_iff :
    label ∈ (ofStore store).labelsWithoutMatcher ↔
      (∃ formula ∈ store.formulas, formula.label = label) ∧
        ∀ matcher ∈ store.matchers, matcher.label ≠ label := by
  simp [ofStore, Text.mem_sortNames]

end Report

end Rulebook
