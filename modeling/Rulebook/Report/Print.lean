import Rulebook.Report

/-!
# Printed reports

A report as lines of text for a terminal.
-/

namespace Rulebook.Report

/-- Lines of text, each ended. -/
def unlines (lines : List String) : String :=
  String.join (lines.map (· ++ "\n"))

/-- The lines about variables of one kind. -/
def usageLines (kind : String) (usage : List (String × Nat)) : List String :=
  usage.map fun entry => "    " ++ entry.1 ++ kind ++ toString entry.2 ++ " rule(s)"

/-- The lines about warnings, numbered from one. -/
def warningLines : List Warning → List String
  | [] => ["✨ NO WARNINGS - Rules look clean!"]
  | warnings =>
    "⚠️  WARNINGS" ::
      warnings.mapIdx fun i warning => "  " ++ toString (i + 1) ++ ". " ++ warning.message

/-- A report as text. -/
def render (report : Report) : String :=
  let rule := String.ofList (List.replicate 70 '=')
  unlines <|
    ["", rule, "RULE ANALYSIS REPORT", rule, "",
      "📊 BASIC METRICS",
      "  Matcher Rules:         " ++ toString report.totalMatchers,
      "  Formula Rules:         " ++ toString report.totalFormulas,
      "  Max Expression Depth:  " ++ toString report.maxDepth,
      "  Total Expression Nodes:" ++ toString report.totalNodes,
      "",
      "📈 VARIABLE USAGE"] ++
    usageLines " (bool):  " report.truthUsage ++
    usageLines " (float): " report.numberUsage ++
    [""] ++ warningLines report.warnings ++ [""]

end Rulebook.Report
