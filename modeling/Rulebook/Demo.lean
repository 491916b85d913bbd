import Rulebook.Expression.Form
import Rulebook.Report.Print
import Rulebook.Store.Solve
import Rulebook.Yaml.Render

/-!
# Demonstration

A fixed run: the base rules and two more are solved for fixed variables, and the solution, the
report and the rules are printed.
-/

namespace Rulebook.Demo

/-- The rules of the demonstration. -/
def store : Store :=
  (Store.base.addAll
    ["H = M => K = (E * D * D / (E * (D * (F + E))))",
      "A || !A => H = M"]).1

/-- The truth values of the demonstration. -/
def truths : Bindings Bool :=
  Bindings.ofList [("A", false), ("B", true), ("C", true)]

/-- The numbers of the demonstration. -/
def numbers : Bindings Float :=
  Bindings.ofList [("D", 1.5), ("E", 20.0), ("F", 10.0)]

/-- The line about the solution. -/
def solutionLine : Except SolveError Solution → String
  | .ok s => "✅ H = " ++ s.label ++ ", K = " ++ Number.Layout.plain.render s.value ++ "\n"
  | .error e => "❌ " ++ e.message.legible ++ "\n"

/-- What the demonstration prints. -/
def output : String :=
  solutionLine (store.solve truths numbers) ++ (Report.ofStore store).render ++
    Yaml.render store.form ++ "\n"

end Rulebook.Demo
