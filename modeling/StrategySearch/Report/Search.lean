import StrategySearch.Report.Basic
import StrategySearch.Search.Run

/-! The report on a search, and the list of the strategies that can be searched. -/

set_option autoImplicit false

namespace StrategySearch.Report

def search (o : SearchOutcome) : Report :=
  line s!"\n=== SEARCH RESULT: {o.strategy} ===" ++ line s!"Evaluations: {o.history.length}" ++
    line s!"Failed folds: {o.failedFolds}" ++
    [some "Best objective: ", o.bestObjective.fixed? 4, some "\n"] ++ line "Best parameters:" ++
    o.bestParameters.entries.flatMap (fun (name, value) => line s!"  {name}: {value.text}") ++
    line ""

def nameWidth : Nat := 45

def row (name group : String) : Report := line (Text.padRight nameWidth name ++ " " ++ group)

def strategies : Report :=
  row "STRATEGY" "PARAMETER GROUP" ++ Strategy.all.flatMap fun strategy =>
    row strategy.name ((strategy.group?.map ParameterGroup.name).getD "-")

end StrategySearch.Report
