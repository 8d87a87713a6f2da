import StrategySearch.JobId
import StrategySearch.Portfolio.Analysis
import StrategySearch.Report.Basic

/-! The report on one backtest: its figures, and its investments from the best profit down. -/

set_option autoImplicit false

namespace StrategySearch

/-- The profit with four places, if there is a ratio; nothing if it is too wide to be written. -/
def Investment.ratioText? (i : Investment) : Option String :=
  match i.profitRatio? with
  | some ratio => ratio.fixed? 4
  | none => some "n/a"

namespace Report

def investment (number : Nat) (i : Investment) : Report :=
  match i.ratioText? with
  | none => [none]
  | some ratio =>
    let name := Text.padRight 8 i.symbol
    let place := Text.padLeft 3 (toString number)
    [some s!"  {place}. {name} {i.opened.date} -> {i.closed.date}  entry ",
      i.entryValue.fixed? 2, some "  exit ", i.exitValue.fixed? 2, some s!"  ratio {ratio}\n"]

def investments (top : Nat) (is : List Investment) : Report :=
  if is.isEmpty then []
  else
    line s!"\nTop {min top is.length} investments by profit ratio:" ++
      ((is.take top).zipIdx 1).flatMap fun (i, number) => investment number i

def totalReturn : Option Decimal → Report
  | some total => [total.percent?.map fun percent => s!"Total return: {percent}\n"]
  | none => line "Total return: no data"

def backtest (job : JobId) (top : Nat) (a : Analysis) : Report :=
  line s!"\n=== BACKTEST {job} ===" ++ totalReturn a.totalReturn ++
    line s!"Investments: {a.investmentCount}" ++
    [some "Average investment length: ", a.averageLengthDays.fixed? 1, some " days\n",
      a.positiveRatio.percent?.map fun percent => s!"Positive investments: {percent}\n"] ++
    investments top a.investments ++ line ""

end Report
end StrategySearch
