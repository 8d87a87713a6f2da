import StrategySearch.Decimal.Text

/-! Reports: pieces of text in the order in which they are shown. A piece that cannot be written is
missing, and nothing is shown from there on. -/

set_option autoImplicit false

namespace StrategySearch

abbrev Report := List (Option String)

namespace Report

def text : Report → String
  | some piece :: rest => piece ++ text rest
  | _ => ""

def isComplete (r : Report) : Bool := r.all Option.isSome

def line (s : String) : Report := [some (s ++ "\n")]

end Report

def Decimal.percent? (d : Decimal) : Option String := do
  let hundredths ← d.mul? .hundred
  return (← hundredths.fixed? 2) ++ "%"

end StrategySearch
