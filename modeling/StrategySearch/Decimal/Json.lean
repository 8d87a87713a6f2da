import StrategySearch.Decimal.Text
import StrategySearch.Json.Reader
import StrategySearch.Json.Writer

/-! Decimals in documents: written as text, read from text or from any number. -/

set_option autoImplicit false

namespace StrategySearch.Decimal

def toJson (d : Decimal) : Json := .text d.text

/-- Integers are exact; a real counts as the shortest digits that name it. -/
def ofJson? : Json → Option Decimal
  | .integer n => make? n 0
  | .real x => ofString? (FloatText.plain.text x)
  | .text s => ofString? s
  | _ => none

end StrategySearch.Decimal
