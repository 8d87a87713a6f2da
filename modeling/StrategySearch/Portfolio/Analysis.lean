import StrategySearch.Portfolio.Investment

/-! The figures of a backtest: the return on equity, and how long and how often investments paid. -/

set_option autoImplicit false

namespace StrategySearch

structure Analysis where
  /-- Missing for an empty series and for one that starts from nothing. -/
  totalReturn : Option Decimal
  averageLengthDays : Decimal
  positiveRatio : Decimal
  investments : List Investment
  snapshots : List Snapshot

namespace Analysis

def investmentCount (a : Analysis) : Nat := a.investments.length

def totalReturn? (series : List Snapshot) : Answer (Option Decimal) :=
  match series.head?, series.getLast? with
  | some first, some last =>
    match last.equity.div? first.equity with
    | some ratio => (Answer.orFault (ratio.sub? .one)).map some
    | none => .ok none
  | _, _ => .ok none

def share (total : Decimal) (count : Nat) : Answer Decimal :=
  if count = 0 then .ok .zero
  else Answer.orFault ((Decimal.make? count 0).bind total.div?)

def averageLength (investments : List Investment) : Answer Decimal := do
  let lengths ← investments.mapM fun i => Answer.orFault i.lengthDays?
  share (← Answer.orFault (Decimal.sum? lengths)) lengths.length

def positiveShare (investments : List Investment) : Answer Decimal := do
  let positive := investments.countP Investment.isProfitable
  share (← Answer.orFault (Decimal.make? positive 0)) investments.length

def ofSeries (series : List Snapshot) : Answer Analysis := do
  let investments ← Answer.ofExcept (Investment.reconstruct series)
  let averageLengthDays ← averageLength investments
  let positiveRatio ← positiveShare investments
  let totalReturn ← totalReturn? series
  return ⟨totalReturn, averageLengthDays, positiveRatio, investments, series⟩

def orNull (d : Option Decimal) : Json :=
  match d with
  | some d => d.toJson
  | none => .null

def summaryFields (a : Analysis) : List (String × Json) :=
  [("totalReturn", orNull a.totalReturn), ("investmentCount", .integer a.investmentCount),
    ("avgInvestmentLengthDays", a.averageLengthDays.toJson),
    ("positiveInvestmentRatio", a.positiveRatio.toJson),
    ("investments", .list (a.investments.map Investment.toJson))]

def toJson (a : Analysis) : Json :=
  .record (a.summaryFields ++ [("snapshots", .list (a.snapshots.map Snapshot.toJson))])

end Analysis
end StrategySearch
