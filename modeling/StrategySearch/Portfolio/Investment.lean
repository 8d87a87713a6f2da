import StrategySearch.Portfolio.Event

/-! Investments: what was paid for a position and what it was worth when it closed, recovered from
a series of snapshots and ordered by profit. -/

set_option autoImplicit false

namespace StrategySearch

structure Investment where
  symbol : String
  opened : Instant
  closed : Instant
  entryValue : Decimal
  exitValue : Decimal
  deriving DecidableEq

namespace Investment

def profitRatio? (i : Investment) : Option Decimal := i.exitValue.div? i.entryValue

def isProfitable (i : Investment) : Bool :=
  match i.profitRatio? with
  | some ratio => decide (Decimal.one < ratio)
  | none => false

def secondsPerDay : Int := 86400

def lengthDays? (i : Investment) : Option Decimal := do
  (← Decimal.make? (i.closed.secondsSince i.opened) 0).div? (← Decimal.make? secondsPerDay 0)

/-- Higher ratios come first and those without a ratio last. -/
def precedes (a b : Investment) : Bool :=
  match a.profitRatio?, b.profitRatio? with
  | some left, some right => decide (right ≤ left)
  | some _, none => true
  | none, some _ => false
  | none, none => true

def ofPosition (h : Holding) (p : Position) : Except Failure Investment :=
  match p.entryValue? with
  | some entry =>
    .ok ⟨h.closed.symbol, h.opened.instant, h.closed.instant, entry, p.marketValue⟩
  | none => .error (.invalid s!"entry value of {h.closed.symbol} overflows"
      s!"quantity {p.quantity} at average entry price {p.averageEntryPrice}")

/-- The position is looked up once more, in the snapshot in which it was held last. -/
def ofHolding (series : List Snapshot) (h : Holding) : Except Failure Investment :=
  match series[h.closed.index]?.bind (·.position? h.closed.symbol) with
  | some p => ofPosition h p
  | none => .error (.unmatchedClose h.closed.symbol h.closed.instant)

def inCloseOrder (series : List Snapshot) : Except Failure (List Investment) := do
  Snapshot.validateSeries series
  (← PositionEvent.pair (PositionEvent.ofSeries series)).mapM (ofHolding series)

/-- The investments of a well-formed series, the best first and equals in the order of closes. -/
def reconstruct (series : List Snapshot) : Except Failure (List Investment) :=
  (inCloseOrder series).map (·.mergeSort precedes)

def toJson (i : Investment) : Json :=
  .record [("symbol", .text i.symbol), ("openDate", i.opened.toJson),
    ("closeDate", i.closed.toJson), ("entryValue", i.entryValue.toJson),
    ("exitValue", i.exitValue.toJson)]

def ofJson? (j : Json) : Option Investment := do
  match ← j.members? ["symbol", "openDate", "closeDate", "entryValue", "exitValue"] with
  | [symbol, opened, closed, entry, exit] =>
    return ⟨← Json.required? Json.text? symbol, ← Json.required? Instant.ofJson? opened,
      ← Json.required? Instant.ofJson? closed, ← Json.required? Decimal.ofJson? entry,
      ← Json.required? Decimal.ofJson? exit⟩
  | _ => none

end Investment
end StrategySearch
