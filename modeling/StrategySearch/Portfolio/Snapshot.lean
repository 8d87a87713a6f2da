import StrategySearch.Calendar.Reader
import StrategySearch.Decimal.Json
import StrategySearch.Failure

/-! Dated observations of a portfolio. A series is well formed when its instants increase and no
snapshot holds a symbol twice. -/

set_option autoImplicit false

namespace StrategySearch

structure Cash where
  currency : String
  available : Decimal
  buyingPower : Decimal
  deriving DecidableEq

structure Position where
  symbol : String
  quantity : Decimal
  availableQuantity : Decimal
  marketValue : Decimal
  averageEntryPrice : Decimal
  deriving DecidableEq

def Position.entryValue? (p : Position) : Option Decimal := p.averageEntryPrice.mul? p.quantity

structure Snapshot where
  instant : Instant
  equity : Decimal
  cash : Cash
  positions : List Position
  deriving DecidableEq

namespace Snapshot

def position? (s : Snapshot) (symbol : String) : Option Position :=
  s.positions.find? (·.symbol == symbol)

def holds (s : Snapshot) (symbol : String) : Bool := s.positions.any (·.symbol == symbol)

def firstDisorder? : List Snapshot → Option (Snapshot × Snapshot)
  | before :: after :: rest =>
    if before.instant < after.instant then firstDisorder? (after :: rest) else some (before, after)
  | _ => none

def firstRepeat? (seen : List String) : List Position → Option String
  | [] => none
  | p :: rest =>
    if seen.contains p.symbol then some p.symbol else firstRepeat? (p.symbol :: seen) rest

def duplicate? (s : Snapshot) : Option String := firstRepeat? [] s.positions

/-- Order is judged before duplicates, and the first offence is named. -/
def validateSeries (series : List Snapshot) : Except Failure Unit :=
  match firstDisorder? series with
  | some (before, after) => .error <| .invalid "snapshot timestamps must be strictly increasing"
      s!"{before.instant} followed by {after.instant}"
  | none =>
    match series.findSome? fun s => s.duplicate?.map fun symbol => (s, symbol) with
    | some (s, symbol) => .error (.invalid s!"duplicate position in snapshot {s.instant}" symbol)
    | none => .ok ()

end Snapshot

namespace Instant

def toJson (t : Instant) : Json := .text t.isoText
def ofJson? (j : Json) : Option Instant := j.text?.bind Instant.ofString?

end Instant

def Cash.toJson (c : Cash) : Json :=
  .record [("currency", .text c.currency), ("available", c.available.toJson),
    ("buyingPower", c.buyingPower.toJson)]

def Cash.ofJson? (j : Json) : Option Cash := do
  match ← j.members? ["currency", "available", "buyingPower"] with
  | [currency, available, buyingPower] =>
    return ⟨← Json.required? Json.text? currency, ← Json.required? Decimal.ofJson? available,
      ← Json.required? Decimal.ofJson? buyingPower⟩
  | _ => none

def Position.toJson (p : Position) : Json :=
  .record [("symbol", .text p.symbol), ("quantity", p.quantity.toJson),
    ("availableQuantity", p.availableQuantity.toJson), ("marketValue", p.marketValue.toJson),
    ("averageEntryPrice", p.averageEntryPrice.toJson)]

def Position.ofJson? (j : Json) : Option Position := do
  match ← j.members? ["symbol", "quantity", "availableQuantity", "marketValue",
      "averageEntryPrice"] with
  | [symbol, quantity, available, value, price] =>
    return ⟨← Json.required? Json.text? symbol, ← Json.required? Decimal.ofJson? quantity,
      ← Json.required? Decimal.ofJson? available, ← Json.required? Decimal.ofJson? value,
      ← Json.required? Decimal.ofJson? price⟩
  | _ => none

def Snapshot.toJson (s : Snapshot) : Json :=
  .record [("timestamp", s.instant.toJson), ("equityValue", s.equity.toJson),
    ("cash", s.cash.toJson), ("positions", .list (s.positions.map Position.toJson))]

def Snapshot.ofJson? (j : Json) : Option Snapshot := do
  match ← j.members? ["timestamp", "equityValue", "cash", "positions"] with
  | [instant, equity, cash, positions] =>
    return ⟨← Json.required? Instant.ofJson? instant, ← Json.required? Decimal.ofJson? equity,
      ← Json.required? Cash.ofJson? cash,
      ← Json.required? (Json.listOf? Position.ofJson?) positions⟩
  | _ => none

end StrategySearch
