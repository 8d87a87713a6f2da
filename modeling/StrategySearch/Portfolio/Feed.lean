import StrategySearch.Portfolio.Analysis

/-! The service's account of a finished backtest: dated states, as a list or wrapped in a record. -/

set_option autoImplicit false

namespace StrategySearch.Feed

structure State where
  createdAt : String
  equity : Decimal
  cash : Cash
  positions : List Position

def cash? (j : Json) : Option Cash := do
  match ← j.members? ["mainCurrency", "availableAmount", "buyingPower"] with
  | [currency, available, buyingPower] =>
    return ⟨← Json.required? Json.text? currency, ← Json.required? Decimal.ofJson? available,
      ← Json.required? Decimal.ofJson? buyingPower⟩
  | _ => none

def assets? (j : Json) : Option (Decimal × Cash × List Position) := do
  match ← j.members? ["equityValue", "cash", "positions"] with
  | [equity, cash, positions] =>
    return (← Json.required? Decimal.ofJson? equity, ← Json.required? cash? cash,
      ← Json.defaulted? [] (Json.listOf? Position.ofJson?) positions)
  | _ => none

def state? (j : Json) : Option State := do
  match ← j.members? ["assets", "createdAt"] with
  | [assets, createdAt] =>
    let (equity, cash, positions) ← Json.required? assets? assets
    return ⟨← Json.required? Json.text? createdAt, equity, cash, positions⟩
  | _ => none

/-- A list of states, or a record with such a list under its name. The whole document is read
before its form is chosen, so no part of it may be unreadable. -/
def states? (j : Json) : Option (List State) :=
  if !j.readable then none
  else match j with
    | .record fields => (Json.single? fields "results").bind (Json.required? (Json.listOf? state?))
    | _ => Json.listOf? state? j

def State.snapshot (s : State) : Except Failure Snapshot :=
  match Instant.ofReport? s.createdAt with
  | some instant => .ok ⟨instant, s.equity, s.cash, s.positions⟩
  | none => .error (.invalid "assets state has an unreadable createdAt" s.createdAt)

def parse (wording : Json.Wording) (body : String) : Except Failure (List Snapshot) := do
  let states ← Failure.decode wording states? "invalid assets-states payload" body
  let series ← states.mapM State.snapshot
  Snapshot.validateSeries series
  return series

end StrategySearch.Feed
