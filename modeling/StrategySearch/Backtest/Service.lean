import StrategySearch.Backtest.Plan
import StrategySearch.JobId
import StrategySearch.Portfolio.Snapshot
import StrategySearch.Strategy.Bundle

/-! What a search asks of the service that runs backtests, and a record of what was asked and
answered. -/

set_option autoImplicit false

namespace StrategySearch

inductive JobState where
  | running
  | finished
  | failed
  | cancelled
  deriving DecidableEq, Repr

namespace JobState

def name : JobState → String
  | .running => "running"
  | .finished => "finished"
  | .failed => "failed"
  | .cancelled => "cancelled"

instance : ToString JobState := ⟨name⟩

def ofReport? (s : String) : Option JobState :=
  let word := Text.lower (Text.trim s)
  if ["running", "pending", "queued"].contains word then some .running
  else if word = "finished" then some .finished
  else if ["error", "failed"].contains word then some .failed
  else if ["cancelled", "canceled"].contains word then some .cancelled
  else none

end JobState

structure Submission where
  period : Period
  initialCash : Decimal
  strategy : Strategy
  parameters : ParameterSet
  slice : SymbolSlice
  usePredictor : Bool
  predictionError : Float
  description : String

inductive Ask where
  | configure (strategy : Strategy) (parameters : ParameterSet)
  | submit (submission : Submission)
  | poll (job : JobId)
  | fetch (job : JobId)

/-- A service of backtests. It hears of a call when the call is made, and answers when the answer is
taken up; between the two others may call. Its answers may depend on anything it has heard. -/
structure BacktestService (m : Type → Type) where
  hear : Ask → m Unit
  configure : Strategy → ParameterSet → m (Except Failure Unit)
  submit : Submission → m (Except Failure JobId)
  poll : JobId → m (Except Failure JobState)
  fetch : JobId → m (Except Failure (List Snapshot))

inductive Call where
  | configure (strategy : Strategy) (parameters : ParameterSet) (answer : Except Failure Unit)
  | submit (submission : Submission) (answer : Except Failure JobId)
  | poll (job : JobId) (answer : Except Failure JobState)
  | fetch (job : JobId) (answer : Except Failure (List Snapshot))

def Call.ask : Call → Ask
  | .configure strategy parameters _ => .configure strategy parameters
  | .submit submission _ => .submit submission
  | .poll job _ => .poll job
  | .fetch job _ => .fetch job

inductive Event where
  | made (ask : Ask)
  | answered (call : Call)

namespace BacktestService

def record {σ α : Type} (event : α → Event) (step : StateM σ α) : StateM (σ × List Event) α :=
  fun (s, events) =>
    let (answer, s) := step s
    (answer, (s, events ++ [event answer]))

/-- The same service with a record of what happened, oldest first. -/
def recorded {σ : Type} (service : BacktestService (StateM σ)) :
    BacktestService (StateM (σ × List Event)) where
  hear ask := record (fun _ => .made ask) (service.hear ask)
  configure strategy parameters :=
    record (fun answer => .answered (.configure strategy parameters answer))
      (service.configure strategy parameters)
  submit submission :=
    record (fun answer => .answered (.submit submission answer)) (service.submit submission)
  poll job := record (fun answer => .answered (.poll job answer)) (service.poll job)
  fetch job := record (fun answer => .answered (.fetch job answer)) (service.fetch job)

end BacktestService
end StrategySearch
