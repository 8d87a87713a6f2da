import StrategySearch.Backtest.Service
import StrategySearch.Http.Client
import StrategySearch.Portfolio.Feed

/-! The backtest service as it is reached over HTTP: which requests each call makes, and how their
responses are read. -/

set_option autoImplicit false

namespace StrategySearch

namespace Submission

def toJson (s : Submission) : Json :=
  .record [("start", .text s.period.start.text), ("end", .text s.period.stop.text),
    ("initialCash", Json.ofFloat s.initialCash.toFloat),
    ("shouldUsePredictor", .bool s.usePredictor),
    ("avgPredictionError", Json.ofFloat s.predictionError),
    ("strategyName", .text s.strategy.name), ("symbolsSkip", .integer s.slice.skip),
    ("symbolsTake", .integer s.slice.take), ("description", .text s.description)]

end Submission

namespace JobId

/-- What a location ends in: the text behind its last slash, other than slashes at the end. -/
def lastSegment (location : String) : String :=
  String.ofList (Text.behindLast '/' (Text.dropEndWhile (· == '/') location.toList))

def ofLocation? (location : String) : Option JobId := ofString? (lastSegment location)

end JobId

namespace Remote

def created? (j : Json) : Option String := do
  match ← j.members? ["id"] with
  | [id] => Json.required? Json.text? id
  | _ => none

/-- The state of a job; details and a return may stand beside it. -/
def reportedState? (j : Json) : Option String := do
  match ← j.members? ["state", "stateDetails", "totalReturn"] with
  | [state, details, total] =>
    let _ ← Json.optional? Json.text? details
    let _ ← Json.optional? Json.float? total
    Json.required? Json.text? state
  | _ => none

def jobState (wording : Json.Wording) (body : String) : Except Failure JobState := do
  let reported ← Failure.decode wording reportedState? "invalid backtest status payload" body
  match JobState.ofReport? reported with
  | some state => return state
  | none => .error (.invalid "unknown backtest state" body)

def jobInBody (wording : Json.Wording) (response : Http.Response) : Except Failure JobId := do
  let body ← response.text
  let id ← Failure.decode wording created? "backtest submission returned no id" body
  match JobId.ofString? id with
  | some id => return id
  | none => .error (.invalid "backtest submission returned an invalid id" body)

/-- The identifier from where the job is found, else from the body. -/
def jobCreated (wording : Json.Wording) (response : Http.Response) : Except Failure JobId :=
  match response.readableLocation?.bind JobId.ofLocation? with
  | some id => .ok id
  | none => jobInBody wording response

def jobPath (id : JobId) : String := "backtests/" ++ id.text

variable {m : Type → Type} [Monad m]

def ofExcept {α : Type} (e : Except Failure α) : ExceptT Failure m α := ExceptT.mk (pure e)

def bundle (client : Http.Client m) : ExceptT Failure m Bundle := do
  let body ← client.read "strategy"
  ofExcept (Failure.decode client.wording Bundle.ofJson? "invalid strategy parameters payload" body)

/-- Writes only what fits the stored parameters, and the selection before them. -/
def configure (client : Http.Client m) (strategy : Strategy) (parameters : ParameterSet) :
    ExceptT Failure m Unit := do
  let stored ← bundle client
  let applied ← ofExcept (stored.apply client.wording strategy parameters)
  client.write "strategy/selection" (.record [("name", .text strategy.name)])
  client.write "strategy" applied.toJson

def submit (client : Http.Client m) (submission : Submission) : ExceptT Failure m JobId := do
  let response ← client.send .post "backtests" (some submission.toJson)
  ofExcept (jobCreated client.wording response)

def poll (client : Http.Client m) (id : JobId) : ExceptT Failure m JobState := do
  let body ← client.read (jobPath id)
  ofExcept (jobState client.wording body)

def fetch (client : Http.Client m) (id : JobId) : ExceptT Failure m (List Snapshot) := do
  let body ← client.read (jobPath id ++ "/assets-states")
  ofExcept (Feed.parse client.wording body)

def cancel (client : Http.Client m) (id : JobId) : ExceptT Failure m Unit := do
  let _ ← client.send .delete (jobPath id) none

/-- Finished jobs are fetched and analysed; no other job has an analysis. -/
def analyze (client : Http.Client m) (id : JobId) : ExceptT Stop m Analysis := do
  let state ← ExceptT.mk (Answer.ofExcept <$> (poll client id).run)
  if state = .finished then
    let series ← ExceptT.mk (Answer.ofExcept <$> (fetch client id).run)
    ExceptT.mk (pure (Analysis.ofSeries series))
  else ExceptT.mk (pure (Answer.refuse (.configuration
    s!"backtest {id} is {state}; only finished backtests can be analyzed")))

/-- What a call sends is sent when its answer is taken up. -/
def service (client : Http.Client m) : BacktestService m where
  hear _ := pure ()
  configure strategy parameters := (configure client strategy parameters).run
  submit submission := (submit client submission).run
  poll id := (poll client id).run
  fetch id := (fetch client id).run

end Remote
end StrategySearch
