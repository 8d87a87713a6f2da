import StrategySearch.Backtest.Remote
import StrategySearch.Command.Machine
import StrategySearch.Propose.Kind
import StrategySearch.Report.Backtest
import StrategySearch.Report.Search
import StrategySearch.Settings.Reader

/-! The commands: analyse a backtest, search a space, cancel backtests, list the strategies. -/

set_option autoImplicit false

namespace StrategySearch

structure SearchOrder where
  strategy : String
  space : String
  iterations : Nat
  proposer : ProposerKind
  seed : Option UInt64
  output : Option String
  deriving DecidableEq

inductive Command where
  | analyze (job : String) (top : Nat) (asJson : Bool)
  | search (order : SearchOrder)
  | cancel (jobs : List String)
  | strategies (current : Bool)
  deriving DecidableEq

/-- More turns than any evaluation takes. -/
def turnLimit : Nat := 1000000000000000000

def BacktestService.paced {m : Type → Type} [Monad m] (service : BacktestService m)
    (pause : m Unit) : BacktestService m where
  hear := service.hear
  configure := service.configure
  submit := service.submit
  poll id := do
    let state ← service.poll id
    if let .ok .running := state then pause
    return state
  fetch := service.fetch

structure Session (m : Type → Type) where
  machine : Machine m
  settings : Settings

namespace Session

variable {m : Type → Type} [Monad m]

def jobId (raw : String) : CommandM m JobId :=
  match JobId.ofString? raw with
  | some id => return id
  | none => CommandM.attempting s!"'{raw}' is not a backtest id" (CommandM.fail .identifier)

def client (s : Session m) : CommandM m (Http.Client m) := do
  let connection ← CommandM.ofFailing (pure s.settings.connection)
  let tls ← CommandM.ofFailing (Http.Tls.load s.machine.content s.machine.environment).run
  return .start (s.machine.connect connection.timeoutSeconds tls) s.machine.wording
    connection.baseUrl connection.credentials

def analyze (s : Session m) (job : String) (top : Nat) (asJson : Bool) : CommandM m Unit := do
  let id ← jobId job
  let client ← s.client
  let analysis ← CommandM.attempting s!"failed to analyze backtest {id}"
    (CommandM.ofAnswer (Remote.analyze client id).run)
  CommandM.display s.machine
    (if asJson then Report.line analysis.toJson.pretty else Report.backtest id top analysis)

/-- One after another; a failure leaves those before it cancelled. -/
def cancel (s : Session m) (jobs : List String) : CommandM m Unit := do
  let client ← s.client
  jobs.forM fun job => do
    let id ← jobId job
    CommandM.attempting s!"failed to cancel backtest {id}"
      (CommandM.ofFailing (Remote.cancel client id).run)
    CommandM.display s.machine (Report.line s!"Cancelled {id}")

/-- The list needs no service; only what is stored there does. -/
def strategies (s : Session m) (current : Bool) : CommandM m Unit := do
  CommandM.display s.machine Report.strategies
  if current then
    let client ← s.client
    let bundle ← CommandM.attempting "failed to load current strategy parameters"
      (CommandM.ofFailing (Remote.bundle client).run)
    CommandM.display s.machine
      (Report.line "\nCurrent parameters:" ++ Report.line bundle.toJson.pretty)

def loadSpace (s : Session m) (path : String) : CommandM m SearchSpace :=
  CommandM.attempting s!"failed to load search space {path}" do
    match ← ExceptT.lift (s.machine.content path) with
    | .ok text => CommandM.ofFailing (pure (SearchSpace.parse s.machine.wording text))
    | .error reason => CommandM.ofFailing (pure (.error (.configuration
        s!"failed to read search space from {path}: {reason}")))

def save (s : Session m) (path : String) (outcome : SearchOutcome) : CommandM m Unit :=
  CommandM.attempting s!"failed to write {path}"
    (CommandM.ofSystem (s.machine.store path outcome.toJson.pretty))

def source (s : Session m) : Option UInt64 → CommandM m Keystream
  | some seed => return .ofSeed seed
  | none => Keystream.ofSeed <$> ExceptT.lift s.machine.entropy

/-- Nothing is sent before strategy, space and settings are known to be good. -/
def search (s : Session m) (order : SearchOrder) : CommandM m Unit := do
  let strategy ← CommandM.ofFailing (pure (Strategy.parse order.strategy))
  let space ← s.loadSpace order.space
  let settings ← CommandM.ofFailing (pure s.settings.search)
  let client ← s.client
  let service := (Remote.service client).paced (client.transport.pause settings.pollMilliseconds)
  let task : Search.Task m (ProposerState Keystream) :=
    ⟨ProposerState.proposer, service, settings.plan, strategy, space, order.iterations,
      fun _ => .inTurn, turnLimit, s.machine.verbose⟩
  let start := Search.start (ProposerState.start order.proposer (← s.source order.seed))
  let outcome ← CommandM.attempting s!"search for '{strategy}' stopped"
    (CommandM.ofAnswer (Prod.fst <$> Search.run task start))
  CommandM.display s.machine (Report.search outcome)
  match order.output with
  | some path => s.save path outcome
  | none => pure ()

def run (s : Session m) : Command → CommandM m Unit
  | .analyze job top asJson => s.analyze job top asJson
  | .search order => s.search order
  | .cancel jobs => s.cancel jobs
  | .strategies current => s.strategies current

end Session
end StrategySearch
