import StrategySearch.Backtest.Plan
import StrategySearch.Calendar.Reader
import StrategySearch.FloatText.Layout
import StrategySearch.FloatText.Literal
import StrategySearch.Http.Credentials
import StrategySearch.Settings.Host

/-! Settings are texts by name. A blank value counts as a missing one, and a missing value as the
default where there is one. -/

set_option autoImplicit false

namespace StrategySearch

structure Connection where
  baseUrl : String
  credentials : Option Credentials
  timeoutSeconds : Nat

structure SearchSettings where
  connection : Connection
  plan : FoldPlan
  pollMilliseconds : Nat

namespace Settings

def userKey : String := "BACKTEST_API_USER"
def passwordKey : String := "BACKTEST_API_PASSWORD"
def timeoutKey : String := "BACKTEST_API_TIMEOUT_SECS"
def pollKey : String := "BACKTEST_POLL_INTERVAL_MS"
def startKey : String := "SIMULATION_START_DATE"
def stopKey : String := "SIMULATION_END_DATE"
def cashKey : String := "BACKTEST_INITIAL_CASH"
def symbolsKey : String := "BACKTEST_SYMBOLS_PER_FOLD"
def skipKey : String := "BACKTEST_SYMBOL_SKIP"
def foldsKey : String := "BACKTEST_FOLD_COUNT"
def predictorKey : String := "BACKTEST_USE_PREDICTOR"
def predictionErrorKey : String := "BACKTEST_PREDICTION_ERROR"
def penaltyKey : String := "FAILED_FOLD_PENALTY"

def keys : List String :=
  [domainKey, apiUrlKey, userKey, passwordKey, timeoutKey, pollKey, startKey, stopKey, cashKey,
    symbolsKey, skipKey, foldsKey, predictorKey, predictionErrorKey, penaltyKey]

def defaults : List (String × String) :=
  [(timeoutKey, "30"), (pollKey, "1000"), (cashKey, "100000"), (symbolsKey, "1000"),
    (skipKey, "0"), (foldsKey, "1"), (predictorKey, "false"), (predictionErrorKey, "0"),
    (penaltyKey, "-1")]

def ofEnvironment (environment : String → Option String) : Settings :=
  ByName.ofList (keys.filterMap fun key => (environment key).map fun value => (key, value))

def override (settings overrides : Settings) : Settings :=
  overrides.entries.foldl (fun m entry => m.insert entry.1 entry.2) settings

/-- The value without surrounding blanks, unless nothing is left of it. -/
def value? (settings : Settings) (key : String) : Option String :=
  ((settings.get? key).map Text.trim).filter (· != "")

def withDefaults (settings : Settings) : Settings :=
  defaults.foldl (fun m entry =>
    if (m.value? entry.1).isNone then m.insert entry.1 entry.2 else m) settings

abbrev Reading (α : Type) := Except Failure α

def refuse {α : Type} (reason : String) : Reading α := .error (.configuration reason)

def require (settings : Settings) (key : String) : Reading String :=
  match settings.value? key with
  | some raw => .ok raw
  | none => refuse s!"Missing required setting {key}"

def date (settings : Settings) (key : String) : Reading Date := do
  let raw ← settings.require key
  match Date.ofString? raw with
  | some date => return date
  | none => refuse s!"Setting {key} must be a date in YYYY-MM-DD format (value: {raw})"

def float (settings : Settings) (key : String) (least : Float) : Reading Float := do
  let raw ← settings.require key
  match FloatText.read? raw with
  | none => refuse s!"Setting {key} must be a number (value: {raw})"
  | some x =>
    if !x.isFinite then refuse s!"Setting {key} must be finite (value: {raw})"
    else if x < least then
      let bound := FloatText.plain.text least
      refuse s!"Setting {key} must be >= {bound} (value: {raw})"
    else return x

def natural (settings : Settings) (key : String) (least : Nat) : Reading Nat := do
  let raw ← settings.require key
  match Text.unsigned? UInt64.size raw with
  | none => refuse s!"Setting {key} must be a non-negative integer (value: {raw})"
  | some n =>
    if n < least then refuse s!"Setting {key} must be >= {least} (value: {raw})" else return n

def count (settings : Settings) (key : String) (least : Nat) : Reading Nat := do
  let n ← settings.natural key least
  if n < UInt32.size then return n else refuse s!"Setting {key} is too large (value: {n})"

def decimal (settings : Settings) (key : String) : Reading Decimal := do
  let raw ← settings.require key
  match Decimal.ofString? raw with
  | some d => return d
  | none => refuse s!"Setting {key} must be a decimal (value: {raw})"

def truth? (raw : String) : Option Bool :=
  let word := Text.lower raw
  if ["true", "1", "yes"].contains word then some true
  else if ["false", "0", "no"].contains word then some false
  else none

def truth (settings : Settings) (key : String) : Reading Bool := do
  let raw ← settings.require key
  match truth? raw with
  | some b => return b
  | none => refuse s!"Setting {key} must be true or false (value: {raw})"

def connection (settings : Settings) : Reading Connection := do
  let settings := settings.withDefaults
  match settings.apiUrl? with
  | none =>
    refuse s!"Either {apiUrlKey} (http[s]://host/api) or {domainKey} (bare host name) must be set"
  | some baseUrl =>
    let credentials := (settings.value? userKey).map fun user =>
      ⟨user, settings.value? passwordKey⟩
    return ⟨baseUrl, credentials, ← settings.natural timeoutKey 1⟩

def period (settings : Settings) : Reading Period := do
  let start ← settings.date startKey
  let stop ← settings.date stopKey
  match Period.make? start stop with
  | some period => return period
  | none => refuse s!"{startKey} ({start}) must be before {stopKey} ({stop})"

def initialCash (settings : Settings) : Reading Decimal := do
  let cash ← settings.decimal cashKey
  if Decimal.zero < cash then return cash
  else refuse s!"Setting {cashKey} must be > 0 (value: {cash})"

/-- All settings of a search. The last fold must lie within the symbol range, so every one does. -/
def search (settings : Settings) : Reading SearchSettings := do
  let connection ← settings.connection
  let settings := settings.withDefaults
  let period ← settings.period
  let cash ← settings.initialCash
  let symbols ← settings.count symbolsKey 1
  let skip ← settings.count skipKey 0
  let folds ← settings.count foldsKey 1
  let predictor ← settings.truth predictorKey
  let predictionError ← settings.float predictionErrorKey 0.0
  let penalty ← settings.decimal penaltyKey
  let poll ← settings.natural pollKey 1
  if (SymbolSlice.ofFold? skip symbols (folds - 1)).isNone then
    refuse s!"{folds} folds of {symbols} symbols after skipping {skip} exceed the symbol range"
  else
    return ⟨connection, ⟨period, cash, symbols, skip, folds, predictor, predictionError, penalty⟩,
      poll⟩

end Settings
end StrategySearch
