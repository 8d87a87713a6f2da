import StrategySearch.Http.Exchange
import StrategySearch.Http.Tls
import StrategySearch.Report.Basic

/-! What a command needs of the machine that it runs on, and why it may stop. -/

set_option autoImplicit false

namespace StrategySearch

structure Machine (m : Type → Type) where
  environment : String → Option String
  print : String → m Unit
  content : String → m (Except String String)
  store : String → String → m (Except String Unit)
  /-- Reaches hosts with so many seconds for each response. -/
  connect : Nat → Http.Tls → Http.Transport m
  entropy : m UInt64
  verbose : Bool
  wording : Json.Wording

inductive Cause where
  | stop (stop : Stop)
  | identifier
  | system (reason : String)
  deriving DecidableEq

def Cause.message : Cause → String
  | .stop (.failure cause) => cause.message
  | .stop .fault => "an arithmetic operation left its range"
  | .stop .unfinished => "the turns that were allowed are used up"
  | .identifier => "no identifier in a known form"
  | .system reason => reason

structure Complaint where
  attempt : Option String
  cause : Cause
  deriving DecidableEq

namespace Complaint

def headline (c : Complaint) : String := c.attempt.getD c.cause.message

def text (c : Complaint) : String :=
  match c.attempt with
  | none => s!"Error: {c.headline}"
  | some _ => s!"Error: {c.headline}\n\nCaused by:\n    {c.cause.message}"

end Complaint

abbrev CommandM (m : Type → Type) := ExceptT Complaint m

namespace CommandM

variable {m : Type → Type} [Monad m] {α : Type}

def fail (cause : Cause) : CommandM m α := ExceptT.mk (pure (.error ⟨none, cause⟩))

/-- Faults are not told apart by what was attempted. -/
def explain (attempt : String) : Cause → Complaint
  | .stop .fault => ⟨none, .stop .fault⟩
  | cause => ⟨some attempt, cause⟩

def attempting (attempt : String) (step : CommandM m α) : CommandM m α :=
  ExceptT.mk ((Except.mapError fun c => explain attempt c.cause) <$> step.run)

def ofAnswer (step : m (Answer α)) : CommandM m α :=
  ExceptT.mk ((Except.mapError fun stop => ⟨none, .stop stop⟩) <$> step)

def ofFailing (step : m (Except Failure α)) : CommandM m α :=
  ofAnswer (Answer.ofExcept <$> step)

def ofSystem (step : m (Except String α)) : CommandM m α :=
  ExceptT.mk ((Except.mapError fun reason => ⟨none, .system reason⟩) <$> step)

/-- A report that cannot be written to its end is a fault. -/
def display (machine : Machine m) (report : Report) : CommandM m Unit := do
  ExceptT.lift (machine.print report.text)
  if !report.isComplete then fail (.stop .fault)

end CommandM
end StrategySearch
