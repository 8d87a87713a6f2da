import StrategySearch.Backtest.Service

/-! A backtest service that plays from scripts instead of simulating. Scripts are queued by the
first symbol of the slice; the last one of a queue is played again and again. -/

set_option autoImplicit false

namespace StrategySearch.Rehearsal

inductive Ending where
  | finished
  | failed
  | cancelled
  | submitFails
  | pollFails
  | fetchFails
  deriving DecidableEq, Repr

structure Script where
  skip : Nat
  /-- Polls before the end shows. -/
  polls : Nat
  ending : Ending
  series : List Snapshot

structure Job where
  pollsLeft : Nat
  script : Script

structure Stage where
  scripts : List Script
  /-- In the order of submission; the first has number one. -/
  jobs : List Job
  configureFails : Bool
  /-- If present, configuring applies the parameters to it. -/
  bundle : Option Bundle

namespace Stage

def take (skip : Nat) : List Script → Option (Script × List Script)
  | [] => none
  | script :: rest =>
    if script.skip = skip then
      some (script, if rest.any (·.skip == skip) then rest else script :: rest)
    else (take skip rest).map fun (found, others) => (found, script :: others)

def configure (strategy : Strategy) (parameters : ParameterSet) :
    StateM Stage (Except Failure Unit) := do
  let s ← get
  if s.configureFails then return .error (.transport "configure failed")
  match s.bundle with
  | none => return .ok ()
  | some bundle => return (bundle.apply .brief strategy parameters).map fun _ => ()

def submit (submission : Submission) : StateM Stage (Except Failure JobId) := do
  let s ← get
  match take submission.slice.skip s.scripts with
  | none => return .error (.transport s!"no script for skip {submission.slice.skip}")
  | some (script, scripts) =>
    set { s with scripts := scripts }
    if script.ending = .submitFails then return .error (.transport "submit failed")
    match JobId.make? (s.jobs.length + 1) with
    | none => return .error (.transport "no number left")
    | some id =>
      set { s with scripts := scripts, jobs := s.jobs ++ [Job.mk script.polls script] }
      return .ok id

def job? (s : Stage) (id : JobId) : Option Job := s.jobs[id.number - 1]?

def endState : Ending → Except Failure JobState
  | .failed => .ok .failed
  | .cancelled => .ok .cancelled
  | .pollFails => .error (.transport "poll failed")
  | _ => .ok .finished

def poll (id : JobId) : StateM Stage (Except Failure JobState) := do
  let s ← get
  match s.job? id with
  | none => return .error (.transport "unknown job")
  | some job =>
    match job.pollsLeft with
    | 0 => return endState job.script.ending
    | n + 1 =>
      set { s with jobs := s.jobs.set (id.number - 1) { job with pollsLeft := n } }
      return .ok .running

def fetch (id : JobId) : StateM Stage (Except Failure (List Snapshot)) := do
  match (← get).job? id with
  | none => return .error (.transport "unknown job")
  | some job =>
    if job.script.ending = .fetchFails then return .error (.transport "fetch failed")
    return .ok job.script.series

def service : BacktestService (StateM Stage) := ⟨fun _ => pure (), configure, submit, poll, fetch⟩

end Stage
end StrategySearch.Rehearsal
