import StrategySearch.Backtest.Evaluation
import StrategySearch.Propose.Basic
import StrategySearch.Search.Status

/-! A search: propose, evaluate and tell the proposer, as often as the budget says. The first
failure ends it and leaves the trials before it. -/

set_option autoImplicit false

namespace StrategySearch

inductive SearchStage where
  | idle
  | evaluating (parameters : ParameterSet)
  | scored (parameters : ParameterSet) (objective : Decimal)
  | aborted

structure Search (π : Type) where
  proposer : π
  stage : SearchStage
  status : Status
  history : List Trial

structure SearchOutcome where
  strategy : Strategy
  bestParameters : ParameterSet
  bestObjective : Decimal
  failedFolds : Nat
  history : List Trial

def SearchOutcome.toJson (o : SearchOutcome) : Json :=
  .record [("strategy", .text o.strategy.name),
    ("bestParameters", ParameterSet.toJson o.bestParameters),
    ("bestObjective", o.bestObjective.toJson), ("failedFolds", .integer o.failedFolds),
    ("history", .list (o.history.map Trial.toJson))]

structure Tally where
  best : Option (ParameterSet × Decimal)
  failedFolds : Nat

namespace Tally

def zero : Tally := ⟨none, 0⟩

/-- Only a higher objective replaces the best. -/
def add (tally : Tally) (parameters : ParameterSet) (evaluation : Evaluation) : Tally where
  best := match tally.best with
    | none => some (parameters, evaluation.objective)
    | some best =>
      if best.2 < evaluation.objective then some (parameters, evaluation.objective) else some best
  failedFolds := tally.failedFolds + evaluation.failedFolds

def bestFloat (tally : Tally) : Option Float := tally.best.bind fun best => best.2.toFloat?

end Tally

namespace Search

variable {π : Type}

def start (proposer : π) : Search π := ⟨proposer, .idle, .idle, []⟩

structure Task (m : Type → Type) (π : Type) where
  proposer : Proposer π
  service : BacktestService m
  plan : FoldPlan
  strategy : Strategy
  space : SearchSpace
  budget : Nat
  /-- The order of turns in each evaluation. -/
  schedule : Nat → Schedule
  turns : Nat
  verbose : Bool

def abort (s : Search π) (cause : Failure) : Search π :=
  { s with stage := .aborted, status := (s.status.enter "Aborted").fail cause.message }

/-- A failure aborts the search; any other stop leaves it as it is. -/
def halt (s : Search π) : Stop → Search π
  | .failure cause => s.abort cause
  | _ => s

def clear (budget : Nat) (s : Search π) : Search π :=
  { s with history := [], status := (s.status.enter "Searching").progress budget 0 0 none }

def tell (proposer : Proposer π) (parameters : ParameterSet) (objective : Float) (s : Search π) :
    Search π :=
  { s with
    proposer := proposer.update parameters objective s.proposer
    history := s.history ++ [⟨parameters, objective⟩] }

def exhibit (budget : Nat) (tally : Tally) (parameters : ParameterSet) (objective : Decimal)
    (s : Search π) : Search π :=
  { s with
    stage := .scored parameters objective
    status := s.status.progress budget s.history.length tally.failedFolds tally.bestFloat }

/-- The phase is entered whatever follows. -/
def complete (verbose : Bool) (strategy : Strategy) (tally : Tally) (s : Search π) :
    Answer SearchOutcome × Search π :=
  let s := { s with status := s.status.enter "Completed" }
  match tally.best with
  | none => (Answer.refuse (.configuration "search finished without any scored candidate"), s)
  | some (parameters, objective) =>
    match objective.inform verbose with
    | .error stop => (.error stop, s)
    | .ok () => (.ok ⟨strategy, parameters, objective, tally.failedFolds, s.history⟩, s)

variable {m : Type → Type} [Monad m]

def iterate (task : Task m π) : Nat → Tally → Search π → m (Answer SearchOutcome × Search π)
  | 0, tally, s => pure (s.complete task.verbose task.strategy tally)
  | remaining + 1, tally, s => do
    let (proposal, proposer) := task.proposer.propose task.space s.history s.proposer
    let s := { s with proposer := proposer }
    match proposal with
    | .error stop => pure (.error stop, s.halt stop)
    | .ok parameters =>
      let s := { s with stage := .evaluating parameters }
      match ← Evaluation.run task.service ⟨task.plan, task.strategy, parameters, task.verbose⟩
          (task.schedule s.history.length) task.turns with
      | .error stop => pure (.error stop, s.halt stop)
      | .ok evaluation =>
        match evaluation.objective.toFloat? with
        | none =>
          let cause := .invalid "objective is not representable" evaluation.objective.text
          pure (Answer.refuse cause, s.abort cause)
        | some objective =>
          let s := s.tell task.proposer parameters objective
          match evaluation.objective.inform task.verbose with
          | .error stop => pure (.error stop, s)
          | .ok () =>
            let tally := tally.add parameters evaluation
            iterate task remaining tally (s.exhibit task.budget tally parameters evaluation.objective)

/-- One run. Without a budget nothing changes. -/
def run (task : Task m π) (s : Search π) : m (Answer SearchOutcome × Search π) :=
  if task.budget = 0 then
    pure (Answer.refuse (.configuration "iteration budget must be at least 1"), s)
  else iterate task task.budget .zero (s.clear task.budget)

end Search
end StrategySearch
