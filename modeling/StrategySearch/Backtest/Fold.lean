import StrategySearch.Backtest.Service
import StrategySearch.Portfolio.Analysis

/-! One fold of an evaluation: a job is submitted, polled until it ends and, if it finished, its
snapshots are fetched and analysed. In one turn a fold makes its next call, in another one it takes up
the answer; a call is in flight between the two. -/

set_option autoImplicit false

namespace StrategySearch

structure FoldOutcome where
  index : Nat
  foldReturn : Option Decimal
  deriving DecidableEq

namespace FoldOutcome

def isFailed (o : FoldOutcome) : Bool := o.foldReturn.isNone

def score (penalty : Decimal) (o : FoldOutcome) : Decimal := o.foldReturn.getD penalty

def stateName (o : FoldOutcome) : String := if o.isFailed then "Failed" else "Finished"

def returnText (o : FoldOutcome) : String :=
  match o.foldReturn with
  | some r => s!"Some({r})"
  | none => "None"

def text (o : FoldOutcome) : String :=
  s!"FoldResult \x7b fold_index: {o.index}, job_outcome: {o.stateName}, fold_return: {o.returnText} \x7d"

end FoldOutcome

structure Experiment where
  plan : FoldPlan
  strategy : Strategy
  parameters : ParameterSet
  verbose : Bool

inductive FoldStage where
  | ready
  | running (job : JobId)
  | finished (job : JobId)
  deriving DecidableEq

structure Fold where
  index : Nat
  slice : SymbolSlice
  stage : FoldStage
  /-- Its call is made and has no answer yet. -/
  asked : Bool
  deriving DecidableEq

/-- What a turn makes of a fold: it goes on at once, waits for others, or is over. -/
inductive Turn where
  | keep (fold : Fold)
  | yield (fold : Fold)
  | over (outcome : FoldOutcome)
  deriving DecidableEq

namespace Experiment

def indexBound : Nat := UInt64.size

def description (e : Experiment) (index : Nat) (slice : SymbolSlice) : String :=
  s!"{e.strategy} fold {index + 1}/{e.plan.foldCount} (symbols {slice.skip}..{slice.stop})"

def submission (e : Experiment) (index : Nat) (slice : SymbolSlice) : Submission where
  period := e.plan.period
  initialCash := e.plan.initialCash
  strategy := e.strategy
  parameters := e.parameters
  slice := slice
  usePredictor := e.plan.usePredictor
  predictionError := e.plan.predictionError
  description := e.description index slice

end Experiment

/-- A line of information shows the value with four places. One that is too wide for it cannot be
written. -/
def Decimal.inform (verbose : Bool) (value : Decimal) : Answer Unit :=
  if verbose && (value.fixed? 4).isNone then .error .fault else .ok ()

namespace Fold

def judge (verbose : Bool) (index : Nat) (job : JobId) (series : List Snapshot) :
    Answer FoldOutcome := do
  let analysis ← Analysis.ofSeries series
  match analysis.totalReturn with
  | some r =>
    r.inform verbose
    return ⟨index, some r⟩
  | none => Answer.refuse (.invalid "finished backtest has no derivable total return" job.text)

def afterSubmit (fold : Fold) : Except Failure JobId → Answer Turn
  | .error cause => Answer.refuse cause
  | .ok job => .ok (.keep { fold with stage := .running job, asked := false })

def afterPoll (fold : Fold) (job : JobId) : Except Failure JobState → Answer Turn
  | .error cause => Answer.refuse cause
  | .ok .running => .ok (.yield { fold with asked := false })
  | .ok .finished => .ok (.keep { fold with stage := .finished job, asked := false })
  | .ok .failed => .ok (.over ⟨fold.index, none⟩)
  | .ok .cancelled => Answer.refuse (.cancelled job.text fold.index)

def afterFetch (verbose : Bool) (fold : Fold) (job : JobId) :
    Except Failure (List Snapshot) → Answer Turn
  | .error cause => Answer.refuse cause
  | .ok series => (judge verbose fold.index job series).map .over

def ask (experiment : Experiment) (fold : Fold) : Ask :=
  match fold.stage with
  | .ready => .submit (experiment.submission fold.index fold.slice)
  | .running job => .poll job
  | .finished job => .fetch job

variable {m : Type → Type} [Monad m]

/-- The order of a job counts the folds from one, so that the last number has no order. -/
def make (service : BacktestService m) (experiment : Experiment) (fold : Fold) : m (Answer Turn) :=
  if fold.stage = .ready ∧ Experiment.indexBound ≤ fold.index + 1 then pure (.error .fault)
  else (fun _ => .ok (.keep { fold with asked := true })) <$> service.hear (fold.ask experiment)

def takeUp (service : BacktestService m) (experiment : Experiment) (fold : Fold) :
    m (Answer Turn) :=
  match fold.stage with
  | .ready => fold.afterSubmit <$> service.submit (experiment.submission fold.index fold.slice)
  | .running job => fold.afterPoll job <$> service.poll job
  | .finished job => fold.afterFetch experiment.verbose job <$> service.fetch job

def advance (service : BacktestService m) (experiment : Experiment) (fold : Fold) :
    m (Answer Turn) :=
  if fold.asked then fold.takeUp service experiment else fold.make service experiment

end Fold
end StrategySearch
