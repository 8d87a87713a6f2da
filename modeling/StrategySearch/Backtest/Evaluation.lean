import StrategySearch.Backtest.Fold

/-! Evaluation of a candidate: all folds take turns until each is over, and the first failure ends
them all. Any order of turns is a schedule; the outcome does not depend on it. -/

set_option autoImplicit false

namespace StrategySearch

/-- Which of the waiting folds takes the next turn, by the number of turns before. -/
abbrev Schedule := Nat → Nat

def Schedule.inTurn : Schedule := fun _ => 0

/-- Folds that wait for a turn, and the outcomes of the others, latest first. -/
structure Pool where
  waiting : List Fold
  outcomes : List FoldOutcome

namespace Pool

/-- The pool after a turn of the fold at a position. A fold that yields goes to the end. -/
def settle (pool : Pool) (position : Nat) : Turn → Pool
  | .keep fold => { pool with waiting := pool.waiting.set position fold }
  | .yield fold => { pool with waiting := pool.waiting.eraseIdx position ++ [fold] }
  | .over outcome => ⟨pool.waiting.eraseIdx position, outcome :: pool.outcomes⟩

def position (pool : Pool) (schedule : Schedule) (turns : Nat) : Nat :=
  schedule turns % pool.waiting.length

/-- Takes turns until none waits. The first number is the turns that are allowed, the second the
turns that were taken. -/
def run {m : Type → Type} [Monad m] (service : BacktestService m) (experiment : Experiment)
    (schedule : Schedule) : Nat → Nat → Pool → m (Answer (List FoldOutcome))
  | allowed, turns, pool =>
    match pool.waiting[pool.position schedule turns]?, allowed with
    | none, _ => pure (.ok pool.outcomes)
    | some _, 0 => pure (.error .unfinished)
    | some fold, allowed + 1 => do
      match ← fold.advance service experiment with
      | .error stop => pure (.error stop)
      | .ok turn =>
        run service experiment schedule allowed (turns + 1)
          (pool.settle (pool.position schedule turns) turn)

end Pool

def meanScore? (penalty : Decimal) (folds : List FoldOutcome) : Option Decimal :=
  if folds.isEmpty then none
  else do
    let total ← Decimal.sum? (folds.map (FoldOutcome.score penalty))
    total.div? (← Decimal.make? folds.length 0)

structure Evaluation where
  objective : Decimal
  folds : List FoldOutcome

namespace Evaluation

def failedFolds (e : Evaluation) : Nat := e.folds.countP FoldOutcome.isFailed

def inOrder (outcomes : List FoldOutcome) : List FoldOutcome :=
  outcomes.mergeSort fun a b => decide (a.index ≤ b.index)

def foldsText (folds : List FoldOutcome) : String :=
  "[" ++ ", ".intercalate (folds.map FoldOutcome.text) ++ "]"

def ofOutcomes (penalty : Decimal) (outcomes : List FoldOutcome) : Except Failure Evaluation :=
  let folds := inOrder outcomes
  match meanScore? penalty folds with
  | some objective => .ok ⟨objective, folds⟩
  | none => .error (.invalid "fold scores cannot be averaged" (foldsText folds))

/-- The folds of a plan, of which there must be one and which must all have symbols. The first that
may lack them is judged before any is laid out. -/
def layout (plan : FoldPlan) : Except Failure (List Fold) :=
  if plan.foldCount = 0 then .error (.configuration "fold count must be at least 1")
  else do
    let _ ← plan.slice (min plan.capacity (plan.foldCount - 1))
    (List.range plan.foldCount).mapM fun index =>
      (plan.slice index).map fun slice => ⟨index, slice, .ready, false⟩

/-- Configures the strategy once and runs all folds. Nothing is called for an impossible layout. -/
def run {m : Type → Type} [Monad m] (service : BacktestService m) (experiment : Experiment)
    (schedule : Schedule) (allowed : Nat) : m (Answer Evaluation) :=
  match layout experiment.plan with
  | .error cause => pure (Answer.refuse cause)
  | .ok folds => do
    service.hear (.configure experiment.strategy experiment.parameters)
    match ← service.configure experiment.strategy experiment.parameters with
    | .error cause => pure (Answer.refuse cause)
    | .ok () =>
      match ← Pool.run service experiment schedule allowed 0 ⟨folds, []⟩ with
      | .error stop => pure (.error stop)
      | .ok outcomes => pure (Answer.ofExcept (ofOutcomes experiment.plan.penalty outcomes))

end Evaluation
end StrategySearch
