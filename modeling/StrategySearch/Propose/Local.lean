import StrategySearch.Propose.Basic

/-! Hill climbing: the neighbours of the best candidate so far, and random candidates when none of
them is left. -/

set_option autoImplicit false

namespace StrategySearch

structure LocalSearch (γ : Type) where
  source : γ
  incumbent : Option (ParameterSet × Float)
  /-- The signature of the candidate whose neighbours were queued last. -/
  expanded : Option String
  queue : List ParameterSet
  evaluated : List String

namespace LocalSearch

def multipliers : List Float := [-2.0, -1.0, 1.0, 2.0]
def realSteps : Nat := 20
def retries : Nat := 32

variable {γ : Type}

def start (source : γ) : LocalSearch γ := ⟨source, none, none, [], []⟩

def isEvaluated (s : LocalSearch γ) (candidate : ParameterSet) : Bool :=
  s.evaluated.contains candidate.signature

/-- Queues the neighbours of a new incumbent in place of what was queued. -/
def expand (space : SearchSpace) (s : LocalSearch γ) : Answer (LocalSearch γ) :=
  match s.incumbent with
  | none => .ok s
  | some (best, _) =>
    let signature := best.signature
    if s.expanded = some signature then .ok s
    else do
      let (queue, _) ← space.neighbours multipliers realSteps best s.evaluated
      return { s with queue := queue, expanded := some signature }

def dequeue (evaluated : List String) : List ParameterSet → Option ParameterSet × List ParameterSet
  | [] => (none, [])
  | candidate :: rest =>
    if evaluated.contains candidate.signature then dequeue evaluated rest
    else (some candidate, rest)

def drawNew [WordSource γ] (space : SearchSpace) (evaluated : List String) :
    Nat → ParameterSet → Draw γ ParameterSet
  | 0, candidate => return candidate
  | n + 1, candidate =>
    if evaluated.contains candidate.signature then do
      drawNew space evaluated n (← space.sample)
    else return candidate

def random [WordSource γ] (space : SearchSpace) (evaluated : List String) :
    Draw γ ParameterSet := do
  drawNew space evaluated retries (← space.sample)

def propose [WordSource γ] (space : SearchSpace) (s : LocalSearch γ) :
    Answer ParameterSet × LocalSearch γ :=
  match s.expand space with
  | .error stop => (.error stop, s)
  | .ok s =>
    match dequeue s.evaluated s.queue with
    | (some candidate, queue) => (.ok candidate, { s with queue := queue })
    | (none, queue) =>
      let (candidate, source) := (random space s.evaluated).run.run s.source
      (candidate, { s with queue := queue, source := source })

def update (parameters : ParameterSet) (objective : Float) (s : LocalSearch γ) : LocalSearch γ :=
  let signature := parameters.signature
  let improved := match s.incumbent with
    | some (_, best) => decide (best < objective)
    | none => true
  { s with
    evaluated := if s.evaluated.contains signature then s.evaluated else signature :: s.evaluated
    incumbent := if improved then some (parameters, objective) else s.incumbent }

end LocalSearch
end StrategySearch
