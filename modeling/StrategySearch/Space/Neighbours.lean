import StrategySearch.Space.Basic

/-! Neighbours of a candidate: one dimension moved by a few steps, all else kept. -/

set_option autoImplicit false

namespace StrategySearch

/-- Candidates that are told apart by their signatures, with the signatures that are taken. -/
structure Admitted where
  seen : List String
  candidates : List ParameterSet

def Admitted.admit (a : Admitted) (candidate : ParameterSet) : Admitted :=
  let signature := candidate.signature
  if a.seen.contains signature then a else ⟨signature :: a.seen, candidate :: a.candidates⟩

namespace SearchSpace

/-- Coordinates are allowed to lie outside by a rounding error. -/
def tolerance : Float := 1e-9

def moves (dimension : Dimension) (current : ParameterValue) (unit step : Float) :
    List Float → Answer (List ParameterValue)
  | [] => .ok []
  | multiplier :: rest => do
    let target := unit + multiplier * step
    if !(-tolerance ≤ target && target ≤ 1.0 + tolerance) then
      moves dimension current unit step rest
    else
      let value ← dimension.fromUnit target
      let others ← moves dimension current unit step rest
      return if value == current then others else value :: others

/-- The variations of one dimension. None if the candidate lacks it or lies outside. -/
def variationsAlong (multipliers : List Float) (realSteps : Nat) (current : ParameterSet)
    (name : String) (dimension : Dimension) : Answer (List ParameterSet) :=
  match current.get? name with
  | none => .ok []
  | some value => do
    match ← dimension.toUnit value with
    | none => return []
    | some unit =>
      let values ← moves dimension value unit (← dimension.unitStep realSteps) multipliers
      return values.map (current.insert name)

def variations (space : SearchSpace) (multipliers : List Float) (realSteps : Nat)
    (current : ParameterSet) : Answer (List ParameterSet) := do
  return (← space.dimensions.entries.mapM fun (name, dimension) =>
    variationsAlong multipliers realSteps current name dimension).flatten

def admitNeighbours (space : SearchSpace) (multipliers : List Float) (realSteps : Nat)
    (current : ParameterSet) (admitted : Admitted) : Answer Admitted := do
  return (← space.variations multipliers realSteps current).foldl Admitted.admit admitted

def neighbours (space : SearchSpace) (multipliers : List Float) (realSteps : Nat)
    (current : ParameterSet) (seen : List String) :
    Answer (List ParameterSet × List String) := do
  let all ← space.admitNeighbours multipliers realSteps current ⟨seen, []⟩
  return (all.candidates.reverse, all.seen)

end SearchSpace
end StrategySearch
