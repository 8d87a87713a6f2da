import StrategySearch.Space.Dimension

/-! Search spaces: at least one named dimension, each of them fit to be searched. -/

set_option autoImplicit false

namespace StrategySearch

def spaceObjection? (dimensions : ByName Dimension) : Option String :=
  if dimensions.isEmpty then some "search space must declare at least one dimension"
  else dimensions.entries.findSome? fun (name, dimension) => dimension.objection? name

structure SearchSpace where
  dimensions : ByName Dimension
  accepted : spaceObjection? dimensions = none

namespace SearchSpace

def make (dimensions : ByName Dimension) : Except Failure SearchSpace :=
  match h : spaceObjection? dimensions with
  | none => .ok ⟨dimensions, h⟩
  | some reason => .error (.configuration reason)

def parse (wording : Json.Wording) (s : String) : Except Failure SearchSpace :=
  match Json.decode? (ByName.ofJson? Dimension.ofJson?) s with
  | some dimensions => make dimensions
  | none =>
    let said := wording.refusal "search space" s
    .error (.configuration s!"invalid search space: {said}")

def toJson (space : SearchSpace) : Json := ByName.toJson Dimension.toJson space.dimensions

def names (space : SearchSpace) : List String := space.dimensions.names

def size (space : SearchSpace) : Nat := space.dimensions.size

def assemble {m : Type → Type} [Monad m] (f : String → Dimension → m ParameterValue)
    (space : SearchSpace) : m ParameterSet := do
  return ByName.ofList (← space.dimensions.entries.mapM fun (name, dimension) => do
    return (name, ← f name dimension))

def sample {γ : Type} [WordSource γ] (space : SearchSpace) : Draw γ ParameterSet :=
  space.assemble fun _ dimension => dimension.sample

/-- The values at one coordinate for each dimension; what has no partner is left out. -/
def fromUnitPoint (space : SearchSpace) (point : List Float) : Answer ParameterSet := do
  return ByName.ofList (← (space.dimensions.entries.zip point).mapM fun ((name, dimension), unit) => do
    return (name, ← dimension.fromUnit unit))

/-- One coordinate for each dimension, or nothing at the first that is missing or out of range. -/
def coordinates (parameters : ParameterSet) :
    List (String × Dimension) → Answer (Option (List Float))
  | [] => .ok (some [])
  | (name, dimension) :: rest =>
    match parameters.get? name with
    | none => .ok none
    | some value => do
      match ← dimension.toUnit value with
      | none => return none
      | some unit => return (← coordinates parameters rest).map (unit :: ·)

def toUnitPoint (space : SearchSpace) (parameters : ParameterSet) : Answer (Option (List Float)) :=
  coordinates parameters space.dimensions.entries

def contains (space : SearchSpace) (parameters : ParameterSet) : Answer Bool := do
  if parameters.size ≠ space.size then return false
  return (← space.toUnitPoint parameters).isSome

end SearchSpace
end StrategySearch
