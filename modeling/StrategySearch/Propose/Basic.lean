import StrategySearch.Space.Neighbours

/-! Proposers: from a space and the trials so far to the next candidate. -/

set_option autoImplicit false

namespace StrategySearch

/-- A candidate with its objective; higher is better. -/
structure Trial where
  parameters : ParameterSet
  objective : Float

def Trial.toJson (t : Trial) : Json :=
  .record [("parameters", ParameterSet.toJson t.parameters),
    ("objective", Json.ofFloat t.objective)]

/-- A way to propose candidates, with a state of its own. The state also advances when a proposal
fails. -/
structure Proposer (π : Type) where
  propose : SearchSpace → List Trial → π → Answer ParameterSet × π
  update : ParameterSet → Float → π → π

end StrategySearch
