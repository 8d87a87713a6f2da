import StrategySearch.Failure

/-! The trading strategies of the service and the parameter group that each one owns. -/

set_option autoImplicit false

namespace StrategySearch

inductive ParameterGroup where
  | basic
  | buyLosers
  | buyWinners
  | pca
  deriving DecidableEq, Repr

def ParameterGroup.name : ParameterGroup → String
  | .basic => "basic"
  | .buyLosers => "buyLosers"
  | .buyWinners => "buyWinners"
  | .pca => "pca"

inductive Strategy where
  | basic
  | greedyOptimal
  | overreaction
  | overreactionWithPredictions
  | trendFollowing
  | trendFollowingWithPredictions
  | pca
  | pcaWithPredictions
  deriving DecidableEq, Repr

namespace Strategy

def all : List Strategy :=
  [.basic, .greedyOptimal, .overreaction, .overreactionWithPredictions, .trendFollowing,
    .trendFollowingWithPredictions, .pca, .pcaWithPredictions]

def name : Strategy → String
  | .basic => "Basic strategy"
  | .greedyOptimal => "Greedy optimal strategy"
  | .overreaction => "Overreaction strategy"
  | .overreactionWithPredictions => "Overreaction strategy with predictions"
  | .trendFollowing => "Trend following strategy"
  | .trendFollowingWithPredictions => "Trend following strategy with predictions"
  | .pca => "PCA strategy"
  | .pcaWithPredictions => "PCA strategy with predictions"

instance : ToString Strategy := ⟨name⟩

/-- ASCII case and surrounding blanks do not matter. -/
def parse (s : String) : Except Failure Strategy :=
  match all.find? fun strategy => Text.lower strategy.name == Text.lower (Text.trim s) with
  | some strategy => .ok strategy
  | none => .error (.configuration s!"'{s}' is not a valid strategy name")

def group? : Strategy → Option ParameterGroup
  | .basic => some .basic
  | .greedyOptimal => none
  | .overreaction | .overreactionWithPredictions => some .buyLosers
  | .trendFollowing | .trendFollowingWithPredictions => some .buyWinners
  | .pca | .pcaWithPredictions => some .pca

end Strategy
end StrategySearch
