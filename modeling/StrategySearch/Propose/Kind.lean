import StrategySearch.Propose.Local
import StrategySearch.Propose.Parzen
import StrategySearch.Random.Keystream

/-! The kinds of proposers by name, and one state for all of them. -/

set_option autoImplicit false

namespace StrategySearch

inductive ProposerKind where
  | random
  | local
  | bayes
  deriving DecidableEq, Repr

namespace ProposerKind

def standard : ProposerKind := .bayes

def name : ProposerKind → String
  | .random => "random"
  | .local => "local"
  | .bayes => "bayes"

def parse (s : String) : Except Failure ProposerKind :=
  match Text.lower (Text.trim s) with
  | "random" => .ok .random
  | "local" => .ok .local
  | "bayes" | "tpe" => .ok .bayes
  | other => .error (.configuration
      s!"unknown proposer '{other}' (expected random, local or bayes)")

end ProposerKind

inductive ProposerState (γ : Type) where
  | random (source : γ)
  | local (search : LocalSearch γ)
  | bayes (estimator : Parzen γ)

namespace ProposerState

variable {γ : Type}

def kind : ProposerState γ → ProposerKind
  | .random _ => .random
  | .local _ => .local
  | .bayes _ => .bayes

def start (kind : ProposerKind) (source : γ) : ProposerState γ :=
  match kind with
  | .random => .random source
  | .local => .local (.start source)
  | .bayes => .bayes (.start source Parzen.defaultStartup)

def propose [WordSource γ] (space : SearchSpace) (history : List Trial) :
    ProposerState γ → Answer ParameterSet × ProposerState γ
  | .random source =>
    let (candidate, source) := (SearchSpace.sample space : Draw γ ParameterSet).run.run source
    (candidate, .random source)
  | .local search => let (candidate, search) := search.propose space; (candidate, .local search)
  | .bayes estimator =>
    let (candidate, estimator) := estimator.propose space history; (candidate, .bayes estimator)

def update (parameters : ParameterSet) (objective : Float) : ProposerState γ → ProposerState γ
  | .local search => .local (search.update parameters objective)
  | other => other

def proposer [WordSource γ] : Proposer (ProposerState γ) := ⟨propose, update⟩

end ProposerState
end StrategySearch
