import StrategySearch.Propose.Kind
import StrategySearch.Proofs.Propose.Local
import StrategySearch.Proofs.Propose.Parzen

/-!
Proposers of every kind. In a space whose integers can be counted they answer, unless Parzen
estimation meets a coordinate that is no number; and at home they answer with candidates of the space.
-/

set_option autoImplicit false

namespace StrategySearch.ProposerState

variable {γ : Type} {space : SearchSpace} {history : List Trial} {s : ProposerState γ}

/-- Hill climbing alone keeps candidates from one proposal to the next. -/
def AtHome (space : SearchSpace) : ProposerState γ → Prop
  | .local search => search.AtHome space
  | _ => True

theorem start_atHome (kind : ProposerKind) (source : γ) : (start kind source).AtHome space := by
  match kind with
  | .local => exact LocalSearch.start_atHome source
  | .random | .bayes => trivial

theorem atHome_of_kind (other : s.kind ≠ .local) : s.AtHome space := by
  match s with
  | .local _ => exact absurd rfl other
  | .random _ | .bayes _ => trivial

theorem update_atHome {parameters : ParameterSet} (home : s.AtHome space)
    (has : space.Has parameters) (objective : Float) :
    (s.update parameters objective).AtHome space := by
  match s with
  | .local search => exact LocalSearch.update_atHome home has objective
  | .random _ | .bayes _ => trivial

theorem kind_update (parameters : ParameterSet) (objective : Float) :
    (s.update parameters objective).kind = s.kind := by
  cases s <;> rfl

variable [WordSource γ]

theorem kind_propose (space : SearchSpace) (history : List Trial) (s : ProposerState γ) :
    (s.propose space history).2.kind = s.kind := by
  cases s <;> rfl

theorem propose_atHome (home : s.AtHome space) (history : List Trial) :
    (s.propose space history).2.AtHome space := by
  match s with
  | .local search => exact LocalSearch.propose_atHome home
  | .random _ | .bayes _ => trivial

theorem propose_ends (space : SearchSpace) (history : List Trial) (s : ProposerState γ) :
    Answer.Ends (Parzen.Refuses space history)
      (fun candidate => s.AtHome space → space.Has candidate) (s.propose space history).1 := by
  match s with
  | .random source =>
    exact (SearchSpace.sample_ends space source).mono (fun _ => .inl) fun _ has _ => has
  | .local search =>
    by_cases home : search.AtHome space
    · exact (LocalSearch.propose_has home).mono (fun _ => .inl) fun _ has _ => has
    · exact (LocalSearch.propose_ends space search).mono (fun _ => .inl) fun _ _ home' =>
        absurd home' home
  | .bayes estimator =>
    exact (Parzen.propose_has space history estimator).mono (fun _ => id) fun _ has _ => has

/-- What keeps a proposer from stopping. -/
theorem propose_answers (fits : space.Fits)
    (numbers : ∀ trial ∈ history, ∀ point, space.toUnitPoint trial.parameters = .ok (some point) →
      ∀ center ∈ point, center.isNaN = false) (s : ProposerState γ) :
    ∃ candidate, (s.propose space history).1 = .ok candidate ∧
      (s.AtHome space → space.Has candidate) := by
  refine ((propose_ends space history s).mono ?_ fun _ => id).isOk
  rintro stop (overflows | ⟨trial, mem, point, found, center, inside, none, -⟩)
  · exact overflows.2 fits
  · exact absurd none (ne_true_of_eq_false (numbers trial mem point found center inside))

open LocalSearch in
theorem propose_answers_oneToFive : ∃ candidate,
    ((start .bayes (⟨[]⟩ : WordList)).propose oneToFive []).1 = .ok candidate ∧
      oneToFive.Has candidate := by
  obtain ⟨candidate, proposed, has⟩ :=
    propose_answers oneToFive_fits (fun _ member => absurd member List.not_mem_nil)
      (start .bayes (⟨[]⟩ : WordList))
  exact ⟨candidate, proposed, has (start_atHome .bayes _)⟩

end StrategySearch.ProposerState
