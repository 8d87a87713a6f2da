import StrategySearch.Proofs.Propose.Ranking
import StrategySearch.Proofs.Space.Outside

/-!
What a proposal takes from the history: the trials that can be used. Others may stand anywhere between
them, and the order of trials is lost in their ranks where no two have one objective.
-/

set_option autoImplicit false

namespace StrategySearch

/-- A finite objective, and parameters of which none is missing or outside its dimension. -/
structure Trial.Usable (trial : Trial) (space : SearchSpace) : Prop where
  finite : trial.objective.isFinite = true
  inside : ¬ space.Excludes trial.parameters

namespace Parzen

variable {space : SearchSpace} {trial : Trial} {history other short long : List Trial}
  {observed observed' : List Observation} {γ : Type}

/-- The second history has besides trials that cannot be used, wherever they stand. -/
inductive Padded (space : SearchSpace) : List Trial → List Trial → Prop where
  | nil : Padded space [] []
  | keep {short long : List Trial} (trial : Trial) : Padded space short long →
      Padded space (trial :: short) (trial :: long)
  | extra {short long : List Trial} {trial : Trial} : ¬ trial.Usable space →
      Padded space short long → Padded space short (trial :: long)

def Discerns (space : SearchSpace) (history : List Trial) : Prop :=
  history.Pairwise fun a b => a.Usable space → b.Usable space →
    orderKey a.objective ≠ orderKey b.objective

def observation? (space : SearchSpace) (trial : Trial) : Option Observation :=
  if trial.objective.isFinite then
    match space.toUnitPoint trial.parameters with
    | .ok (some point) => some ⟨point, trial.objective⟩
    | _ => none
  else none

theorem observation?_of_not_usable (fits : space.Fits) (unusable : ¬ trial.Usable space) :
    observation? space trial = none := by
  unfold observation?
  split
  · next finite =>
    have outside : space.Excludes trial.parameters := by
      by_contra inside
      exact unusable ⟨finite, inside⟩
    rw [(SearchSpace.toUnitPoint_eq_none_iff fits).mpr outside]
  · rfl

theorem of_observation? (fits : space.Fits) {o : Observation}
    (gives : observation? space trial = some o) :
    trial.Usable space ∧ o.objective = trial.objective := by
  refine ⟨?_, ?_⟩
  · by_contra unusable
    rw [observation?_of_not_usable fits unusable] at gives
    cases gives
  · unfold observation? at gives
    split at gives
    · split at gives <;> cases gives
      rfl
    · cases gives

theorem observe_eq (fits : space.Fits) (history : List Trial) :
    observe space history = .ok (history.filterMap (observation? space)) := by
  induction history with
  | nil => rfl
  | cons trial rest ih =>
    rw [observe, List.filterMap_cons, observation?]
    split
    · obtain ⟨point?, found⟩ := SearchSpace.toUnitPoint_ok fits trial.parameters
      rw [found, ih]
      cases point? <;> rfl
    · exact ih

theorem Padded.filterMap_eq (fits : space.Fits) (padded : Padded space short long) :
    long.filterMap (observation? space) = short.filterMap (observation? space) := by
  induction padded with
  | nil => rfl
  | keep trial _ ih => rw [List.filterMap_cons, List.filterMap_cons, ih]
  | extra unusable _ ih => rw [List.filterMap_cons, observation?_of_not_usable fits unusable, ih]

theorem Discerns.distinct (fits : space.Fits) (discerns : Discerns space history) :
    Distinct (history.filterMap (observation? space)) := by
  refine discerns.filterMap _ fun a b apart o gives o' gives' => ?_
  obtain ⟨usable, objective⟩ := of_observation? fits gives
  obtain ⟨usable', objective'⟩ := of_observation? fits gives'
  rw [objective, objective']
  exact apart usable usable'

variable [WordSource γ]

theorem propose_congr (found : observe space history = .ok observed)
    (found' : observe space other = .ok observed') (length : observed.length = observed'.length)
    (ranking : observed.mergeSort better = observed'.mergeSort better) (s : Parzen γ) :
    s.propose space history = s.propose space other := by
  have drawn : (draw space history s.startup : Draw γ ParameterSet) =
      draw space other s.startup := by
    unfold draw
    rw [found, found']
    show (if observed.length < max s.startup 2 then space.sample else _ : Draw γ ParameterSet) =
      if observed'.length < max s.startup 2 then space.sample else _
    rw [length, ranking]
  unfold propose
  rw [drawn]

/-- Trials that cannot be used change nothing, and neither does the order of the others if their
objectives differ. -/
theorem propose_sees_usable (fits : space.Fits) (s : Parzen γ) (history : List Trial) :
    (∀ other, Padded space history other ∨ Padded space other history →
      s.propose space other = s.propose space history) ∧
    ∀ other, history.Perm other → Discerns space history →
      s.propose space other = s.propose space history := by
  have observed (history : List Trial) := observe_eq fits history
  refine ⟨fun other padded => ?_, fun other same discerns => ?_⟩
  · have kept : other.filterMap (observation? space) = history.filterMap (observation? space) :=
      padded.elim (fun longer => longer.filterMap_eq fits)
        fun shorter => (shorter.filterMap_eq fits).symm
    exact propose_congr (observed other) (observed history) (by rw [kept]) (by rw [kept]) s
  · -- The observations are moved as the trials are, and ranked in the only way there is.
    have moved := same.filterMap (observation? space)
    have ranking := mergeSort_eq_of_perm moved (discerns.distinct fits)
    exact propose_congr (observed other) (observed history) moved.length_eq.symm ranking.symm s

def modes : SearchSpace :=
  ⟨.ofList [("mode", .categorical ["a", "b"]), ("rate", .real 0.0 1.0 .uniform)], by decide +kernel⟩

theorem modes_fits : modes.Fits := by
  intro entry inside
  rcases List.mem_cons.mp inside with rfl | inside
  · trivial
  · obtain rfl := List.mem_singleton.mp inside
    trivial

def trialOf (mode : String) (rate objective : Float) : Trial :=
  ⟨.ofList [("mode", .category mode), ("rate", .real rate)], objective⟩

theorem get?_mode (mode : String) (rate objective : Float) :
    (trialOf mode rate objective).parameters.get? "mode" = some (.category mode) := by
  simp [trialOf, ByName.ofList, ByName.get?_insert]

theorem stray_not_usable (rate objective : Float) : ¬ (trialOf "c" rate objective).Usable modes := by
  refine fun usable => usable.inside ⟨("mode", .categorical ["a", "b"]), List.mem_cons_self, ?_⟩
  rw [get?_mode]
  rintro _ ⟨⟩ _ ⟨⟩
  decide

/-- A stray trial with the objective of another one stands between two that can be used. -/
theorem propose_sees_usable_stray :
    let first := trialOf "a" 0.25 1.0
    let second := trialOf "b" 0.75 (-1.0)
    let stray := trialOf "c" 0.5 1.0
    let s : Parzen WordList := start ⟨[]⟩ 0
    modes.Fits ∧ Padded modes [first, second] [first, stray, second] ∧
      s.propose modes [first, stray, second] = s.propose modes [first, second] ∧
      [first, stray, second].Perm [second, first, stray] ∧
      Discerns modes [first, stray, second] ∧
      s.propose modes [second, first, stray] = s.propose modes [first, stray, second] := by
  intro first second stray s
  have padded : Padded modes [first, second] [first, stray, second] :=
    .keep first (.extra (stray_not_usable _ _) (.keep second .nil))
  have moved : ([first, stray] ++ [second]).Perm ([second] ++ [first, stray]) :=
    List.perm_append_comm
  have discerns : Discerns modes [first, stray, second] := by
    have apart : orderKey 1.0 ≠ orderKey (-1.0) := by decide +kernel
    have none := stray_not_usable 0.5 1.0
    simp only [Discerns, List.pairwise_cons, List.mem_cons, List.not_mem_nil, or_false,
      forall_eq_or_imp, forall_eq]
    exact ⟨⟨fun _ usable => absurd usable none, fun _ _ => apart⟩, fun usable => absurd usable none,
      nofun, .nil⟩
  exact ⟨modes_fits, padded, (propose_sees_usable modes_fits s _).1 _ (.inl padded), moved, discerns,
    (propose_sees_usable modes_fits s _).2 _ moved discerns⟩

end Parzen
end StrategySearch
