import StrategySearch.Propose.Local
import StrategySearch.Proofs.Space.Candidates

/-!
Hill climbing stays in the space in which it was told of candidates. Its incumbent and its queue are
kept from one space to the next, so it leaves a space that it comes to with a candidate of another.
-/

set_option autoImplicit false

namespace StrategySearch.LocalSearch

variable {γ : Type} {space : SearchSpace} {s : LocalSearch γ} {evaluated : List String}

structure AtHome (space : SearchSpace) (s : LocalSearch γ) : Prop where
  incumbent : ∀ best ∈ s.incumbent, space.Has best.1
  queue : ∀ candidate ∈ s.queue, space.Has candidate

theorem start_atHome (source : γ) : (start source).AtHome space :=
  ⟨nofun, nofun⟩

theorem update_atHome {parameters : ParameterSet} (home : s.AtHome space)
    (has : space.Has parameters) (objective : Float) :
    (s.update parameters objective).AtHome space := by
  refine ⟨?_, home.queue⟩
  simp only [update]
  split <;> split
  · rintro best ⟨⟩
    exact has
  · exact home.incumbent
  · rintro best ⟨⟩
    exact has
  · exact home.incumbent

theorem expand_ends (space : SearchSpace) (s : LocalSearch γ) :
    Answer.Ends space.Overflows (fun s' => s'.incumbent = s.incumbent ∧
      ∀ candidate ∈ s'.queue, candidate ∈ s.queue ∨
        ∃ best ∈ s.incumbent, space.Varies best.1 candidate) (s.expand space) := by
  unfold expand
  split
  · exact ⟨rfl, fun _ => .inl⟩
  · next best objective found =>
    simp only
    split
    · exact ⟨rfl, fun _ => .inl⟩
    · refine (SearchSpace.neighbours_ends space multipliers realSteps best s.evaluated).bind
        fun _ each => ⟨rfl, fun candidate mem => .inr ?_⟩
      exact ⟨(best, objective), found, each candidate mem⟩

theorem dequeue_mem {queue rest : List ParameterSet} {candidate? : Option ParameterSet}
    (taken : dequeue evaluated queue = (candidate?, rest)) :
    (∀ candidate ∈ candidate?, candidate ∈ queue) ∧ ∀ candidate ∈ rest, candidate ∈ queue := by
  induction queue with
  | nil => cases taken; exact ⟨nofun, nofun⟩
  | cons first others ih =>
    rw [dequeue] at taken
    split at taken
    · have inside := ih taken
      exact ⟨fun c mem => List.mem_cons_of_mem _ (inside.1 c mem),
        fun c mem => List.mem_cons_of_mem _ (inside.2 c mem)⟩
    · cases taken
      refine ⟨?_, fun c mem => List.mem_cons_of_mem _ mem⟩
      rintro c ⟨⟩
      exact List.mem_cons_self

variable [WordSource γ]

theorem drawNew_ends (fuel : Nat) {candidate : ParameterSet} (has : space.Has candidate) :
    Draw.Ends γ space.Overflows space.Has (drawNew space evaluated fuel candidate) := by
  induction fuel generalizing candidate with
  | zero => exact Draw.Ends.pure has
  | succ fuel ih =>
    rw [drawNew]
    split
    · exact (SearchSpace.sample_ends space).bind fun _ has => ih has
    · exact Draw.Ends.pure has

theorem random_ends (space : SearchSpace) (evaluated : List String) :
    Draw.Ends γ space.Overflows space.Has (random space evaluated) :=
  (SearchSpace.sample_ends space).bind fun _ has => drawNew_ends retries has

/-- A candidate was queued, varies the incumbent, or is a random one of the space. -/
theorem propose_ends (space : SearchSpace) (s : LocalSearch γ) :
    Answer.Ends space.Overflows (fun candidate => candidate ∈ s.queue ∨
      (∃ best ∈ s.incumbent, space.Varies best.1 candidate) ∨ space.Has candidate)
      (s.propose space).1 := by
  have expanded := expand_ends space s
  unfold propose
  match found : s.expand space with
  | .error stop =>
    rw [found] at expanded
    exact expanded
  | .ok s' =>
    rw [found] at expanded
    match taken : dequeue s'.evaluated s'.queue with
    | (some candidate, rest) =>
      simp only [taken]
      have queued := expanded.2 candidate ((dequeue_mem taken).1 candidate rfl)
      exact queued.imp_right .inl
    | (none, rest) =>
      simp only [taken]
      exact (random_ends space s'.evaluated s'.source).mono (fun _ => id) fun _ has =>
        Or.inr (Or.inr has)

theorem propose_atHome (home : s.AtHome space) : (s.propose space).2.AtHome space := by
  have expanded := expand_ends space s
  unfold propose
  match found : s.expand space with
  | .error stop => exact home
  | .ok s' =>
    rw [found] at expanded
    have incumbent : ∀ best ∈ s'.incumbent, space.Has best.1 := by
      rw [expanded.1]
      exact home.incumbent
    have queue : ∀ candidate ∈ s'.queue, space.Has candidate := fun candidate mem => by
      rcases expanded.2 candidate mem with queued | ⟨best, known, varies⟩
      · exact home.queue candidate queued
      · exact varies.has (home.incumbent best known)
    match taken : dequeue s'.evaluated s'.queue with
    | (some candidate, rest) | (none, rest) =>
      simp only [taken]
      exact ⟨incumbent, fun c mem => queue c ((dequeue_mem taken).2 c mem)⟩

theorem propose_has (home : s.AtHome space) :
    Answer.Ends space.Overflows space.Has (s.propose space).1 := by
  refine (propose_ends space s).mono (fun _ => id) fun candidate from' => ?_
  rcases from' with queued | ⟨best, known, varies⟩ | has
  · exact home.queue candidate queued
  · exact varies.has (home.incumbent best known)
  · exact has

def oneToFive : SearchSpace := ⟨.ofList [("x", .integer 1 5)], by rfl⟩

theorem oneToFive_fits : oneToFive.Fits := by
  intro entry inside
  obtain rfl : entry = ("x", .integer 1 5) := List.mem_singleton.mp inside
  exact ⟨by decide, by decide, show (5 : Int) - 1 < Int64.maxValue.toInt by decide⟩

def elsewhere : LocalSearch WordList :=
  (start ⟨[]⟩).update (.ofList [("x", .integer 3), ("y", .integer 7)]) 1.0

/-- Away from home a candidate may have a name that the space lacks. -/
theorem propose_elsewhere :
    (elsewhere.propose oneToFive).1.toOption.map ByName.names = some ["x", "y"] := by
  decide +kernel

end StrategySearch.LocalSearch
