import StrategySearch.Proofs.Propose.Kinds
import StrategySearch.Proofs.Search.Success

/-!
Where the candidates of searches lie. One search that starts at home in its space proposes candidates
of this space and ends at home, however it ends. So do searches that follow each other, if hill
climbing is given one space for all of them; the other kinds are at home everywhere.
-/

set_option autoImplicit false

namespace StrategySearch.Search

theorem proposer_halt {π : Type} (s : Search π) (stop : Stop) :
    (s.halt stop).proposer = s.proposer := by
  cases stop <;> rfl

variable {σ γ : Type} [WordSource γ] {task : Task (StateM σ) (ProposerState γ)} {remaining : Nat}
  {tally : Tally} {s : Search (ProposerState γ)} {w : σ} {course : Course} {space : SearchSpace}
  {after : (Answer SearchOutcome × Search (ProposerState γ)) × σ}

theorem propose_stays {answer : Answer ParameterSet} {proposer : ProposerState γ}
    {history : List Trial} (home : s.proposer.AtHome space)
    (proposed : ProposerState.proposer.propose space history s.proposer = (answer, proposer)) :
    proposer.AtHome space ∧ proposer.kind = s.proposer.kind ∧
      ∀ parameters, answer = .ok parameters → space.Has parameters := by
  have ends := ProposerState.propose_ends space history s.proposer
  have stays := ProposerState.propose_atHome home history
  have kind := ProposerState.kind_propose space history s.proposer
  have same : ProposerState.propose space history s.proposer = (answer, proposer) := proposed
  rw [same] at ends stays kind
  refine ⟨stays, kind, ?_⟩
  rintro parameters rfl
  exact ends home

theorem tell_stays {parameters : ParameterSet} {proposer : ProposerState γ}
    (proposes : task.proposer = ProposerState.proposer) (home : proposer.AtHome task.space)
    (has : task.space.Has parameters) (objective : Float) :
    let told := ((s.evaluating proposer parameters).tell task.proposer parameters objective).proposer
    told.AtHome task.space ∧ told.kind = proposer.kind := by
  intro told
  have same : told = proposer.update parameters objective := by
    show task.proposer.update parameters objective proposer = _
    rw [proposes]
    rfl
  rw [same]
  exact ⟨ProposerState.update_atHome home has _, ProposerState.kind_update _ _⟩

theorem Runs.stays (runs : Runs task remaining tally s w course after)
    (proposes : task.proposer = ProposerState.proposer) (home : s.proposer.AtHome task.space) :
    (∀ round ∈ course.rounds, task.space.Has round.1) ∧
      after.1.2.proposer.AtHome task.space ∧ after.1.2.proposer.kind = s.proposer.kind := by
  induction runs with
  | spent tally s w =>
    rw [complete_snd]
    exact ⟨nofun, home, rfl⟩
  | unproposed proposed =>
    rw [proposes] at proposed
    obtain ⟨stays, kind, -⟩ := propose_stays home proposed
    -- A failure leaves the proposer where its last proposal took it.
    rw [proposer_halt]
    exact ⟨nofun, stays, kind⟩
  | unscored proposed evaluated =>
    rw [proposes] at proposed
    obtain ⟨stays, kind, has⟩ := propose_stays home proposed
    rw [proposer_halt]
    refine ⟨fun round member => ?_, stays, kind⟩
    obtain rfl := List.mem_singleton.mp member
    exact has _ rfl
  | @unwritten remaining tally s w w' stop proposer parameters evaluation proposed evaluated
      unwritten =>
    rw [proposes] at proposed
    obtain ⟨stays, kind, has⟩ := propose_stays home proposed
    obtain ⟨toldHome, toldKind⟩ :=
      tell_stays (s := s) proposes stays (has _ rfl) evaluation.objective.toFloat
    refine ⟨fun round member => ?_, toldHome, toldKind.trans kind⟩
    obtain rfl := List.mem_singleton.mp member
    exact has _ rfl
  | @scored remaining tally s w w' proposer parameters evaluation later after proposed evaluated
      written _ ih =>
    rw [proposes] at proposed
    obtain ⟨stays, kind, has⟩ := propose_stays home proposed
    obtain ⟨toldHome, toldKind⟩ :=
      tell_stays (s := s) proposes stays (has _ rfl) evaluation.objective.toFloat
    obtain ⟨others, ends, sameKind⟩ := ih toldHome
    refine ⟨fun round member => ?_, ends, sameKind.trans (toldKind.trans kind)⟩
    rcases List.mem_cons.mp member with rfl | member
    · exact has _ rfl
    · exact others round member

theorem run_stays (proposes : task.proposer = ProposerState.proposer)
    (home : s.proposer.AtHome task.space) (w : σ) :
    (∀ round ∈ (Search.course task s w).rounds, task.space.Has round.1) ∧
      (run task s w).1.2.proposer.AtHome task.space ∧
        (run task s w).1.2.proposer.kind = s.proposer.kind := by
  by_cases none : task.budget = 0
  · simp only [Search.course, run, if_pos none]
    exact ⟨fun round member => absurd member List.not_mem_nil, home, rfl⟩
  · simp only [Search.course, run, if_neg none]
    exact (runs_iterate task task.budget .zero (s.clear task.budget) w).stays proposes home

def candidates {π : Type} : List (Task (StateM σ) π) → Search π → σ →
    List (SearchSpace × ParameterSet)
  | [], _, _ => []
  | task :: rest, s, w =>
    (Search.course task s w).rounds.map (fun round => (task.space, round.1)) ++
      candidates rest (run task s w).1.2 (run task s w).2

/-- Every candidate lies in the space of its search, unless hill climbing changes spaces. -/
theorem candidates_stay {tasks : List (Task (StateM σ) (ProposerState γ))}
    (proposes : ∀ task ∈ tasks, task.proposer = ProposerState.proposer)
    (settled : s.proposer.kind = .local → ∀ task ∈ tasks, task.space = space)
    (home : s.proposer.AtHome space) (w : σ) :
    ∀ candidate ∈ candidates tasks s w, candidate.1.Has candidate.2 := by
  induction tasks generalizing s w with
  | nil => nofun
  | cons task rest ih =>
    -- Only hill climbing needs the space to stay; the invariant is that its home does.
    have homeHere : s.proposer.AtHome task.space := by
      by_cases climbing : s.proposer.kind = .local
      · rw [settled climbing task List.mem_cons_self]
        exact home
      · exact ProposerState.atHome_of_kind climbing
    obtain ⟨inside, stays, kind⟩ := run_stays (proposes task List.mem_cons_self) homeHere w
    intro candidate member
    rcases List.mem_append.mp member with here | later
    · obtain ⟨round, mem, rfl⟩ := List.mem_map.mp here
      exact inside round mem
    · refine ih (fun task mem => proposes task (List.mem_cons_of_mem _ mem))
        (fun climbing task mem => settled (kind ▸ climbing) task (List.mem_cons_of_mem _ mem))
        ?_ _ candidate later
      by_cases climbing : s.proposer.kind = .local
      · rw [← settled climbing task List.mem_cons_self]
        exact stays
      · exact ProposerState.atHome_of_kind (kind ▸ climbing)

section Climbing

open LocalSearch (oneToFive)

def climbing : Task (StateM Nat) (ProposerState WordList) :=
  { twice with proposer := ProposerState.proposer, space := oneToFive }

def climber : Search (ProposerState WordList) := start (.start .local ⟨[]⟩)

theorem candidates_stay_climbing : (candidates [climbing, climbing] climber 0).length = 4 ∧
    ∀ candidate ∈ candidates [climbing, climbing] climber 0, candidate.1.Has candidate.2 := by
  have alike : ∀ task ∈ [climbing, climbing], task = climbing := by simp
  have settled : ∀ task ∈ [climbing, climbing], task.space = oneToFive := by
    intro task member
    rw [alike task member]
    rfl
  have home : climber.proposer.AtHome oneToFive := ProposerState.start_atHome .local _
  refine ⟨by decide +kernel, candidates_stay (fun task member => ?_) (fun _ => settled) home 0⟩
  rw [alike task member]
  rfl

end Climbing

end StrategySearch.Search
