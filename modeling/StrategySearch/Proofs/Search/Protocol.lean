import StrategySearch.Proofs.Backtest.Protocol
import StrategySearch.Proofs.Search.Course

/-! Which calls a whole search makes: for one proposed candidate after another the calls of its
evaluation, none of which begins before the last one has ended. Turns may be used up at any point, so
this also holds of every beginning of a search that does not end. -/

set_option autoImplicit false

namespace StrategySearch

variable {σ π : Type}

namespace Course

theorem candidates_dialogueFrom (space : SearchSpace) (seen : List Trial) (course : Course) :
    (dialogueFrom space seen course.scored course.broken).filterMap ProposerCall.candidate? =
      course.rounds.map (·.1) := by
  obtain ⟨scored, broken⟩ := course
  induction scored generalizing seen with
  | nil =>
    match broken with
    | none => rfl
    | some (.unproposed stop) => rfl
    | some (.unscored parameters log stop) => rfl
    | some (.unwritten round) => rfl
  | cons first rest ih =>
    simp only [dialogueFrom, List.filterMap_cons, ProposerCall.candidate?, ih]
    rfl

end Course

namespace Search

variable {task : Task (StateM σ) π} {remaining : Nat} {tally : Tally} {s : Search π} {w : σ}
  {course : Course} {after : (Answer SearchOutcome × Search π) × σ}

theorem Runs.rounds_length_le (runs : Runs task remaining tally s w course after) :
    course.rounds.length ≤ remaining := by
  induction runs with
  | spent tally s w => exact Nat.le_refl 0
  | unproposed proposed => exact Nat.zero_le _
  | unscored proposed evaluated => exact Nat.le_add_left 1 _
  | unwritten proposed evaluated unwritten => exact Nat.le_add_left 1 _
  | scored proposed evaluated written _ ih =>
    rw [Course.rounds_cons, List.length_cons]
    exact Nat.succ_le_succ ih

theorem Runs.speaks (runs : Runs task remaining tally s w course after) :
    ∀ round ∈ course.rounds, (task.experiment round.1).Speaks round.2 := by
  induction runs with
  | spent tally s w => nofun
  | unproposed proposed => nofun
  | unscored proposed evaluated =>
    intro round member
    obtain rfl := List.mem_singleton.mp member
    exact Evaluation.log_speaks _ _ _ _ _
  | unwritten proposed evaluated unwritten =>
    intro round member
    obtain rfl := List.mem_singleton.mp member
    exact Evaluation.log_speaks _ _ _ _ _
  | scored proposed evaluated written _ ih =>
    rw [Course.rounds_cons]
    intro round member
    rcases List.mem_cons.mp member with rfl | member
    · exact Evaluation.log_speaks _ _ _ _ _
    · exact ih round member

/-- The calls of a search are those of its rounds, one round after another, and the calls of each
round obey the protocol of an evaluation of the candidate that was proposed for it. -/
theorem run_speaks (task : Task (StateM σ) π) (s : Search π) (w : σ) :
    let c := Search.course task s w
    let after := run task s w
    run task.recorded (s.withRecord []) (w, []) =
        ((after.1.1, after.1.2.withRecord (c.dialogue task.space)),
          (after.2, c.rounds.flatMap fun round => round.2.map (·.event))) ∧
      c.rounds.map (·.1) = (c.dialogue task.space).filterMap ProposerCall.candidate? ∧
      c.rounds.length ≤ task.budget ∧
      ∀ round ∈ c.rounds, (task.experiment round.1).Speaks round.2 := by
  refine ⟨run_recorded task s w [] [], (Course.candidates_dialogueFrom _ _ _).symm, ?_⟩
  by_cases none : task.budget = 0
  · simp only [Search.course, if_pos none]
    exact ⟨Nat.zero_le _, fun round member => absurd member List.not_mem_nil⟩
  · simp only [Search.course, if_neg none]
    have runs := runs_iterate task task.budget .zero (s.clear task.budget) w
    exact ⟨runs.rounds_length_le, runs.speaks⟩

end Search
end StrategySearch
