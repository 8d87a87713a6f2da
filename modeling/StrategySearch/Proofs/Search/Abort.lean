import StrategySearch.Proofs.Search.Success

/-! What a search that fails has done and keeps.

A failure may come from the proposer or from anywhere in an evaluation, after any number of scored
candidates. The search then knows of these candidates only, as if it had ended before the iteration
that fails.
-/

set_option autoImplicit false

namespace StrategySearch

variable {σ π : Type}

namespace Course

theorem dialogueFrom_append (space : SearchSpace) (seen : List Trial) (scored more : List Scored)
    (broken : Option Break) :
    dialogueFrom space seen (scored ++ more) broken = dialogueFrom space seen scored none ++
      dialogueFrom space (seen ++ scored.map Scored.trial) more broken := by
  induction scored generalizing seen with
  | nil => simp [dialogueFrom, lastWords]
  | cons first rest ih => simp [dialogueFrom, ih]

theorem dialogueFrom_broken (space : SearchSpace) (seen : List Trial) (scored : List Scored)
    (broken : Option Break) :
    dialogueFrom space seen scored broken = dialogueFrom space seen scored none ++
      lastWords space (seen ++ scored.map Scored.trial) broken := by
  simpa [dialogueFrom] using dialogueFrom_append space seen scored [] broken

theorem events_broken (scored : List Scored) (broken : Option Break) :
    events ⟨scored, broken⟩ =
      (scored.flatMap fun round => round.log.map (·.event)) ++ events ⟨[], broken⟩ := by
  simp [events, rounds, List.flatMap_map]

end Course

namespace Search

/-- What a run has come to, and the world with it, when these candidates are scored and the next
iteration begins. -/
inductive Begins (task : Task (StateM σ) π) (s : Search π) (w : σ) :
    List Scored → Tally → Search π → σ → Prop where
  | first : Begins task s w [] .zero (s.clear task.budget) w
  | next {scored : List Scored} {tally : Tally} {now : Search π} {v v' : σ} {proposer : π}
      {parameters : ParameterSet} {evaluation : Evaluation} :
      Begins task s w scored tally now v →
      task.proposer.propose task.space now.history now.proposer = (.ok parameters, proposer) →
      Evaluation.run task.service (task.experiment parameters) (task.schedule now.history.length)
        task.turns v = (.ok evaluation, v') →
      evaluation.objective.inform task.verbose = .ok () →
      Begins task s w
        (scored ++ [⟨parameters, evaluation, Evaluation.log task.service
          (task.experiment parameters) (task.schedule now.history.length) task.turns v⟩])
        (tally.add parameters evaluation)
        ((now.evaluating proposer parameters).score task.proposer task.budget
          (tally.add parameters evaluation) parameters evaluation) v'

/-- The iteration that begins here fails: its proposal does, or the evaluation of the candidate that
was proposed, after these calls. -/
inductive Fails (task : Task (StateM σ) π) (now : Search π) (v : σ) :
    Answer ParameterSet → List LogEntry → Failure → σ → Prop where
  | unproposed {cause : Failure} {proposer : π} :
      task.proposer.propose task.space now.history now.proposer =
        (.error (.failure cause), proposer) →
      Fails task now v (.error (.failure cause)) [] cause v
  | unscored {cause : Failure} {proposer : π} {parameters : ParameterSet} {v' : σ} :
      task.proposer.propose task.space now.history now.proposer = (.ok parameters, proposer) →
      Evaluation.run task.service (task.experiment parameters) (task.schedule now.history.length)
        task.turns v = (.error (.failure cause), v') →
      Fails task now v (.ok parameters) (Evaluation.log task.service (task.experiment parameters)
        (task.schedule now.history.length) task.turns v) cause v'

structure Aborts {m : Type → Type} (task : Task m π) (scored : List Scored) (cause : Failure)
    (s : Search π) : Prop where
  reports : ∀ round ∈ scored,
    Evaluation.Reports (task.experiment round.parameters) round.log round.evaluation
  history : s.history = scored.map Scored.trial
  stage : s.stage = .aborted
  phase : s.status.phase = "Aborted"
  error : s.status.lastError = some cause.message
  budget : s.status.budget = task.budget
  completed : s.status.completed = scored.length
  failedFolds : s.status.failedFolds = (scored.map (·.evaluation.failedFolds)).sum
  best : ∃ best, FirstBest scored best ∧ s.status.best = best.map fun found => found.2.toFloat

variable {task : Task (StateM σ) π} {s now : Search π} {w v v' : σ} {scored : List Scored}
  {tally : Tally} {proposal : Answer ParameterSet} {log : List LogEntry} {cause : Failure}

theorem Begins.reports (begins : Begins task s w scored tally now v) :
    ∀ round ∈ scored,
      Evaluation.Reports (task.experiment round.parameters) round.log round.evaluation := by
  induction begins with
  | first => nofun
  | next _ proposed evaluated written ih =>
    intro round member
    rcases List.mem_append.mp member with earlier | last
    · exact ih round earlier
    · rw [List.mem_singleton.mp last]
      exact .of_run (congrArg Prod.fst evaluated)

theorem Begins.tells (begins : Begins task s w scored tally now v) :
    Tells task scored tally now := by
  induction begins with
  | first => exact tells_clear task s
  | next _ proposed evaluated written ih => exact ih.score _ ⟨_, _, _⟩ written

theorem Begins.run_eq (begins : Begins task s w scored tally now v) (remaining : Nat)
    (count : scored.length + (remaining + 1) = task.budget) :
    run task s w = iterate task (remaining + 1) tally now v ∧
      Search.course task s w =
        let later := courseFrom task (remaining + 1) tally now v
        ⟨scored ++ later.scored, later.broken⟩ := by
  have some' : ¬ task.budget = 0 := by omega
  -- Each scored round takes one iteration off those that remain.
  induction begins generalizing remaining with
  | first =>
    rw [List.length_nil, Nat.zero_add] at count
    rw [run, Search.course, if_neg some', if_neg some', count]
    exact ⟨rfl, rfl⟩
  | next _ proposed evaluated written ih =>
    rw [List.length_append, List.length_singleton] at count
    obtain ⟨ran, whole⟩ := ih (remaining + 1) (by omega)
    rw [ran, whole, (iterate_scored proposed evaluated written).1,
      (iterate_scored proposed evaluated written).2]
    refine ⟨rfl, ?_⟩
    simp only [Course.cons, List.append_assoc, List.singleton_append]

/-- The iteration that fails is the last one, and leaves only its proposal and its calls. -/
theorem Fails.iterate_eq (fails : Fails task now v proposal log cause v') (remaining : Nat)
    (tally : Tally) :
    ∃ proposer stage broken,
      iterate task (remaining + 1) tally now v =
        ((.error (.failure cause),
          { now with proposer := proposer, stage := stage }.abort cause), v') ∧
      courseFrom task (remaining + 1) tally now v = ⟨[], some broken⟩ ∧
      (∀ seen, Course.lastWords task.space seen (some broken) =
        [.propose task.space seen proposal]) ∧
      Course.events ⟨[], some broken⟩ = log.map (·.event) := by
  cases fails with
  | @unproposed cause proposer proposed =>
    exact ⟨proposer, now.stage, _, (iterate_unproposed proposed).1, (iterate_unproposed proposed).2,
      fun seen => rfl, Course.events_unproposed _⟩
  | @unscored cause proposer parameters v' proposed evaluated =>
    exact ⟨proposer, .evaluating parameters, _, (iterate_unscored proposed evaluated).1,
      (iterate_unscored proposed evaluated).2, fun seen => rfl, Course.events_unscored _ _ _⟩

theorem Begins.aborts (begins : Begins task s w scored tally now v) (cause : Failure)
    (proposer : π) (stage : SearchStage) :
    Aborts task scored cause ({ now with proposer := proposer, stage := stage }.abort cause) := by
  obtain ⟨history, first, failed, -, ⟨budget, completed, failedFolds, best⟩, -⟩ := begins.tells
  exact ⟨begins.reports, history, rfl, rfl, rfl, budget, completed, failedFolds.trans failed,
    tally.best, first, best.trans tally.bestFloat_eq⟩

/-- The best objective was written when it was scored, so only a missing one makes a search fail at
its end. -/
theorem complete_eq_error {verbose : Bool} {strategy : Strategy} {stop : Stop}
    (written : ∀ best, tally.best = some best → best.2.inform verbose = .ok ())
    (failed : (now.complete verbose strategy tally).1 = .error stop) : tally.best = none := by
  unfold complete at failed
  cases best : tally.best with
  | none => rfl
  | some found =>
    simp only [best, written found best] at failed
    cases failed

theorem Runs.exists_fails {remaining : Nat} {course : Course}
    {after : (Answer SearchOutcome × Search π) × σ}
    (runs : Runs task remaining tally now v course after)
    (begins : Begins task s w scored tally now v)
    (count : scored.length + remaining = task.budget) (some' : ¬ task.budget = 0)
    (failed : after.1.1 = .error (.failure cause)) :
    ∃ scored tally now v v' proposal log, scored.length < task.budget ∧
      Begins task s w scored tally now v ∧ Fails task now v proposal log cause v' := by
  induction runs generalizing scored with
  | spent tally now v =>
    -- A search ends without a best candidate only if nothing was scored.
    have first := begins.tells.best
    rw [complete_eq_error begins.tells.written failed] at first
    rw [first.eq_nil] at count
    exact absurd count.symm some'
  | @unproposed remaining tally now v stop proposer proposed =>
    obtain rfl := Except.error.inj failed
    exact ⟨_, _, _, _, _, _, _, by omega, begins, .unproposed proposed⟩
  | @unscored remaining tally now v v' stop proposer parameters proposed evaluated =>
    obtain rfl := Except.error.inj failed
    exact ⟨_, _, _, _, _, _, _, by omega, begins, .unscored proposed evaluated⟩
  | unwritten proposed evaluated unwritten =>
    obtain rfl := Except.error.inj failed
    cases Decimal.inform_eq_error unwritten
  | scored proposed evaluated written _ ih =>
    refine ih (begins.next proposed evaluated written) ?_ failed
    rw [List.length_append, List.length_singleton]
    omega

theorem run_withoutBudget (task : Task (StateM σ) π) (s : Search π) (w : σ)
    (none : task.budget = 0) :
    run task s w =
      ((Answer.refuse (.configuration "iteration budget must be at least 1"), s), w) := by
  rw [run, if_pos none]
  rfl

/-- A failing iteration gives the failure of the search and leaves it with the candidates that were
scored before, of which alone the proposer was told; after the proposal and the calls of this
iteration nothing else is asked, told or called. Nothing else makes a search fail that has a budget,
and without a budget nothing happens at all. -/
theorem run_aborts (task : Task (StateM σ) π) (s : Search π) (w : σ) :
    (task.budget = 0 → ∀ told calls,
      run task s w =
          ((Answer.refuse (.configuration "iteration budget must be at least 1"), s), w) ∧
        run task.recorded (s.withRecord told) (w, calls) =
          ((Answer.refuse (.configuration "iteration budget must be at least 1"),
            s.withRecord told), (w, calls))) ∧
    (∀ {scored : List Scored} {tally : Tally} {now : Search π} {v v' : σ}
      {proposal : Answer ParameterSet} {log : List LogEntry} {cause : Failure},
      scored.length < task.budget → Begins task s w scored tally now v →
      Fails task now v proposal log cause v' →
      ∃ s', run task s w = ((.error (.failure cause), s'), v') ∧ Aborts task scored cause s' ∧
        run task.recorded (s.withRecord []) (w, []) =
          ((.error (.failure cause), s'.withRecord
            ((scored.zipIdx.flatMap fun (round, i) =>
              [.propose task.space (s'.history.take i) (.ok round.parameters),
                .update round.parameters round.evaluation.objective.toFloat]) ++
              [.propose task.space s'.history proposal])),
            (v', (scored.flatMap fun round => round.log.map (·.event)) ++ log.map (·.event)))) ∧
    ∀ {cause : Failure}, ¬ task.budget = 0 → (run task s w).1.1 = .error (.failure cause) →
      ∃ scored tally now v v' proposal log, scored.length < task.budget ∧
        Begins task s w scored tally now v ∧ Fails task now v proposal log cause v' := by
  refine ⟨?_, ?_, ?_⟩
  · intro none told calls
    exact ⟨run_withoutBudget task s w none, run_withoutBudget task.recorded _ _ none⟩
  · intro scored tally now v v' proposal log cause inside begins fails
    obtain ⟨remaining, count⟩ : ∃ remaining, scored.length + (remaining + 1) = task.budget :=
      ⟨task.budget - scored.length - 1, by omega⟩
    -- The run goes as it began and then as the iteration that fails ends.
    obtain ⟨proposer, stage, broken, ends, last, words, events⟩ := fails.iterate_eq remaining tally
    obtain ⟨ran, whole⟩ := begins.run_eq remaining count
    rw [ends] at ran
    simp only [last, List.append_nil] at whole
    have aborts := begins.aborts cause proposer stage
    refine ⟨_, ran, aborts, ?_⟩
    rw [run_recorded task s w [] [], ran, whole, Course.dialogue, Course.dialogueFrom_broken,
      Course.dialogueFrom_unbroken, words, Course.events_broken, events, aborts.history]
    simp only [List.nil_append]
  · intro cause some' failed
    rw [run, if_neg some'] at failed
    have runs := runs_iterate task task.budget .zero (s.clear task.budget) w
    exact runs.exists_fails .first (Nat.zero_add _) some' failed

section Cancelled

def cancelledLater : Task (StateM Nat) Nat :=
  { twice with
    service := { luckLater with
      poll := fun _ polls => (.ok (if polls = 0 then .failed else .cancelled), polls + 1) } }

/-- The first candidate scores the penalty and the second is cancelled. -/
theorem run_aborts_cancelled :
    (∃ s' scored cause, (run cancelledLater (start 0) 0).1 = (.error (.failure cause), s') ∧
      cause.isCancellation ∧ s'.history = [⟨candidate 0, loss.toFloat⟩] ∧
      Aborts cancelledLater scored cause s') ∧
    run { cancelledLater with budget := 0 } (start 0) 0 =
      ((Answer.refuse (.configuration "iteration budget must be at least 1"), start 0), 0) := by
  have first : Evaluation.run cancelledLater.service (cancelledLater.experiment (candidate 0))
      (cancelledLater.schedule ((start 0).clear 2).history.length) cancelledLater.turns 0 =
        (.ok ⟨loss, [⟨0, none⟩]⟩, 1) := by
    cbv
  have begins := (@Begins.first _ _ cancelledLater (start 0) 0).next (by rfl) first rfl
  have second : Evaluation.run cancelledLater.service (cancelledLater.experiment (candidate 1))
      id 7 1 = (Answer.refuse (.cancelled (JobId.text ⟨0, by decide⟩) 0), 2) := by
    rfl
  constructor
  · obtain ⟨-, aborts, -⟩ := run_aborts cancelledLater (start 0) 0
    obtain ⟨s', ran, aborts, -⟩ := aborts (by decide) begins (.unscored (by rfl) second)
    exact ⟨s', _, _, congrArg Prod.fst ran, rfl, aborts.history, aborts⟩
  · exact ((run_aborts { cancelledLater with budget := 0 } (start 0) 0).1 rfl [] []).1

end Cancelled

end Search
end StrategySearch
