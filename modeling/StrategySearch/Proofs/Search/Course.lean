import StrategySearch.Proofs.Backtest.Outcomes
import StrategySearch.Search.Run

/-! The course of a search: which candidates it scored, what they called, and what broke it off.

With a proposer and a service that keep records a search goes the same way, and the records hold
what the proposer was asked and told and what the service was called for, iteration by iteration.
-/

set_option autoImplicit false

namespace StrategySearch

variable {σ π : Type}

structure Scored where
  parameters : ParameterSet
  evaluation : Evaluation
  log : List LogEntry

def Scored.trial (round : Scored) : Trial :=
  ⟨round.parameters, round.evaluation.objective.toFloat⟩

/-- No candidate was proposed, or one was not scored, or its score was told to the proposer and cannot
be written to the log. -/
inductive Break where
  | unproposed (stop : Stop)
  | unscored (parameters : ParameterSet) (log : List LogEntry) (stop : Stop)
  | unwritten (round : Scored)

structure Course where
  scored : List Scored
  broken : Option Break

inductive ProposerCall where
  | propose (space : SearchSpace) (seen : List Trial) (answer : Answer ParameterSet)
  | update (parameters : ParameterSet) (objective : Float)

def ProposerCall.candidate? : ProposerCall → Option ParameterSet
  | .propose _ _ (.ok parameters) => some parameters
  | _ => none

namespace Course

def cons (first : Scored) (rest : Course) : Course := ⟨first :: rest.scored, rest.broken⟩

def rounds (course : Course) : List (ParameterSet × List LogEntry) :=
  course.scored.map (fun round => (round.parameters, round.log)) ++
    match course.broken with
    | some (.unscored parameters log _) => [(parameters, log)]
    | some (.unwritten round) => [(round.parameters, round.log)]
    | _ => []

def events (course : Course) : List Event :=
  course.rounds.flatMap fun round => round.2.map (·.event)

def lastWords (space : SearchSpace) (seen : List Trial) : Option Break → List ProposerCall
  | none => []
  | some (.unproposed stop) => [.propose space seen (.error stop)]
  | some (.unscored parameters _ _) => [.propose space seen (.ok parameters)]
  | some (.unwritten round) =>
    [.propose space seen (.ok round.parameters),
      .update round.parameters round.evaluation.objective.toFloat]

/-- Each proposal sees the trials before it, and its score is told before the next. -/
def dialogueFrom (space : SearchSpace) :
    List Trial → List Scored → Option Break → List ProposerCall
  | seen, [], broken => lastWords space seen broken
  | seen, first :: rest, broken =>
    .propose space seen (.ok first.parameters) ::
      .update first.parameters first.evaluation.objective.toFloat ::
        dialogueFrom space (seen ++ [first.trial]) rest broken

def dialogue (space : SearchSpace) (course : Course) : List ProposerCall :=
  dialogueFrom space [] course.scored course.broken

theorem events_none : events ⟨[], none⟩ = [] := rfl

theorem events_unproposed (stop : Stop) : events ⟨[], some (.unproposed stop)⟩ = [] := rfl

theorem events_unscored (parameters : ParameterSet) (log : List LogEntry) (stop : Stop) :
    events ⟨[], some (.unscored parameters log stop)⟩ = log.map (·.event) := by
  simp [events, rounds]

theorem events_unwritten (round : Scored) :
    events ⟨[], some (.unwritten round)⟩ = round.log.map (·.event) := by
  simp [events, rounds]

theorem rounds_cons (first : Scored) (rest : Course) :
    (cons first rest).rounds = (first.parameters, first.log) :: rest.rounds := rfl

theorem events_cons (first : Scored) (rest : Course) :
    (cons first rest).events = first.log.map (·.event) ++ rest.events := by
  rw [events, rounds_cons, List.flatMap_cons, events]

end Course

namespace Proposer

/-- The same proposer with a record of what it is asked and told, oldest first. -/
def recorded (proposer : Proposer π) : Proposer (π × List ProposerCall) where
  propose space seen := fun (state, told) =>
    let (answer, state) := proposer.propose space seen state
    (answer, (state, told ++ [.propose space seen answer]))
  update parameters objective := fun (state, told) =>
    (proposer.update parameters objective state, told ++ [.update parameters objective])

end Proposer

theorem Tally.bestFloat_eq (tally : Tally) :
    tally.bestFloat = tally.best.map fun best => best.2.toFloat := by
  unfold bestFloat
  cases tally.best with
  | none => rfl
  | some best => exact best.2.toFloat?_eq

namespace Search

namespace Task

variable {m : Type → Type}

def experiment (task : Task m π) (parameters : ParameterSet) : Experiment :=
  ⟨task.plan, task.strategy, parameters, task.verbose⟩

def recorded (task : Task (StateM σ) π) :
    Task (StateM (σ × List Event)) (π × List ProposerCall) where
  proposer := task.proposer.recorded
  service := task.service.recorded
  plan := task.plan
  strategy := task.strategy
  space := task.space
  budget := task.budget
  schedule := task.schedule
  turns := task.turns
  verbose := task.verbose

end Task

def evaluating (s : Search π) (proposer : π) (parameters : ParameterSet) : Search π :=
  { s with proposer := proposer, stage := .evaluating parameters }

def score (proposer : Proposer π) (budget : Nat) (tally : Tally) (parameters : ParameterSet)
    (evaluation : Evaluation) (s : Search π) : Search π :=
  (s.tell proposer parameters evaluation.objective.toFloat).exhibit budget tally parameters
    evaluation.objective

def courseFrom (task : Task (StateM σ) π) : Nat → Tally → Search π → σ → Course
  | 0, _, _, _ => ⟨[], none⟩
  | remaining + 1, tally, s, w =>
    match task.proposer.propose task.space s.history s.proposer with
    | (.error stop, _) => ⟨[], some (.unproposed stop)⟩
    | (.ok parameters, proposer) =>
      let log := Evaluation.log task.service (task.experiment parameters)
        (task.schedule s.history.length) task.turns w
      match Evaluation.run task.service (task.experiment parameters)
          (task.schedule s.history.length) task.turns w with
      | (.error stop, _) => ⟨[], some (.unscored parameters log stop)⟩
      | (.ok evaluation, w) =>
        let tally := tally.add parameters evaluation
        match evaluation.objective.inform task.verbose with
        | .error _ => ⟨[], some (.unwritten ⟨parameters, evaluation, log⟩)⟩
        | .ok () =>
          (courseFrom task remaining tally ((s.evaluating proposer parameters).score task.proposer
            task.budget tally parameters evaluation) w).cons ⟨parameters, evaluation, log⟩

def course (task : Task (StateM σ) π) (s : Search π) (w : σ) : Course :=
  if task.budget = 0 then ⟨[], none⟩
  else courseFrom task task.budget .zero (s.clear task.budget) w

variable {task : Task (StateM σ) π} {remaining : Nat} {tally : Tally} {s : Search π} {w w' : σ}
  {proposer : π} {parameters : ParameterSet} {evaluation : Evaluation} {stop : Stop}

/-! The iterations and their course, by what the next iteration does. -/

theorem iterate_spent :
    iterate task 0 tally s w = (s.complete task.verbose task.strategy tally, w) ∧
      courseFrom task 0 tally s w = ⟨[], none⟩ := by
  constructor
  · unfold iterate
    rfl
  · unfold courseFrom
    rfl

theorem iterate_unproposed
    (proposed : task.proposer.propose task.space s.history s.proposer = (.error stop, proposer)) :
    iterate task (remaining + 1) tally s w =
        ((.error stop, { s with proposer := proposer }.halt stop), w) ∧
      courseFrom task (remaining + 1) tally s w = ⟨[], some (.unproposed stop)⟩ := by
  constructor
  · unfold iterate
    simp only [proposed]
    rfl
  · unfold courseFrom
    simp only [proposed]

theorem iterate_unscored
    (proposed : task.proposer.propose task.space s.history s.proposer = (.ok parameters, proposer))
    (evaluated : Evaluation.run task.service (task.experiment parameters)
      (task.schedule s.history.length) task.turns w = (.error stop, w')) :
    iterate task (remaining + 1) tally s w =
        ((.error stop, (s.evaluating proposer parameters).halt stop), w') ∧
      courseFrom task (remaining + 1) tally s w =
        ⟨[], some (.unscored parameters (Evaluation.log task.service (task.experiment parameters)
          (task.schedule s.history.length) task.turns w) stop)⟩ := by
  constructor
  · unfold iterate
    simp only [Task.experiment] at evaluated
    simp only [proposed, bind, StateT.bind, evaluated]
    rfl
  · unfold courseFrom
    simp only [proposed, evaluated]

theorem iterate_unwritten
    (proposed : task.proposer.propose task.space s.history s.proposer = (.ok parameters, proposer))
    (evaluated : Evaluation.run task.service (task.experiment parameters)
      (task.schedule s.history.length) task.turns w = (.ok evaluation, w'))
    (unwritten : evaluation.objective.inform task.verbose = .error stop) :
    iterate task (remaining + 1) tally s w =
        ((.error stop, (s.evaluating proposer parameters).tell task.proposer parameters
          evaluation.objective.toFloat), w') ∧
      courseFrom task (remaining + 1) tally s w =
        ⟨[], some (.unwritten ⟨parameters, evaluation, Evaluation.log task.service
          (task.experiment parameters) (task.schedule s.history.length) task.turns w⟩)⟩ := by
  constructor
  · unfold iterate
    simp only [Task.experiment] at evaluated
    simp only [proposed, bind, StateT.bind, evaluated, Decimal.toFloat?_eq, unwritten]
    rfl
  · unfold courseFrom
    simp only [proposed, evaluated, unwritten]

theorem iterate_scored
    (proposed : task.proposer.propose task.space s.history s.proposer = (.ok parameters, proposer))
    (evaluated : Evaluation.run task.service (task.experiment parameters)
      (task.schedule s.history.length) task.turns w = (.ok evaluation, w'))
    (written : evaluation.objective.inform task.verbose = .ok ()) :
    let tally' := tally.add parameters evaluation
    let s' := (s.evaluating proposer parameters).score task.proposer task.budget tally' parameters
      evaluation
    iterate task (remaining + 1) tally s w = iterate task remaining tally' s' w' ∧
      courseFrom task (remaining + 1) tally s w =
        (courseFrom task remaining tally' s' w').cons ⟨parameters, evaluation,
          Evaluation.log task.service (task.experiment parameters)
            (task.schedule s.history.length) task.turns w⟩ := by
  constructor
  · conv => lhs; unfold iterate
    simp only [Task.experiment] at evaluated
    simp only [proposed, bind, StateT.bind, evaluated, Decimal.toFloat?_eq, written]
    rfl
  · conv => lhs; unfold courseFrom
    simp only [proposed, evaluated, written]

/-- The iterations that remain, with their course and what they return: the graph of both. -/
inductive Runs (task : Task (StateM σ) π) : Nat → Tally → Search π → σ → Course →
    (Answer SearchOutcome × Search π) × σ → Prop where
  | spent (tally : Tally) (s : Search π) (w : σ) :
      Runs task 0 tally s w ⟨[], none⟩ (s.complete task.verbose task.strategy tally, w)
  | unproposed {remaining : Nat} {tally : Tally} {s : Search π} {w : σ} {stop : Stop}
      {proposer : π} :
      task.proposer.propose task.space s.history s.proposer = (.error stop, proposer) →
      Runs task (remaining + 1) tally s w ⟨[], some (.unproposed stop)⟩
        ((.error stop, { s with proposer := proposer }.halt stop), w)
  | unscored {remaining : Nat} {tally : Tally} {s : Search π} {w w' : σ} {stop : Stop}
      {proposer : π} {parameters : ParameterSet} :
      task.proposer.propose task.space s.history s.proposer = (.ok parameters, proposer) →
      Evaluation.run task.service (task.experiment parameters) (task.schedule s.history.length)
        task.turns w = (.error stop, w') →
      Runs task (remaining + 1) tally s w
        ⟨[], some (.unscored parameters (Evaluation.log task.service (task.experiment parameters)
          (task.schedule s.history.length) task.turns w) stop)⟩
        ((.error stop, (s.evaluating proposer parameters).halt stop), w')
  | unwritten {remaining : Nat} {tally : Tally} {s : Search π} {w w' : σ} {stop : Stop}
      {proposer : π} {parameters : ParameterSet} {evaluation : Evaluation} :
      task.proposer.propose task.space s.history s.proposer = (.ok parameters, proposer) →
      Evaluation.run task.service (task.experiment parameters) (task.schedule s.history.length)
        task.turns w = (.ok evaluation, w') →
      evaluation.objective.inform task.verbose = .error stop →
      Runs task (remaining + 1) tally s w
        ⟨[], some (.unwritten ⟨parameters, evaluation, Evaluation.log task.service
          (task.experiment parameters) (task.schedule s.history.length) task.turns w⟩)⟩
        ((.error stop, (s.evaluating proposer parameters).tell task.proposer parameters
          evaluation.objective.toFloat), w')
  | scored {remaining : Nat} {tally : Tally} {s : Search π} {w w' : σ} {proposer : π}
      {parameters : ParameterSet} {evaluation : Evaluation} {later : Course}
      {after : (Answer SearchOutcome × Search π) × σ} :
      task.proposer.propose task.space s.history s.proposer = (.ok parameters, proposer) →
      Evaluation.run task.service (task.experiment parameters) (task.schedule s.history.length)
        task.turns w = (.ok evaluation, w') →
      evaluation.objective.inform task.verbose = .ok () →
      Runs task remaining (tally.add parameters evaluation)
        ((s.evaluating proposer parameters).score task.proposer task.budget
          (tally.add parameters evaluation) parameters evaluation) w' later after →
      Runs task (remaining + 1) tally s w
        (later.cons ⟨parameters, evaluation, Evaluation.log task.service
          (task.experiment parameters) (task.schedule s.history.length) task.turns w⟩) after

theorem runs_iterate (task : Task (StateM σ) π) (remaining : Nat) (tally : Tally) (s : Search π)
    (w : σ) :
    Runs task remaining tally s w (courseFrom task remaining tally s w)
      (iterate task remaining tally s w) := by
  induction remaining generalizing tally s w with
  | zero =>
    rw [iterate_spent.1, iterate_spent.2]
    exact .spent tally s w
  | succ remaining ih =>
    cases proposed : task.proposer.propose task.space s.history s.proposer with
    | mk answer proposer =>
      cases answer with
      | error stop =>
        rw [(iterate_unproposed proposed).1, (iterate_unproposed proposed).2]
        exact .unproposed proposed
      | ok parameters =>
        cases evaluated : Evaluation.run task.service (task.experiment parameters)
            (task.schedule s.history.length) task.turns w with
        | mk answer w' =>
          cases answer with
          | error stop =>
            rw [(iterate_unscored proposed evaluated).1, (iterate_unscored proposed evaluated).2]
            exact .unscored proposed evaluated
          | ok evaluation =>
            cases written : evaluation.objective.inform task.verbose with
            | error stop =>
              rw [(iterate_unwritten proposed evaluated written).1,
                (iterate_unwritten proposed evaluated written).2]
              exact .unwritten proposed evaluated written
            | ok done =>
              rw [(iterate_scored proposed evaluated written).1,
                (iterate_scored proposed evaluated written).2]
              exact .scored proposed evaluated written (ih _ _ _)

theorem runs_run (task : Task (StateM σ) π) (some' : task.budget ≠ 0) (s : Search π) (w : σ) :
    Runs task task.budget .zero (s.clear task.budget) w (Search.course task s w) (run task s w) := by
  rw [run, Search.course, if_neg some', if_neg some']
  apply runs_iterate

def withRecord (told : List ProposerCall) (s : Search π) : Search (π × List ProposerCall) :=
  ⟨(s.proposer, told), s.stage, s.status, s.history⟩

theorem halt_withRecord (told : List ProposerCall) (s : Search π) (stop : Stop) :
    (s.withRecord told).halt stop = (s.halt stop).withRecord told := by
  cases stop <;> rfl

theorem complete_snd (verbose : Bool) (strategy : Strategy) (tally : Tally) (s : Search π) :
    (s.complete verbose strategy tally).2 = { s with status := s.status.enter "Completed" } := by
  unfold complete
  cases tally.best with
  | none => rfl
  | some best =>
    dsimp only
    cases best.2.inform verbose <;> rfl

theorem complete_withRecord (told : List ProposerCall) (s : Search π) (verbose : Bool)
    (strategy : Strategy) (tally : Tally) :
    (s.withRecord told).complete verbose strategy tally =
      ((s.complete verbose strategy tally).1,
        (s.complete verbose strategy tally).2.withRecord told) := by
  unfold complete
  cases tally.best with
  | none => rfl
  | some best =>
    dsimp only
    cases best.2.inform verbose <;> rfl

theorem propose_recorded (told : List ProposerCall) {answer : Answer ParameterSet}
    (proposed : task.proposer.propose task.space s.history s.proposer = (answer, proposer)) :
    task.recorded.proposer.propose task.recorded.space (s.withRecord told).history
        (s.withRecord told).proposer =
      (answer, (proposer, told ++ [.propose task.space s.history answer])) := by
  simp only [Task.recorded, Proposer.recorded, withRecord, proposed]

theorem Runs.recorded {remaining : Nat} {tally : Tally} {s : Search π} {w : σ} {course : Course}
    {after : (Answer SearchOutcome × Search π) × σ}
    (runs : Runs task remaining tally s w course after) (told : List ProposerCall)
    (earlier : List Event) :
    iterate task.recorded remaining tally (s.withRecord told) (w, earlier) =
      ((after.1.1, after.1.2.withRecord
          (told ++ Course.dialogueFrom task.space s.history course.scored course.broken)),
        (after.2, earlier ++ course.events)) := by
  induction runs generalizing told earlier with
  | spent tally s w =>
    rw [iterate_spent.1, complete_withRecord, Course.dialogueFrom,
      Course.lastWords, List.append_nil, Course.events_none, List.append_nil]
    rfl
  | @unproposed remaining tally s w stop proposer proposed =>
    have halted := halt_withRecord
      (told ++ [ProposerCall.propose task.space s.history (.error stop)])
      { s with proposer := proposer } stop
    rw [(iterate_unproposed (propose_recorded told proposed)).1, Course.events_unproposed,
      List.append_nil]
    exact congrArg (fun after => ((_, after), _)) halted
  | @unscored remaining tally s w w' stop proposer parameters proposed evaluated =>
    have halted := halt_withRecord
      (told ++ [ProposerCall.propose task.space s.history (.ok parameters)])
      (s.evaluating proposer parameters) stop
    have evaluated' := Evaluation.run_recorded task.service (task.experiment parameters)
      (task.schedule s.history.length) task.turns w earlier
    rw [evaluated] at evaluated'
    rw [(iterate_unscored (propose_recorded told proposed) evaluated').1, Course.events_unscored]
    exact congrArg (fun after => ((_, after), _)) halted
  | @unwritten remaining tally s w w' stop proposer parameters evaluation proposed evaluated
      unwritten =>
    have evaluated' := Evaluation.run_recorded task.service (task.experiment parameters)
      (task.schedule s.history.length) task.turns w earlier
    rw [evaluated] at evaluated'
    have records := List.append_cons told
      (ProposerCall.propose task.space s.history (.ok parameters))
      [.update parameters evaluation.objective.toFloat]
    rw [(iterate_unwritten (propose_recorded told proposed) evaluated' unwritten).1,
      Course.events_unwritten, Course.dialogueFrom, Course.lastWords, records]
    rfl
  | @scored remaining tally s w w' proposer parameters evaluation later after proposed evaluated
      written _ ih =>
    have evaluated' := Evaluation.run_recorded task.service (task.experiment parameters)
      (task.schedule s.history.length) task.turns w earlier
    rw [evaluated] at evaluated'
    rw [(iterate_scored (propose_recorded told proposed) evaluated' written).1, Course.events_cons,
      ← List.append_assoc]
    -- What the first round adds to the records comes before what the rest adds.
    refine (ih _ _).trans ?_
    simp only [List.append_assoc, List.singleton_append]
    rfl

/-- With records a search goes the same way, and they hold its course. -/
theorem run_recorded (task : Task (StateM σ) π) (s : Search π) (w : σ) (told : List ProposerCall)
    (earlier : List Event) :
    let c := course task s w
    let after := run task s w
    run task.recorded (s.withRecord told) (w, earlier) =
      ((after.1.1, after.1.2.withRecord (told ++ c.dialogue task.space)),
        (after.2, earlier ++ c.events)) := by
  by_cases none : task.budget = 0
  · have none' : task.recorded.budget = 0 := none
    simp only [run, course, if_pos none, if_pos none', Course.dialogue, Course.dialogueFrom,
      Course.lastWords, Course.events_none, List.append_nil]
    rfl
  · have some' : ¬ task.recorded.budget = 0 := none
    simp only [run, course, if_neg none, if_neg some']
    exact (runs_iterate task task.budget .zero (s.clear task.budget) w).recorded told earlier

end Search
end StrategySearch
