import Mathlib
import StrategySearch.Proofs.Backtest.Agreement
import StrategySearch.Proofs.Search.Progress

/-! What a search that completes has done and returns. -/

set_option autoImplicit false

namespace StrategySearch

variable {σ π : Type}

namespace Course

theorem dialogueFrom_unbroken (space : SearchSpace) (seen : List Trial) (scored : List Scored) :
    dialogueFrom space seen scored none = scored.zipIdx.flatMap fun (round, i) =>
      [.propose space (seen ++ (scored.map Scored.trial).take i) (.ok round.parameters),
        .update round.parameters round.evaluation.objective.toFloat] := by
  induction scored generalizing seen with
  | nil => rfl
  | cons first rest ih =>
    rw [dialogueFrom, ih, List.zipIdx_cons, List.flatMap_cons, List.zipIdx_succ, List.flatMap_map]
    simp [List.append_assoc]

end Course

namespace Search

variable {task : Task (StateM σ) π} {remaining : Nat} {tally : Tally} {s s' : Search π} {w w' : σ}
  {course : Course} {outcome : SearchOutcome} {after : (Answer SearchOutcome × Search π) × σ}

theorem Runs.reports (runs : Runs task remaining tally s w course after) :
    ∀ round ∈ course.scored,
      Evaluation.Reports (task.experiment round.parameters) round.log round.evaluation := by
  induction runs with
  | spent tally s w => nofun
  | unproposed proposed => nofun
  | unscored proposed evaluated => nofun
  | unwritten proposed evaluated unwritten => nofun
  | scored proposed evaluated written _ ih =>
    intro round member
    rcases List.mem_cons.mp member with rfl | member
    · exact .of_run (congrArg Prod.fst evaluated)
    · exact ih round member

theorem complete_eq_ok {verbose : Bool} {strategy : Strategy}
    (completed : s.complete verbose strategy tally = (.ok outcome, s')) :
    tally.best = some (outcome.bestParameters, outcome.bestObjective) ∧
      outcome = ⟨strategy, outcome.bestParameters, outcome.bestObjective, tally.failedFolds,
        s.history⟩ ∧
      s' = { s with status := s.status.enter "Completed" } := by
  unfold complete at completed
  cases best : tally.best with
  | none => simp [best, Answer.refuse] at completed
  | some found =>
    cases written : found.2.inform verbose with
    | error stop => simp [best, written] at completed
    | ok done =>
      simp only [best, written, Prod.mk.injEq, Except.ok.injEq] at completed
      obtain ⟨rfl, rfl⟩ := completed
      exact ⟨rfl, rfl, rfl⟩

theorem Runs.of_ok {broken : Option Break}
    (runs : Runs task remaining tally s w ⟨[], broken⟩ ((.ok outcome, s'), w')) :
    remaining = 0 ∧ broken = none ∧ s.complete task.verbose task.strategy tally = (.ok outcome, s') := by
  generalize ended : ((Except.ok outcome, s'), w') = after at runs
  generalize nothing : Course.mk [] broken = course at runs
  cases runs with
  | spent =>
    cases nothing
    exact ⟨rfl, rfl, (congrArg Prod.fst ended).symm⟩
  | unproposed proposed => cases ended
  | unscored proposed evaluated => cases ended
  | unwritten proposed evaluated unwritten => cases ended
  | scored proposed evaluated written later => cases nothing

/-- What holds when a search returns an outcome for the candidates that it scored. -/
structure Completes {m : Type → Type} (task : Task m π) (scored : List Scored)
    (outcome : SearchOutcome) (s : Search π) : Prop where
  count : scored.length = task.budget
  reports : ∀ round ∈ scored,
    Evaluation.Reports (task.experiment round.parameters) round.log round.evaluation
  strategy : outcome.strategy = task.strategy
  history : outcome.history = scored.map Scored.trial
  highest : ∀ round ∈ scored, round.evaluation.objective ≤ outcome.bestObjective
  best : FirstBest scored (some (outcome.bestParameters, outcome.bestObjective))
  failedFolds : outcome.failedFolds = (scored.map (·.evaluation.failedFolds)).sum
  stage : ∃ last, scored.getLast? = some last ∧
    s.stage = .scored last.parameters last.evaluation.objective
  kept : s.history = outcome.history
  status : s.status.phase = "Completed" ∧ s.status.budget = task.budget ∧
    s.status.completed = task.budget ∧ s.status.failedFolds = outcome.failedFolds ∧
    s.status.best = some outcome.bestObjective.toFloat

theorem completes_of_tells {scored : List Scored} {verbose : Bool} (tells : Tells task scored tally s)
    (count : scored.length = task.budget)
    (reports : ∀ round ∈ scored,
      Evaluation.Reports (task.experiment round.parameters) round.log round.evaluation)
    (completed : s.complete verbose task.strategy tally = (.ok outcome, s')) :
    Completes task scored outcome s' := by
  obtain ⟨best, whole, rfl⟩ := complete_eq_ok completed
  obtain ⟨history, first, failed, stage, ⟨budget, done, failedFolds, bestFloat⟩, -⟩ := tells
  rw [best] at first
  have same : outcome.failedFolds = tally.failedFolds := congrArg SearchOutcome.failedFolds whole
  have kept : outcome.history = s.history := congrArg SearchOutcome.history whole
  refine ⟨count, reports, congrArg SearchOutcome.strategy whole, kept.trans history,
    fun round => first.le, first, same.trans failed, ?_, kept.symm, rfl, budget,
    done.trans count, failedFolds.trans same.symm, ?_⟩
  · have last := List.getLast?_eq_some_getLast first.ne_nil
    exact ⟨_, last, stage _ last⟩
  · exact bestFloat.trans (by rw [Tally.bestFloat, best, Option.bind_some, Decimal.toFloat?_eq])

theorem course_of_ok (ran : run task s w = ((.ok outcome, s'), w')) :
    ∃ scored, Search.course task s w = ⟨scored, none⟩ ∧ Completes task scored outcome s' := by
  by_cases none : task.budget = 0
  · simp only [run, if_pos none] at ran
    cases ran
  · have runs := runs_iterate task task.budget .zero (s.clear task.budget) w
    simp only [run, if_neg none] at ran
    rw [ran] at runs
    -- Behind the scored rounds nothing remains, or the answer would be a failure.
    obtain ⟨rest, tally', s₁, w₁, count, tells, ends⟩ := runs.split (tells_clear task s)
    obtain ⟨rfl, unbroken, completed⟩ := ends.of_ok
    refine ⟨_, ?_, completes_of_tells tells count.symm runs.reports completed⟩
    rw [Search.course, if_neg none, ← unbroken]
    rfl

/-- A search that returns an outcome has scored as many candidates as its budget says, each proposal
in sight of exactly the trials before it and each score told to the proposer at once; and what it
returns and what it knows afterwards are about all of them. -/
theorem run_completes (ran : run task s w = ((.ok outcome, s'), w')) :
    ∃ scored, Search.course task s w = ⟨scored, none⟩ ∧ Completes task scored outcome s' ∧
      run task.recorded (s.withRecord []) (w, []) =
        ((.ok outcome, s'.withRecord (scored.zipIdx.flatMap fun (round, i) =>
            [.propose task.space (outcome.history.take i) (.ok round.parameters),
              .update round.parameters round.evaluation.objective.toFloat])),
          (w', scored.flatMap fun round => round.log.map (·.event))) := by
  obtain ⟨scored, whole, completes⟩ := course_of_ok ran
  have recorded := run_recorded task s w [] []
  simp only [ran, whole, Course.dialogue, Course.dialogueFrom_unbroken, List.nil_append] at recorded
  refine ⟨scored, whole, completes, ?_⟩
  rw [completes.history]
  exact recorded.trans (by simp [Course.events, Course.rounds, List.flatMap_map])

section Twice

def counting : Proposer Nat where
  propose _ _ n := (.ok ⟨[("n", .integer n)], List.pairwise_singleton _ _⟩, n + 1)
  update _ _ n := n

def luckLater : BacktestService (StateM Nat) :=
  { Evaluation.polledThrice with
    poll := fun _ polls => (.ok (if polls = 0 then .failed else .finished), polls + 1) }

def loss : Decimal := Decimal.one.neg

def twice : Task (StateM Nat) Nat where
  proposer := counting
  service := luckLater
  plan := { Evaluation.pair.plan with foldCount := 1, penalty := loss }
  strategy := .basic
  space := ⟨⟨[("n", .integer 0 9)], List.pairwise_singleton _ _⟩, rfl⟩
  budget := 2
  schedule _ := id
  turns := 7
  verbose := true

def candidate (n : Int) : ParameterSet := ⟨[("n", .integer n)], List.pairwise_singleton _ _⟩

def halfway : Search Nat :=
  ⟨1, .scored (candidate 0) loss, ⟨"Searching", 2, 1, 1, some loss.toFloat, none⟩,
    [⟨candidate 0, loss.toFloat⟩]⟩

def secondBest : SearchOutcome :=
  ⟨.basic, candidate 1, .zero, 1,
    [⟨candidate 0, loss.toFloat⟩, ⟨candidate 1, Decimal.zero.toFloat⟩]⟩

def finished : Search Nat :=
  ⟨2, .scored (candidate 1) .zero, ⟨"Completed", 2, 2, 1, some Decimal.zero.toFloat, none⟩,
    secondBest.history⟩

/-- The first candidate scores the penalty and the second replaces it. -/
theorem run_completes_twice : run twice (start 0) 0 = ((.ok secondBest, finished), 2) ∧
    ∃ scored, Search.course twice (start 0) 0 = ⟨scored, none⟩ ∧
      Completes twice scored secondBest finished := by
  have first : Evaluation.run twice.service (twice.experiment (candidate 0))
      (twice.schedule ((start 0).clear 2).history.length) twice.turns 0 =
        (.ok ⟨loss, [⟨0, none⟩]⟩, 1) := by
    cbv
  have second : Evaluation.run twice.service (twice.experiment (candidate 1))
      (twice.schedule halfway.history.length) twice.turns 1 =
        (.ok ⟨.zero, [⟨0, some .zero⟩]⟩, 2) := by
    show Evaluation.run twice.service (twice.experiment (candidate 1)) id 7 1 = _
    cbv
  have ran : run twice (start 0) 0 = ((.ok secondBest, finished), 2) := by
    calc run twice (start 0) 0
      _ = iterate twice 2 .zero ((start 0).clear 2) 0 := rfl
      _ = iterate twice 1 ⟨some (candidate 0, loss), 1⟩ halfway 1 :=
        (iterate_scored (by rfl) first (by decide)).1
      _ = iterate twice 0 ⟨some (candidate 1, .zero), 1⟩
          { finished with status := finished.status.enter "Searching" } 2 :=
        (iterate_scored (by rfl) second (by decide)).1
      _ = ((.ok secondBest, finished), 2) := iterate_spent.1
  obtain ⟨scored, course, completes, -⟩ := run_completes ran
  exact ⟨ran, scored, course, completes⟩

end Twice

end Search
end StrategySearch
