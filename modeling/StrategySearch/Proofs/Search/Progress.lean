import StrategySearch.Proofs.Decimal.Order
import StrategySearch.Proofs.Search.Course

/-! What a search knows between two iterations.

History, best candidate, failed folds, stage and status are kept apart from each other, and all of
them tell of the candidates that were scored so far. Each scored candidate keeps this up, so that it
holds where a run breaks off and where it completes.
-/

set_option autoImplicit false

namespace StrategySearch

variable {σ π : Type}

/-- The first of the highest objectives: those before it are lower and none after it is higher. -/
inductive FirstBest : List Scored → Option (ParameterSet × Decimal) → Prop where
  | empty : FirstBest [] none
  | split {before after : List Scored} {best : Scored} :
      (∀ b ∈ before, b.evaluation.objective < best.evaluation.objective) →
      (∀ a ∈ after, a.evaluation.objective ≤ best.evaluation.objective) →
      FirstBest (before ++ best :: after) (some (best.parameters, best.evaluation.objective))

namespace FirstBest

variable {scored : List Scored} {tally : Tally}

theorem add (first : FirstBest scored tally.best) (round : Scored) :
    FirstBest (scored ++ [round]) (tally.add round.parameters round.evaluation).best := by
  obtain ⟨best, failedFolds⟩ := tally
  cases first with
  | empty => exact @FirstBest.split [] [] round nofun nofun
  | @split before after best lower notHigher =>
    simp only [Tally.add]
    split
    · next higher =>
      -- Higher than the best is higher than all before.
      refine @FirstBest.split _ [] round (fun b member => ?_) nofun
      rcases List.mem_append.mp member with member | member
      · exact (lower b member).trans higher
      · rcases List.mem_cons.mp member with rfl | member
        · exact higher
        · exact (notHigher b member).trans_lt higher
    · next notHigher' =>
      -- The best stays, ties included, and one more comes after it.
      rw [List.append_assoc, List.cons_append]
      refine .split lower fun a member => ?_
      rcases List.mem_append.mp member with member | member
      · exact notHigher a member
      · rw [List.mem_singleton.mp member]
        exact Decimal.not_lt_iff.mp notHigher'

theorem le {best : ParameterSet × Decimal} (first : FirstBest scored (some best))
    {round : Scored} (member : round ∈ scored) : round.evaluation.objective ≤ best.2 := by
  cases first with
  | split lower notHigher =>
    rcases List.mem_append.mp member with member | member
    · exact (lower round member).le
    · rcases List.mem_cons.mp member with rfl | member
      · exact le_rfl
      · exact notHigher round member

theorem eq_nil (first : FirstBest scored none) : scored = [] := by
  cases first
  rfl

theorem ne_nil {best : ParameterSet × Decimal} (first : FirstBest scored (some best)) :
    scored ≠ [] := by
  cases first with
  | split lower notHigher => exact List.append_ne_nil_of_right_ne_nil _ (List.cons_ne_nil _ _)

end FirstBest

namespace Search

structure Tells {m : Type → Type} (task : Task m π) (scored : List Scored) (tally : Tally)
    (s : Search π) : Prop where
  history : s.history = scored.map Scored.trial
  best : FirstBest scored tally.best
  failed : tally.failedFolds = (scored.map (·.evaluation.failedFolds)).sum
  stage : ∀ last, scored.getLast? = some last →
    s.stage = .scored last.parameters last.evaluation.objective
  status : s.status.budget = task.budget ∧ s.status.completed = scored.length ∧
    s.status.failedFolds = tally.failedFolds ∧ s.status.best = tally.bestFloat
  /-- It was written when it was scored. -/
  written : ∀ best, tally.best = some best → best.2.inform task.verbose = .ok ()

variable {task : Task (StateM σ) π} {remaining : Nat} {scored : List Scored} {tally : Tally}
  {s : Search π} {w : σ} {course : Course} {after : (Answer SearchOutcome × Search π) × σ}

theorem tells_clear (task : Task (StateM σ) π) (s : Search π) :
    Tells task [] .zero (s.clear task.budget) :=
  ⟨rfl, .empty, rfl, nofun, ⟨rfl, rfl, rfl, rfl⟩, nofun⟩

theorem written_add {verbose : Bool} {parameters : ParameterSet} {evaluation : Evaluation}
    (before : ∀ best, tally.best = some best → best.2.inform verbose = .ok ())
    (written : evaluation.objective.inform verbose = .ok ()) :
    ∀ best, (tally.add parameters evaluation).best = some best → best.2.inform verbose = .ok () := by
  intro best is
  simp only [Tally.add] at is
  split at is
  · obtain rfl := Option.some.inj is
    exact written
  · next earlier found =>
    split at is
    · obtain rfl := Option.some.inj is
      exact written
    · obtain rfl := Option.some.inj is
      exact before _ found

theorem Tells.score (tells : Tells task scored tally s) (proposer : π) (round : Scored)
    (written : round.evaluation.objective.inform task.verbose = .ok ()) :
    let tally' := tally.add round.parameters round.evaluation
    Tells task (scored ++ [round]) tally'
      ((s.evaluating proposer round.parameters).score task.proposer task.budget tally'
        round.parameters round.evaluation) := by
  refine ⟨?_, tells.best.add round, ?_, fun last isLast => ?_, ⟨rfl, ?_, rfl, rfl⟩,
    written_add tells.written written⟩
  · simp [Search.score, tell, exhibit, evaluating, tells.history, Scored.trial]
  · simp [Tally.add, tells.failed]
  · simp only [List.getLast?_append, List.getLast?_singleton, Option.some_or,
      Option.some.injEq] at isLast
    subst isLast
    rfl
  · simp [Search.score, tell, exhibit, Status.progress, evaluating, tells.history]

/-- A run is its scored rounds, and then a run that scores nothing. -/
theorem Runs.split (runs : Runs task remaining tally s w course after)
    (tells : Tells task scored tally s) :
    ∃ rest tally' s' w', remaining = course.scored.length + rest ∧
      Tells task (scored ++ course.scored) tally' s' ∧
      Runs task rest tally' s' w' ⟨[], course.broken⟩ after := by
  -- Each scored round carries what is told on to the next iteration.
  induction runs generalizing scored with
  | spent tally s w =>
    exact ⟨0, tally, s, w, rfl, by simpa using tells, .spent tally s w⟩
  | @unproposed remaining tally s w stop proposer proposed =>
    exact ⟨remaining + 1, tally, s, w, by simp, by simpa using tells, .unproposed proposed⟩
  | @unscored remaining tally s w w' stop proposer parameters proposed evaluated =>
    exact ⟨remaining + 1, tally, s, w, by simp, by simpa using tells,
      .unscored proposed evaluated⟩
  | @unwritten remaining tally s w w' stop proposer parameters evaluation proposed evaluated
      unwritten =>
    exact ⟨remaining + 1, tally, s, w, by simp, by simpa using tells,
      .unwritten proposed evaluated unwritten⟩
  | @scored remaining tally s w w' proposer parameters evaluation later after proposed evaluated
      written _ ih =>
    obtain ⟨rest, tally', s', w'', count, tells', runs'⟩ := ih (tells.score proposer
      ⟨parameters, evaluation, Evaluation.log task.service (task.experiment parameters)
        (task.schedule s.history.length) task.turns w⟩ written)
    refine ⟨rest, tally', s', w'', ?_, ?_, runs'⟩
    · simp only [Course.cons, List.length_cons]
      omega
    · simpa [Course.cons] using tells'

end Search
end StrategySearch
