import StrategySearch.Proofs.Search.Abort
import StrategySearch.Proofs.Search.Protocol

/-! What the budget of a search decides: when to stop, and nothing else.

Two runs that differ in their budgets alone pass through the same states, up to the budget that an
observer is told. So the run with the larger budget breaks off where the other one does, and goes on
where the other one is complete.
-/

set_option autoImplicit false

namespace StrategySearch

variable {σ π : Type}

namespace Course

def trials (course : Course) : List Trial :=
  course.scored.map Scored.trial ++
    match course.broken with
    | some (.unwritten round) => [round.trial]
    | _ => []

/-- How a course relates to that of the same search with a larger budget. -/
inductive Extends : Course → Course → Prop where
  | broken (scored : List Scored) (last : Break) : Extends ⟨scored, some last⟩ ⟨scored, some last⟩
  | complete (scored : List Scored) (later : Course) :
      Extends ⟨scored, none⟩ ⟨scored ++ later.scored, later.broken⟩

namespace Extends

variable {short long : Course} {n : Nat}

theorem cons (same : Extends short long) (first : Scored) :
    Extends (short.cons first) (long.cons first) := by
  cases same with
  | broken scored last => exact .broken (first :: scored) last
  | complete scored later => exact .complete (first :: scored) later

theorem eq_of_broken (same : Extends short long) (broken : short.broken ≠ none) : long = short := by
  cases same with
  | broken scored last => rfl
  | complete scored later => exact absurd rfl broken

theorem scored_prefix (same : Extends short long) : short.scored <+: long.scored := by
  cases same with
  | broken scored last => exact List.prefix_rfl
  | complete scored later => apply List.prefix_append

theorem scored_take (same : Extends short long) (few : short.scored.length ≤ n)
    (full : short.broken = none → short.scored.length = n) :
    short.scored = long.scored.take n := by
  cases same with
  | broken scored last => exact (List.take_of_length_le few).symm
  | complete scored later => simp [← full rfl]

theorem rounds_take (same : Extends short long) (few : short.rounds.length ≤ n)
    (full : short.broken = none → short.scored.length = n) :
    short.rounds = long.rounds.take n := by
  cases same with
  | broken scored last => exact (List.take_of_length_le few).symm
  | complete scored later => simp [rounds, ← full rfl]

theorem rounds_prefix (same : Extends short long) : short.rounds <+: long.rounds := by
  cases same with
  | broken scored last => exact List.prefix_rfl
  | complete scored later => simp [rounds]

theorem events_prefix (same : Extends short long) : short.events <+: long.events := by
  obtain ⟨rest, whole⟩ := same.rounds_prefix
  rw [events, events, ← whole, List.flatMap_append]
  apply List.prefix_append

theorem trials_take (same : Extends short long) (few : short.trials.length ≤ n)
    (full : short.broken = none → short.scored.length = n) :
    short.trials = long.trials.take n := by
  cases same with
  | broken scored last => exact (List.take_of_length_le few).symm
  | complete scored later => simp [trials, ← full rfl]

theorem dialogue_prefix (same : Extends short long) (space : SearchSpace) :
    short.dialogue space <+: long.dialogue space := by
  cases same with
  | broken scored last => exact List.prefix_rfl
  | complete scored later =>
    rw [dialogue, dialogue, dialogueFrom_append]
    apply List.prefix_append

end Extends

end Course

theorem FirstBest.append {scored more : List Scored} {best best' : ParameterSet × Decimal}
    (first : FirstBest scored (some best)) (second : FirstBest (scored ++ more) (some best')) :
    best.2 ≤ best'.2 ∧ (best'.2 ≤ best.2 → best' = best) := by
  cases first with
  | @split before after round lower notHigher =>
    have le : round.evaluation.objective ≤ best'.2 := second.le (by simp)
    refine ⟨le, ?_⟩
    intro notBetter
    generalize whole : before ++ round :: after ++ more = all at second
    cases second with
    | @split before' after' round' lower' notHigher' =>
      rw [List.append_assoc, List.cons_append] at whole
      -- Either maximum is above whatever stands before it, so none stands before the other.
      rcases List.append_eq_append_iff.mp whole with ⟨gap, same, rest⟩ | ⟨gap, same, rest⟩
      · cases gap with
        | nil => rw [(List.cons.inj rest).1]
        | cons other gap =>
          have higher := lower' round (by simp [same, (List.cons.inj rest).1])
          exact absurd notBetter higher.not_ge
      · cases gap with
        | nil => rw [(List.cons.inj rest).1]
        | cons other gap =>
          have higher := lower round' (by simp [same, (List.cons.inj rest).1])
          exact absurd le higher.not_ge

namespace Search

def Task.withBudget {m : Type → Type} (task : Task m π) (budget : Nat) : Task m π :=
  { task with budget := budget }

def retold (budget : Nat) (s : Search π) : Search π :=
  { s with status := { s.status with budget := budget } }

theorem retold_halt (budget : Nat) (s : Search π) (stop : Stop) :
    (s.halt stop).retold budget = (s.retold budget).halt stop := by
  cases stop <;> rfl

theorem history_halt (s : Search π) (stop : Stop) : (s.halt stop).history = s.history := by
  cases stop <;> rfl

variable {task : Task (StateM σ) π} {remaining n : Nat} {tally : Tally} {s : Search π} {w : σ}
  {course : Course} {after : (Answer SearchOutcome × Search π) × σ}

/-- Whatever else remains, the iterations of the smaller budget go the same way. -/
theorem Runs.extends (runs : Runs (task.withBudget n) remaining tally s w course after)
    (m more : Nat) :
    course.Extends (courseFrom (task.withBudget m) (remaining + more) tally (s.retold m) w) ∧
      (course.broken ≠ none → iterate (task.withBudget m) (remaining + more) tally (s.retold m) w =
        ((after.1.1, after.1.2.retold m), after.2)) := by
  induction runs with
  | spent tally s w =>
    refine ⟨.complete [] _, ?_⟩
    intro broken
    exact absurd rfl broken
  | @unproposed remaining tally s w stop proposer proposed =>
    -- The step reads nothing of the budget, so the larger one makes it too.
    have again := @iterate_unproposed _ _ (task.withBudget m) (remaining + more) tally
      (s.retold m) w proposer stop proposed
    rw [Nat.succ_add, again.1, again.2, retold_halt]
    exact ⟨.broken [] _, fun _ => rfl⟩
  | @unscored remaining tally s w w' stop proposer parameters proposed evaluated =>
    have again := @iterate_unscored _ _ (task.withBudget m) (remaining + more) tally
      (s.retold m) w w' proposer parameters stop proposed evaluated
    rw [Nat.succ_add, again.1, again.2, retold_halt]
    exact ⟨.broken [] _, fun _ => rfl⟩
  | @unwritten remaining tally s w w' stop proposer parameters evaluation proposed evaluated
      unwritten =>
    have again := @iterate_unwritten _ _ (task.withBudget m) (remaining + more) tally
      (s.retold m) w w' proposer parameters evaluation stop proposed evaluated unwritten
    rw [Nat.succ_add, again.1, again.2]
    exact ⟨.broken [] _, fun _ => rfl⟩
  | @scored remaining tally s w w' proposer parameters evaluation later after proposed evaluated
      written _ ih =>
    have again := @iterate_scored _ _ (task.withBudget m) (remaining + more) tally
      (s.retold m) w w' proposer parameters evaluation proposed evaluated written
    rw [Nat.succ_add, again.1, again.2]
    exact ⟨ih.1.cons _, ih.2⟩

theorem Runs.length_eq (runs : Runs task remaining tally s w course after)
    (complete : course.broken = none) : course.scored.length = remaining := by
  induction runs with
  | spent tally s w => rfl
  | unproposed proposed => cases complete
  | unscored proposed evaluated => cases complete
  | unwritten proposed evaluated unwritten => cases complete
  | scored proposed evaluated written _ ih => exact congrArg Nat.succ (ih complete)

theorem Runs.scored_length_le (runs : Runs task remaining tally s w course after) :
    course.scored.length ≤ remaining := by
  have le := runs.rounds_length_le
  simp only [Course.rounds, List.length_append, List.length_map] at le
  omega

theorem Runs.trials_length_le (runs : Runs task remaining tally s w course after) :
    course.trials.length ≤ remaining := by
  refine Nat.le_trans ?_ runs.rounds_length_le
  unfold Course.trials Course.rounds
  rcases course.broken with _ | _ | _ | _ <;> simp

theorem Runs.history_eq (runs : Runs task remaining tally s w course after) :
    after.1.2.history = s.history ++ course.trials := by
  induction runs with
  | spent tally s w => simp [complete_snd, Course.trials]
  | unproposed proposed => simp [history_halt, Course.trials]
  | unscored proposed evaluated => simp [history_halt, evaluating, Course.trials]
  | unwritten proposed evaluated unwritten => simp [tell, evaluating, Course.trials, Scored.trial]
  | scored proposed evaluated written _ ih =>
    rw [ih]
    simp [Course.cons, Course.trials, Search.score, tell, exhibit, evaluating, Scored.trial]

theorem Runs.broken_of_error {scored : List Scored} {stop : Stop}
    (runs : Runs task remaining tally s w course after) (tells : Tells task scored tally s)
    (some' : scored ≠ [] ∨ remaining ≠ 0) (failed : after.1.1 = .error stop) :
    course.broken ≠ none := by
  induction runs generalizing scored with
  | spent tally s w =>
    have first := tells.best
    rw [complete_eq_error tells.written failed] at first
    simp [first.eq_nil] at some'
  | unproposed proposed => simp
  | unscored proposed evaluated => simp
  | unwritten proposed evaluated unwritten => simp
  | scored proposed evaluated written _ ih =>
    exact ih (tells.score _ ⟨_, _, []⟩ written) (by simp) failed

def records (task : Task (StateM σ) π) (s : Search π) (w : σ) : List ProposerCall × List Event :=
  let after := run task.recorded (s.withRecord []) (w, [])
  (after.1.2.proposer.2, after.2.2)

theorem records_eq (task : Task (StateM σ) π) (s : Search π) (w : σ) :
    records task s w =
      ((Search.course task s w).dialogue task.space, (Search.course task s w).events) := by
  simp only [records, run_recorded]
  rfl

section Prolonged

variable {n m : Nat}

theorem run_extends (task : Task (StateM σ) π) (s : Search π) (w : σ) (positive : 1 ≤ n)
    (le : n ≤ m) :
    (Search.course (task.withBudget n) s w).Extends (Search.course (task.withBudget m) s w) ∧
      ((Search.course (task.withBudget n) s w).broken ≠ none → run (task.withBudget m) s w =
        (((run (task.withBudget n) s w).1.1, (run (task.withBudget n) s w).1.2.retold m),
          (run (task.withBudget n) s w).2)) := by
  have short := runs_run (task.withBudget n) (Nat.ne_of_gt positive) s w
  have same := short.extends m (m - n)
  have all : (task.withBudget n).budget + (m - n) = m := Nat.add_sub_of_le le
  have some' : (task.withBudget m).budget ≠ 0 := Nat.ne_of_gt (positive.trans le)
  rw [all] at same
  rw [Search.course.eq_def (task.withBudget m), run.eq_def (task.withBudget m), if_neg some',
    if_neg some']
  exact same

structure Prolongs (task : Task (StateM σ) π) (s : Search π) (w : σ) (n m : Nat) : Prop where
  scored : (Search.course (task.withBudget n) s w).scored =
    (Search.course (task.withBudget m) s w).scored.take n
  rounds : (Search.course (task.withBudget n) s w).rounds =
    (Search.course (task.withBudget m) s w).rounds.take n
  told : (records (task.withBudget n) s w).1 <+: (records (task.withBudget m) s w).1
  called : (records (task.withBudget n) s w).2 <+: (records (task.withBudget m) s w).2
  history : (run (task.withBudget n) s w).1.2.history =
    (run (task.withBudget m) s w).1.2.history.take n
  fails : ∀ stop s' w', run (task.withBudget n) s w = ((.error stop, s'), w') →
    run (task.withBudget m) s w = ((.error stop, s'.retold m), w') ∧
      records (task.withBudget m) s w = records (task.withBudget n) s w
  best : ∀ outcome s' w' outcome' s'' w'',
    run (task.withBudget n) s w = ((.ok outcome, s'), w') →
    run (task.withBudget m) s w = ((.ok outcome', s''), w'') →
    outcome.bestObjective ≤ outcome'.bestObjective ∧
      (outcome.bestObjective.value = outcome'.bestObjective.value →
        outcome'.bestParameters = outcome.bestParameters)

/-- A larger budget changes nothing in the iterations of a smaller one. The run breaks off where the
other one does, or goes on from it to a best candidate that is not worse. -/
theorem run_prolongs (task : Task (StateM σ) π) (s : Search π) (w : σ) (positive : 1 ≤ n)
    (le : n ≤ m) : Prolongs task s w n m := by
  have short := runs_run (task.withBudget n) (Nat.ne_of_gt positive) s w
  have long := runs_run (task.withBudget m) (Nat.ne_of_gt (positive.trans le)) s w
  obtain ⟨continued, breaks⟩ := run_extends task s w positive le
  have full := fun complete => short.length_eq complete
  have scored := continued.scored_take short.scored_length_le full
  refine ⟨scored, continued.rounds_take short.rounds_length_le full, ?_, ?_, ?_, ?_, ?_⟩
  · rw [records_eq, records_eq]
    exact continued.dialogue_prefix task.space
  · rw [records_eq, records_eq]
    exact continued.events_prefix
  · rw [short.history_eq, long.history_eq]
    exact continued.trials_take short.trials_length_le full
  · intro stop s' w' failed
    have broken := short.broken_of_error (tells_clear _ s) (.inr (Nat.ne_of_gt positive))
      (congrArg (fun after => after.1.1) failed)
    rw [breaks broken, records_eq, records_eq, continued.eq_of_broken broken, failed]
    exact ⟨rfl, rfl⟩
  · intro outcome s' w' outcome' s'' w'' ran ran'
    -- Both are complete, so the longer run began with the candidates of the shorter one.
    obtain ⟨few, course, completes⟩ := course_of_ok ran
    obtain ⟨many, course', completes'⟩ := course_of_ok ran'
    obtain ⟨more, rfl⟩ : few <+: many := by
      have begins := continued.scored_prefix
      rwa [course, course'] at begins
    obtain ⟨notWorse, same⟩ := completes.best.append completes'.best
    refine ⟨notWorse, ?_⟩
    intro equal
    exact congrArg Prod.fst (same (Decimal.le_iff_value.mpr equal.ge))

end Prolonged

/-- The second candidate is cancelled within two iterations, so three fail in the same way. -/
theorem run_prolongs_cancelled :
    (1 ≤ 2 ∧ 2 ≤ 3) ∧ Prolongs cancelledLater (start 0) 0 2 3 ∧
      ∃ cause s' w',
        run (cancelledLater.withBudget 3) (start 0) 0 = ((.error (.failure cause), s'), w') ∧
          cause.isCancellation ∧ s'.history = [⟨candidate 0, loss.toFloat⟩] := by
  have prolongs := run_prolongs cancelledLater (start 0) 0 (n := 2) (m := 3) (by decide) (by decide)
  have first : Evaluation.run cancelledLater.service (cancelledLater.experiment (candidate 0))
      (cancelledLater.schedule ((start 0).clear 2).history.length) cancelledLater.turns 0 =
        (.ok ⟨loss, [⟨0, none⟩]⟩, 1) := by
    cbv
  have second : Evaluation.run cancelledLater.service (cancelledLater.experiment (candidate 1))
      id 7 1 = (Answer.refuse (.cancelled (JobId.text ⟨0, by decide⟩) 0), 2) := by
    rfl
  have ran : run (cancelledLater.withBudget 2) (start 0) 0 = _ :=
    ((iterate_scored (by rfl) first rfl).1).trans (iterate_unscored (by rfl) second).1
  exact ⟨by decide, prolongs, _, _, _, (prolongs.fails _ _ _ ran).1, rfl, rfl⟩

end Search
end StrategySearch
