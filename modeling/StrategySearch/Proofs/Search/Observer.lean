import StrategySearch.Proofs.Search.Success

/-! What an observer sees of searches that follow each other.

All but the error is about the latest search: its course alone says which phase it came to, what it
scored and how often folds failed. The error is that of the latest search that a failure broke off,
however many were completed since.
-/

set_option autoImplicit false

namespace StrategySearch

variable {σ π : Type}

def Stop.cause? : Stop → Option Failure
  | .failure cause => some cause
  | _ => none

def Break.stop : Break → Stop
  | .unproposed stop => stop
  | .unscored _ _ stop => stop
  | .unwritten _ => .fault

namespace Course

def cause? (course : Course) : Option Failure := course.broken.bind (·.stop.cause?)

/-- Only failures are told; behind any other stop the search seems to go on. -/
def phase (course : Course) : String :=
  match course.broken with
  | none => "Completed"
  | some last => if last.stop.cause?.isSome then "Aborted" else "Searching"

def tallyFrom (tally : Tally) (scored : List Scored) : Tally :=
  scored.foldl (fun tally round => tally.add round.parameters round.evaluation) tally

/-- The status after it, for an observer who was told of this error before. -/
def status (budget : Nat) (earlier : Option String) (course : Course) : Status where
  phase := course.phase
  budget := budget
  completed := course.scored.length
  failedFolds := (tallyFrom .zero course.scored).failedFolds
  best := (tallyFrom .zero course.scored).bestFloat
  lastError := (course.cause?.map Failure.message).or earlier

end Course

namespace Search

variable {task : Task (StateM σ) π} {remaining n : Nat} {tally : Tally} {s : Search π} {w : σ}
  {course : Course} {after : (Answer SearchOutcome × Search π) × σ} {earlier : Option String}

def underway (budget completed : Nat) (tally : Tally) (earlier : Option String) : Status :=
  ⟨"Searching", budget, completed, tally.failedFolds, tally.bestFloat, earlier⟩

theorem status_halt (s : Search π) (stop : Stop) :
    (s.halt stop).status =
      { s.status with
        phase := if stop.cause?.isSome then "Aborted" else s.status.phase
        lastError := (stop.cause?.map Failure.message).or s.status.lastError } := by
  cases stop <;> rfl

theorem Runs.status (runs : Runs task remaining tally s w course after)
    (shown : s.status = underway task.budget n tally earlier) (count : s.history.length = n) :
    after.1.2.status =
      { underway task.budget (n + course.scored.length) (Course.tallyFrom tally course.scored)
          earlier with
        phase := course.phase
        lastError := (course.cause?.map Failure.message).or earlier } := by
  induction runs generalizing n with
  | spent tally s w =>
    rw [complete_snd, shown]
    rfl
  | unproposed proposed =>
    rw [status_halt, shown]
    rfl
  | unscored proposed evaluated =>
    rw [status_halt, evaluating, shown]
    rfl
  | unwritten proposed evaluated unwritten =>
    rw [tell, evaluating, shown]
    rfl
  | scored proposed evaluated written _ ih =>
    -- The score of a round tells the observer how many there are now.
    rw [ih (n := n + 1) (by simp [Search.score, tell, exhibit, Status.progress, evaluating, shown, count, underway])
      (by simp [Search.score, tell, exhibit, evaluating, count])]
    simp only [Course.cons, List.length_cons, Nat.add_right_comm n, Nat.add_assoc]
    rfl

/-- After a search the status shows its course, and the error from before if it brings none. -/
theorem status_run (task : Task (StateM σ) π) (some' : task.budget ≠ 0) (s : Search π) (w : σ) :
    (run task s w).1.2.status =
      (Search.course task s w).status task.budget s.status.lastError := by
  have shown : (s.clear task.budget).status = underway task.budget 0 .zero s.status.lastError := rfl
  rw [(runs_run task some' s w).status shown rfl]
  simp [Course.status, underway]

theorem Runs.broken_of_ok {outcome : SearchOutcome}
    (runs : Runs task remaining tally s w course after) (ok : after.1.1 = .ok outcome) :
    course.broken = none := by
  induction runs with
  | spent tally s w => rfl
  | unproposed proposed => cases ok
  | unscored proposed evaluated => cases ok
  | unwritten proposed evaluated unwritten => cases ok
  | scored proposed evaluated written _ ih => exact ih ok

/-- Of what a search knows, only its proposer and its history decide how it goes on. -/
theorem courseFrom_congr {t : Search π} (proposer : s.proposer = t.proposer)
    (history : s.history = t.history) :
    courseFrom task remaining tally s w = courseFrom task remaining tally t w := by
  induction remaining generalizing tally s t w with
  | zero => rw [iterate_spent.2, iterate_spent.2]
  | succ remaining ih =>
    unfold courseFrom
    rw [proposer, history]
    split
    · rfl
    · split
      · rfl
      · split
        · rfl
        · exact congrArg (Course.cons _) (ih rfl (congrArg (· ++ _) history))

theorem course_congr {t : Search π} (proposer : s.proposer = t.proposer) :
    Search.course task s w = Search.course task t w := by
  unfold Search.course
  split
  · rfl
  · exact courseFrom_congr proposer rfl

def runAll : List (Task (StateM σ) π) → Search π → σ → Search π × σ
  | [], s, w => (s, w)
  | task :: rest, s, w => runAll rest (run task s w).1.2 (run task s w).2

def messages : List (Task (StateM σ) π) → Search π → σ → List String
  | [], _, _ => []
  | task :: rest, s, w =>
    ((Search.course task s w).cause?.map Failure.message).toList ++
      messages rest (run task s w).1.2 (run task s w).2

theorem runAll_concat (tasks : List (Task (StateM σ) π)) (task : Task (StateM σ) π) (s : Search π)
    (w : σ) :
    (runAll (tasks ++ [task]) s w).1 = (run task (runAll tasks s w).1 (runAll tasks s w).2).1.2 := by
  induction tasks generalizing s w with
  | nil => rfl
  | cons first rest ih => exact ih _ _

theorem lastError_run (task : Task (StateM σ) π) (s : Search π) (w : σ) :
    (run task s w).1.2.status.lastError =
      ((Search.course task s w).cause?.map Failure.message).or s.status.lastError := by
  by_cases none : task.budget = 0
  · rw [run, Search.course, if_pos none, if_pos none]
    rfl
  · rw [status_run task none]
    rfl

theorem lastError_runAll (tasks : List (Task (StateM σ) π)) (s : Search π) (w : σ) :
    (runAll tasks s w).1.status.lastError =
      (messages tasks s w).getLast?.or s.status.lastError := by
  induction tasks generalizing s w with
  | nil => rfl
  | cons task rest ih =>
    rw [runAll, messages, ih, lastError_run, List.getLast?_append, ← Option.or_assoc]
    congr 2
    cases (Search.course task s w).cause? <;> rfl

/-- After any searches, one more that has a budget leaves a status that is about this search alone,
the error excepted: unless a failure broke it off, the message of the latest failure before it stays,
and does so even when it was completed. The searches before it have their part in its course through
the proposer and the world only. -/
theorem status_runAll (tasks : List (Task (StateM σ) π)) (task : Task (StateM σ) π)
    (some' : task.budget ≠ 0) (s : Search π) (w : σ) :
    let before := runAll tasks s w
    let course := Search.course task before.1 before.2
    let earlier := (messages tasks s w).getLast?.or s.status.lastError
    let status := (runAll (tasks ++ [task]) s w).1.status
    status = course.status task.budget earlier ∧
      (∀ t : Search π, t.proposer = before.1.proposer →
        Search.course task t before.2 = course) ∧
      ∀ outcome, (run task before.1 before.2).1.1 = .ok outcome →
        status.phase = "Completed" ∧ status.lastError = earlier := by
  intro before course earlier status
  have shown : status = course.status task.budget earlier := by
    have kept : before.1.status.lastError = earlier := lastError_runAll tasks s w
    rw [← kept, ← status_run task some', ← runAll_concat]
  refine ⟨shown, fun t same => course_congr same, ?_⟩
  intro outcome ok
  have broken : course.broken = none :=
    (runs_run task some' before.1 before.2).broken_of_ok ok
  rw [shown]
  simp [Course.status, Course.phase, Course.cause?, broken]

section Once

def once : Task (StateM Nat) Nat :=
  { twice with
    service := { luckLater with
      poll := fun _ polls => (.ok (if polls = 0 then .cancelled else .finished), polls + 1) }
    budget := 1 }

def brokenOff : Search Nat :=
  ⟨1, .aborted, ⟨"Aborted", 1, 0, 0, none, some cancellation.message⟩, []⟩
where
  cancellation : Failure := .cancelled (JobId.text ⟨0, by decide⟩) 0

/-- The second search is completed and shows the error of the first. -/
theorem status_runAll_once : (run once (start 0) 0).1.2 = brokenOff ∧
    (runAll [once, once] (start 0) 0).1.status.phase = "Completed" ∧
    (runAll [once, once] (start 0) 0).1.status.lastError = brokenOff.status.lastError := by
  have first : runAll [once] (start 0) 0 = (brokenOff, 1) := rfl
  have scored : Evaluation.run once.service (once.experiment (candidate 1)) id 7 1 =
      (.ok ⟨.zero, [⟨0, some .zero⟩]⟩, 2) := by
    cbv
  have second := (@iterate_scored _ _ once 0 .zero (brokenOff.clear 1) 1 _ _ _ _ (by rfl) scored
    (by decide)).1
  obtain ⟨-, -, completed⟩ := status_runAll [once] once (by decide) (start 0) 0
  rw [← lastError_runAll, first] at completed
  exact ⟨congrArg Prod.fst first, completed _ (congrArg (·.1.1) second)⟩

end Once

end Search
end StrategySearch
