import Mathlib
import StrategySearch.Proofs.Backtest.Outcomes

/-! When two evaluations of a plan are equal.

Sums of decimals depend on their order, but an evaluation sums in the order of the folds. So it is
told by the outcomes of the folds alone, and not by when each of them ended.
-/

set_option autoImplicit false

namespace StrategySearch

variable {σ : Type} {service : BacktestService (StateM σ)} {e : Experiment} {schedule : Schedule}
  {allowed : Nat} {s : σ} {evaluation : Evaluation}

namespace Evaluation

/-- The folds of two evaluations of a plan end with the same outcomes. -/
def EndAlike (e e' : Experiment) (log log' : List LogEntry) : Prop :=
  ∀ i < e.plan.foldCount, ∃ slice outcome, e.plan.slice i = .ok slice ∧
    e.Concludes i slice (callsOf i log) outcome ∧ e'.Concludes i slice (callsOf i log') outcome

section Comparison

variable {e' : Experiment} {log' : List LogEntry} {evaluation' : Evaluation}
  {log : List LogEntry}

theorem Reports.unique (first : Reports e log evaluation) (second : Reports e' log' evaluation')
    (samePlan : e'.plan = e.plan) (alike : EndAlike e e' log log') : evaluation' = evaluation := by
  have folds : evaluation'.folds = evaluation.folds := by
    refine List.ext_getElem? fun i => ?_
    by_cases inside : i < e.plan.foldCount
    · obtain ⟨slice, outcome, found, ends, ends'⟩ := alike i inside
      obtain ⟨slice₁, outcome₁, found₁, reported₁, -, ends₁⟩ := first.each i inside
      obtain ⟨slice₂, outcome₂, found₂, reported₂, -, ends₂⟩ :=
        second.each i (samePlan ▸ inside)
      rw [samePlan] at found₂
      obtain rfl := Except.ok.inj (found.symm.trans found₁)
      obtain rfl := Except.ok.inj (found.symm.trans found₂)
      rw [reported₁, reported₂, ends₁.functional ends, ends₂.functional ends']
    · rw [List.getElem?_eq_none (by rw [second.count, samePlan]; omega),
        List.getElem?_eq_none (by rw [first.count]; omega)]
  -- The means are of one list, in one order.
  have objective := second.objective
  rw [folds, samePlan, first.objective, Option.some.injEq] at objective
  cases evaluation
  cases evaluation'
  simp only [Evaluation.mk.injEq]
  exact ⟨objective.symm, folds⟩

theorem Reports.endAlike (first : Reports e log evaluation) (second : Reports e' log' evaluation)
    (samePlan : e'.plan = e.plan) : EndAlike e e' log log' := by
  intro i inside
  obtain ⟨slice, outcome, found, reported, -, ends⟩ := first.each i inside
  obtain ⟨slice', outcome', found', reported', -, ends'⟩ := second.each i (samePlan ▸ inside)
  rw [samePlan] at found'
  obtain rfl := Except.ok.inj (found.symm.trans found')
  obtain rfl := Option.some.inj (reported.symm.trans reported')
  exact ⟨slice, outcome, found, ends, ends'⟩

end Comparison

/-- Whatever the service does and in whatever order the folds take their turns, a successful
evaluation reports each fold once and in its place. Two of them are equal exactly if their folds end
alike. -/
theorem run_reports (ran : (run service e schedule allowed s).1 = .ok evaluation) :
    run service.recorded e schedule allowed (s, []) =
        (.ok evaluation, ((run service e schedule allowed s).2,
          (log service e schedule allowed s).map (·.event))) ∧
      Reports e (log service e schedule allowed s) evaluation ∧
      ∀ {τ : Type} (service' : BacktestService (StateM τ)) (e' : Experiment)
        (schedule' : Schedule) (allowed' : Nat) (t : τ) (evaluation' : Evaluation),
        (run service' e' schedule' allowed' t).1 = .ok evaluation' → e'.plan = e.plan →
        (EndAlike e e' (log service e schedule allowed s)
          (log service' e' schedule' allowed' t) ↔ evaluation' = evaluation) := by
  refine ⟨?_, .of_run ran, ?_⟩
  · rw [run_recorded, ran, List.nil_append]
  · intro τ service' e' schedule' allowed' t evaluation' ran' samePlan
    constructor
    · exact (Reports.of_run ran).unique (.of_run ran') samePlan
    · rintro rfl
      exact (Reports.of_run ran).endAlike (.of_run ran') samePlan

section Crossing

/-- Jobs are numbered by their first symbol. The first finishes at the third poll, others fail. -/
def polledThrice : BacktestService (StateM Nat) where
  hear _ := pure ()
  configure _ _ polls := (.ok (), polls)
  submit submission polls :=
    (.ok ⟨submission.slice.skip % 2, Nat.lt_trans (Nat.mod_lt _ (by decide)) (by decide)⟩, polls)
  poll job polls :=
    (.ok (if job.number = 1 then .failed else if polls < 2 then .running else .finished), polls + 1)
  fetch _ polls := (.ok [⟨.midnight ⟨2024, 3, 7, rfl⟩, .one, ⟨"USD", .one, .one⟩, []⟩], polls)

def pair : Experiment where
  plan := ⟨⟨⟨2024, 3, 7, rfl⟩, ⟨2024, 3, 8, rfl⟩, by decide⟩, .one, 1, 0, 2, false, 0, .hundred⟩
  strategy := .basic
  parameters := ∅
  verbose := true

def pairEvaluation : Evaluation := ⟨.ofUInt64 50, [⟨0, some .zero⟩, ⟨1, none⟩]⟩

def firstFirst : Schedule := fun turns => if turns < 4 then 0 else 1

/-- In turn, the calls of both folds are in flight together and the second one ends first. Otherwise
the first one ends before the second submits. -/
theorem run_reports_crossing :
    (run polledThrice pair id 15 0).1 = .ok pairEvaluation ∧
      Reports pair (log polledThrice pair id 15 0) pairEvaluation ∧
      (run polledThrice pair firstFirst 15 0).1 = .ok pairEvaluation ∧
      EndAlike pair pair (log polledThrice pair id 15 0)
        (log polledThrice pair firstFirst 15 0) := by
  have laid : layout pair.plan =
      .ok [⟨0, ⟨0, 1⟩, .ready, false⟩, ⟨1, ⟨1, 1⟩, .ready, false⟩] := by
    decide
  have configured : Configures polledThrice pair 0 (.ok ()) 0 := rfl
  have secondEndsFirst : (Pool.run polledThrice pair id 15 0
      ⟨[⟨0, ⟨0, 1⟩, .ready, false⟩, ⟨1, ⟨1, 1⟩, .ready, false⟩], []⟩ 0).1 =
        .ok [⟨0, some .zero⟩, ⟨1, none⟩] := by
    decide +kernel
  have firstEndsFirst : (Pool.run polledThrice pair firstFirst 15 0
      ⟨[⟨0, ⟨0, 1⟩, .ready, false⟩, ⟨1, ⟨1, 1⟩, .ready, false⟩], []⟩ 0).1 =
        .ok [⟨1, none⟩, ⟨0, some .zero⟩] := by
    decide +kernel
  have crossed : (run polledThrice pair id 15 0).1 = .ok pairEvaluation := by
    rw [(run_configured laid configured).1]
    show ofPool _ _ = _
    rw [secondEndsFirst]
    cbv
  have inOrder : (run polledThrice pair firstFirst 15 0).1 = .ok pairEvaluation := by
    rw [(run_configured laid configured).1]
    show ofPool _ _ = _
    rw [firstEndsFirst]
    cbv
  obtain ⟨-, reports, compare⟩ := run_reports crossed
  exact ⟨crossed, reports, inOrder, (compare _ _ _ _ _ _ inOrder rfl).mpr rfl⟩

end Crossing

end Evaluation
end StrategySearch
