import Mathlib.Data.List.Perm.Basic
import StrategySearch.Proofs.Backtest.Course

/-! What the log of a pool tells about its folds.

At any time each fold of the plan either waits for a turn or has an outcome, and never both or
twice; and its own events in the log are those of its course so far. Turns keep this account in any
order, so that it holds of every run until its end.
-/

set_option autoImplicit false

namespace StrategySearch

variable {σ : Type} {service : BacktestService (StateM σ)} {e : Experiment} {schedule : Schedule}

section Log

variable {i j : Nat} {log : List LogEntry}

theorem eventsOf_append (i : Nat) (first second : List LogEntry) :
    eventsOf i (first ++ second) = eventsOf i first ++ eventsOf i second := by
  simp [eventsOf]

theorem eventsOf_own (i : Nat) (events : List Event) :
    eventsOf i (events.map (⟨some i, ·⟩)) = events := by
  simp [eventsOf, List.filter_map, Function.comp_def]

theorem eventsOf_other (differ : j ≠ i) (events : List Event) :
    eventsOf j (events.map (⟨some i, ·⟩)) = [] := by
  simp [eventsOf, Ne.symm differ]

theorem callsOf_eq {calls : List Call} (events : eventsOf i log = exchanges calls) :
    callsOf i log = calls := by
  rw [callsOf, events, answered_exchanges]

theorem Experiment.Stands.reaches {fold : Fold} (stands : e.Stands fold (eventsOf fold.index log)) :
    e.Reaches fold.index fold.slice (callsOf fold.index log) fold.stage := by
  obtain ⟨calls, reached, events⟩ := stands
  have unanswered : (fold.pending e).filterMap Event.answered? = [] := by
    unfold Fold.pending
    split <;> rfl
  rwa [callsOf, events, List.filterMap_append, answered_exchanges, unanswered, List.append_nil]

end Log

namespace Pool

/-- The account of a pool after the events of a log. -/
structure Accounts (e : Experiment) (pool : Pool) (log : List LogEntry) : Prop where
  indices : (pool.waiting.map (·.index) ++ pool.outcomes.map (·.index)).Perm
    (List.range e.plan.foldCount)
  waiting : ∀ fold ∈ pool.waiting, e.plan.slice fold.index = .ok fold.slice ∧
    e.Stands fold (eventsOf fold.index log)
  outcomes : ∀ outcome ∈ pool.outcomes, ∃ slice calls, e.plan.slice outcome.index = .ok slice ∧
    eventsOf outcome.index log = exchanges calls ∧ e.Concludes outcome.index slice calls outcome
  folds : ∀ entry ∈ log, ∃ i < e.plan.foldCount, entry.fold = some i

/-- How a run ends: all folds have outcomes, the turns are used up while a fold waits, or one fold
broke in the last turn. -/
inductive Closes (e : Experiment) : Answer (List FoldOutcome) → List LogEntry → Prop where
  | complete {outcomes : List FoldOutcome} {log : List LogEntry} :
      Accounts e ⟨[], outcomes⟩ log → Closes e (.ok outcomes) log
  | exhausted {pool : Pool} {log : List LogEntry} {fold : Fold} :
      Accounts e pool log → fold ∈ pool.waiting → Closes e (.error .unfinished) log
  | broken {pool : Pool} {log : List LogEntry} {fold : Fold} {last : List Event} {calls : List Call}
      {stop : Stop} :
      Accounts e pool log → fold ∈ pool.waiting →
      eventsOf fold.index log ++ last = exchanges calls →
      e.Breaks fold.index fold.slice calls stop →
      Closes e (.error stop) (log ++ last.map (⟨some fold.index, ·⟩))

variable {pool : Pool} {log : List LogEntry} {fold next : Fold} {others : List Fold}
  {events : List Event}

theorem Accounts.index_lt (accounts : Accounts e pool log) (waits : fold ∈ pool.waiting) :
    fold.index < e.plan.foldCount :=
  List.mem_range.mp (accounts.indices.subset (List.mem_append_left _ (List.mem_map_of_mem waits)))

theorem Accounts.bystanders (accounts : Accounts e pool log)
    (split : pool.waiting.Perm (fold :: others)) (events : List Event) :
    (∀ f ∈ others, e.plan.slice f.index = .ok f.slice ∧
      e.Stands f (eventsOf f.index (log ++ events.map (⟨some fold.index, ·⟩)))) ∧
    (∀ outcome ∈ pool.outcomes, ∃ slice calls, e.plan.slice outcome.index = .ok slice ∧
      eventsOf outcome.index (log ++ events.map (⟨some fold.index, ·⟩)) = exchanges calls ∧
      e.Concludes outcome.index slice calls outcome) ∧
    ∀ entry ∈ log ++ events.map (⟨some fold.index, ·⟩ : Event → LogEntry),
      ∃ i < e.plan.foldCount, entry.fold = some i := by
  have indices := ((split.map (·.index)).append_right _).symm.trans accounts.indices
  -- No other fold has this index, so no other fold's events have changed.
  have nodup := indices.nodup_iff.mpr List.nodup_range
  simp only [List.map_cons, List.cons_append, List.nodup_cons, List.mem_append, List.mem_map,
    not_or, not_exists, not_and] at nodup
  obtain ⟨⟨notWaiting, notOver⟩, -⟩ := nodup
  refine ⟨fun f member => ?_, fun outcome member => ?_, fun entry member => ?_⟩
  · rw [eventsOf_append, eventsOf_other (notWaiting f member), List.append_nil]
    exact accounts.waiting f (split.mem_iff.mpr (List.mem_cons_of_mem _ member))
  · rw [eventsOf_append, eventsOf_other (notOver outcome member), List.append_nil]
    exact accounts.outcomes outcome member
  · rcases List.mem_append.mp member with old | new
    · exact accounts.folds entry old
    · obtain ⟨event, -, rfl⟩ := List.mem_map.mp new
      exact ⟨fold.index, accounts.index_lt (split.mem_iff.mpr List.mem_cons_self), rfl⟩

theorem Accounts.goesOn {waiting : List Fold} (accounts : Accounts e pool log)
    (split : pool.waiting.Perm (fold :: others)) (now : waiting.Perm (next :: others))
    (goes : e.Continues fold.index fold.slice (eventsOf fold.index log ++ events)
      (.ok (.keep next))) :
    Accounts e { pool with waiting := waiting } (log ++ events.map (⟨some fold.index, ·⟩)) := by
  obtain ⟨index, slice, stands⟩ := goes
  obtain ⟨rest, ended, folds⟩ := accounts.bystanders split events
  refine ⟨?_, fun f member => ?_, ended, folds⟩
  · -- A turn may move the fold among those that wait, but it keeps its index.
    refine (List.Perm.append_right _ ?_).trans accounts.indices
    have same : (next :: others).map (·.index) = (fold :: others).map (·.index) := by
      rw [List.map_cons, List.map_cons, index]
    exact (now.map _).trans (same ▸ (split.map _).symm)
  · rcases List.mem_cons.mp (now.mem_iff.mp member) with rfl | member
    · rw [index, slice, eventsOf_append, eventsOf_own]
      have mine := accounts.waiting fold (split.mem_iff.mpr List.mem_cons_self)
      exact ⟨mine.1, stands⟩
    · exact rest f member

theorem Accounts.isOver {outcome : FoldOutcome} (accounts : Accounts e pool log)
    (split : pool.waiting.Perm (fold :: others))
    (ends : e.Continues fold.index fold.slice (eventsOf fold.index log ++ events)
      (.ok (.over outcome))) :
    Accounts e ⟨others, outcome :: pool.outcomes⟩
      (log ++ events.map (⟨some fold.index, ·⟩)) := by
  obtain ⟨calls, exchanged, ends⟩ := ends
  obtain ⟨rest, ended, folds⟩ := accounts.bystanders split events
  refine ⟨?_, rest, fun o member => ?_, folds⟩
  · rw [List.map_cons, ends.index_eq]
    refine List.perm_middle.trans (List.Perm.trans ?_ accounts.indices)
    exact ((split.map (·.index)).append_right _).symm
  · rcases List.mem_cons.mp member with rfl | member
    · have mine := accounts.waiting fold (split.mem_iff.mpr List.mem_cons_self)
      rw [ends.index_eq, eventsOf_append, eventsOf_own]
      exact ⟨fold.slice, calls, mine.1, exchanged, ends⟩
    · exact ended o member

theorem Accounts.turn {p : Nat} {turn : Turn} (accounts : Accounts e pool log)
    (chosen : pool.waiting[p]? = some fold)
    (goes : e.Continues fold.index fold.slice (eventsOf fold.index log ++ events) (.ok turn)) :
    Accounts e (pool.settle p turn) (log ++ events.map (⟨some fold.index, ·⟩)) := by
  obtain ⟨bound, rfl⟩ := List.getElem?_eq_some_iff.mp chosen
  have split := (List.getElem_cons_eraseIdx_perm bound).symm
  match turn with
  | .keep next => exact accounts.goesOn split (List.set_perm_cons_eraseIdx bound next) goes
  | .yield next => exact accounts.goesOn split (List.perm_append_singleton next _) goes
  | .over outcome => exact accounts.isOver split goes

theorem waiting_eq_nil {turns : Nat} (next : pool.waiting[pool.position schedule turns]? = none) :
    pool.waiting = [] := by
  rw [List.getElem?_eq_none_iff] at next
  by_contra occupied
  have := Nat.mod_lt (schedule turns) (List.length_pos_iff.mpr occupied)
  exact absurd next (Nat.not_le.mpr this)

theorem Accounts.done {turns : Nat} (accounts : Accounts e pool log)
    (next : pool.waiting[pool.position schedule turns]? = none) (allowed : Nat) (s : σ) :
    Closes e (run service e schedule allowed turns pool s).1
      (log ++ Pool.log service e schedule allowed turns pool s) := by
  rw [(run_done next).1, (run_done next).2, List.append_nil]
  exact .complete (waiting_eq_nil next ▸ accounts)

/-- The account is kept until the run ends, whatever the schedule. -/
theorem Accounts.run (accounts : Accounts e pool log) (service : BacktestService (StateM σ))
    (schedule : Schedule) (allowed turns : Nat) (s : σ) :
    Closes e (run service e schedule allowed turns pool s).1
      (log ++ Pool.log service e schedule allowed turns pool s) := by
  -- By the turns that are allowed: what was logged so far grows by the event of one turn.
  induction allowed generalizing turns pool log s with
  | zero =>
    cases next : pool.waiting[pool.position schedule turns]? with
    | none => exact accounts.done next _ s
    | some fold =>
      rw [(run_exhausted next).1, (run_exhausted next).2, List.append_nil]
      exact .exhausted accounts (List.mem_of_getElem? next)
  | succ allowed ih =>
    cases next : pool.waiting[pool.position schedule turns]? with
    | none => exact accounts.done next _ s
    | some fold =>
      have member := List.mem_of_getElem? next
      have goes := fold.continues_advance service s (accounts.waiting fold member).2
      cases took : fold.advance service e s with
      | mk answer after =>
        rw [took] at goes
        cases answer with
        | error stop =>
          obtain ⟨calls, exchanged, breaks⟩ := goes
          rw [(run_stop next took).1, (run_stop next took).2]
          exact .broken accounts member exchanged breaks
        | ok turn =>
          rw [(run_turn next took).1, (run_turn next took).2, ← List.append_assoc]
          exact ih (accounts.turn next goes) (turns + 1) after

end Pool
end StrategySearch
