import StrategySearch.Backtest.Evaluation

/-! Which fold makes which call, and when it takes up the answer.

A service hears calls but not who makes them, and it may give one identifier to several jobs. So the
events of a run are listed here with the fold that took the turn. The run is not changed by the list:
with a service that keeps a record it gives the same answer and records exactly these events.
-/

set_option autoImplicit false

namespace StrategySearch

variable {σ : Type} (service : BacktestService (StateM σ)) (e : Experiment)

/-- An event with the fold that it belongs to. The strategy is configured for all folds at once. -/
structure LogEntry where
  fold : Option Nat
  event : Event

def eventsOf (index : Nat) (log : List LogEntry) : List Event :=
  (log.filter (·.fold == some index)).map (·.event)

def Event.answered? : Event → Option Call
  | .made _ => none
  | .answered call => some call

def callsOf (index : Nat) (log : List LogEntry) : List Call :=
  (eventsOf index log).filterMap Event.answered?

namespace BacktestService

theorem record_apply {α : Type} (event : α → Event) (step : StateM σ α) (s : σ)
    (earlier : List Event) :
    record event step (s, earlier) = ((step s).1, ((step s).2, earlier ++ [event (step s).1])) :=
  rfl

end BacktestService

namespace Fold

def events (fold : Fold) (s : σ) : List Event := (fold.advance service.recorded e (s, [])).2.2

theorem make_recorded (fold : Fold) (s : σ) (earlier : List Event) :
    fold.make service.recorded e (s, earlier) =
      ((fold.make service e s).1, ((fold.make service e s).2,
        earlier ++ (fold.make service.recorded e (s, [])).2.2)) := by
  simp only [make]
  split
  · exact congrArg (fun all => (_, (s, all))) (List.append_nil earlier).symm
  · rfl

theorem takeUp_recorded (fold : Fold) (s : σ) (earlier : List Event) :
    fold.takeUp service.recorded e (s, earlier) =
      ((fold.takeUp service e s).1, ((fold.takeUp service e s).2,
        earlier ++ (fold.takeUp service.recorded e (s, [])).2.2)) := by
  obtain ⟨index, slice, stage, asked⟩ := fold
  cases stage <;> rfl

theorem advance_recorded (fold : Fold) (s : σ) (earlier : List Event) :
    fold.advance service.recorded e (s, earlier) =
      ((fold.advance service e s).1,
        ((fold.advance service e s).2, earlier ++ fold.events service e s)) := by
  unfold events advance
  split
  · exact takeUp_recorded service e fold s earlier
  · exact make_recorded service e fold s earlier

end Fold

namespace Pool

variable (schedule : Schedule)

def log : Nat → Nat → Pool → σ → List LogEntry
  | allowed, turns, pool, s =>
    match pool.waiting[pool.position schedule turns]?, allowed with
    | none, _ => []
    | some _, 0 => []
    | some fold, allowed + 1 =>
      (fold.events service e s).map (⟨some fold.index, ·⟩) ++
        match fold.advance service e s with
        | (.error _, _) => []
        | (.ok turn, s) =>
          log allowed (turns + 1) (pool.settle (pool.position schedule turns) turn) s

variable {service e schedule} {allowed turns : Nat} {pool : Pool} {s s' : σ} {fold : Fold}

/-! A run and its log, by what the next turn does. -/

theorem run_done (next : pool.waiting[pool.position schedule turns]? = none) :
    run service e schedule allowed turns pool s = (.ok pool.outcomes, s) ∧
      log service e schedule allowed turns pool s = [] := by
  constructor
  · unfold run
    simp only [next]
    rfl
  · unfold log
    simp only [next]

theorem run_exhausted (next : pool.waiting[pool.position schedule turns]? = some fold) :
    run service e schedule 0 turns pool s = (.error .unfinished, s) ∧
      log service e schedule 0 turns pool s = [] := by
  constructor
  · unfold run
    simp only [next]
    rfl
  · unfold log
    simp only [next]

theorem run_stop {stop : Stop}
    (next : pool.waiting[pool.position schedule turns]? = some fold)
    (turn : fold.advance service e s = (.error stop, s')) :
    run service e schedule (allowed + 1) turns pool s = (.error stop, s') ∧
      log service e schedule (allowed + 1) turns pool s =
        (fold.events service e s).map (⟨some fold.index, ·⟩) := by
  constructor
  · unfold run
    simp only [next, bind, StateT.bind, turn]
    rfl
  · unfold log
    simp only [next, turn, List.append_nil]

theorem run_turn {turn : Turn}
    (next : pool.waiting[pool.position schedule turns]? = some fold)
    (took : fold.advance service e s = (.ok turn, s')) :
    run service e schedule (allowed + 1) turns pool s =
        run service e schedule allowed (turns + 1)
          (pool.settle (pool.position schedule turns) turn) s' ∧
      log service e schedule (allowed + 1) turns pool s =
        (fold.events service e s).map (⟨some fold.index, ·⟩) ++
          log service e schedule allowed (turns + 1)
            (pool.settle (pool.position schedule turns) turn) s' := by
  constructor
  · conv => lhs; unfold run
    simp only [next, bind, StateT.bind, took]
  · conv => lhs; unfold log
    simp only [next, took]

variable (service e schedule)

theorem run_recorded (allowed turns : Nat) (pool : Pool) (s : σ) (earlier : List Event) :
    run service.recorded e schedule allowed turns pool (s, earlier) =
      ((run service e schedule allowed turns pool s).1,
        ((run service e schedule allowed turns pool s).2,
          earlier ++ (log service e schedule allowed turns pool s).map (·.event))) := by
  -- One turn appends its own events; the rest of the run appends to these.
  induction allowed generalizing turns pool s earlier with
  | zero =>
    cases next : pool.waiting[pool.position schedule turns]? with
    | none => simp [run_done next]
    | some fold => simp [run_exhausted next]
  | succ allowed ih =>
    cases next : pool.waiting[pool.position schedule turns]? with
    | none => simp [run_done next]
    | some fold =>
      have recorded := Fold.advance_recorded service e fold s earlier
      cases turn : fold.advance service e s with
      | mk answer after =>
        rw [turn] at recorded
        cases answer with
        | error stop =>
          simp [run_stop next turn, run_stop next recorded, Function.comp_def]
        | ok turn' =>
          simp [run_turn next turn, run_turn next recorded, ih, Function.comp_def]

end Pool
end StrategySearch
