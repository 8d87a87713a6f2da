import StrategySearch.Proofs.Backtest.Log

/-! The course of one fold: what it has called when it is at a stage, when it is over and when it
ends in a failure. Its calls are made one at a time, and a turn carries the course on. -/

set_option autoImplicit false

namespace StrategySearch

section Exchanges

/-- The events of calls of which each is made when the one before it has its answer. -/
def exchanges (calls : List Call) : List Event :=
  calls.flatMap fun call => [.made call.ask, .answered call]

theorem exchanges_concat (calls : List Call) (last : Call) :
    exchanges (calls ++ [last]) = exchanges calls ++ [.made last.ask] ++ [.answered last] := by
  simp [exchanges]

theorem answered_exchanges (calls : List Call) :
    (exchanges calls).filterMap Event.answered? = calls := by
  induction calls with
  | nil => rfl
  | cons first rest ih => exact congrArg (first :: ·) ih

theorem answered_mem_exchanges {calls : List Call} {call : Call} :
    .answered call ∈ exchanges calls ↔ call ∈ calls := by
  simp [exchanges]

end Exchanges

theorem Decimal.inform_eq_error {verbose : Bool} {value : Decimal} {stop : Stop}
    (failed : value.inform verbose = .error stop) : stop = .fault := by
  unfold inform at failed
  split at failed
  · exact (Except.error.inj failed).symm
  · cases failed

def Fold.pending (e : Experiment) (fold : Fold) : List Event :=
  if fold.asked then [.made (fold.ask e)] else []

namespace Experiment

variable (e : Experiment) (index : Nat) (slice : SymbolSlice)

def asked (job : JobId) (polls : Nat) : List Call :=
  .submit (e.submission index slice) (.ok job) :: List.replicate polls (.poll job (.ok .running))

/-- The calls that have led a fold to its stage. -/
inductive Reaches : List Call → FoldStage → Prop where
  | ready : Reaches [] .ready
  | running (job : JobId) (polls : Nat) : Reaches (e.asked index slice job polls) (.running job)
  | finished (job : JobId) (polls : Nat) :
      Reaches (e.asked index slice job polls ++ [.poll job (.ok .finished)]) (.finished job)

/-- The calls of a fold with an outcome: its own job failed, or finished with a series that has a
return. -/
inductive Concludes : List Call → FoldOutcome → Prop where
  | failed (job : JobId) (polls : Nat) :
      Concludes (e.asked index slice job polls ++ [.poll job (.ok .failed)]) ⟨index, none⟩
  | finished (job : JobId) (polls : Nat) {series : List Snapshot} {analysis : Analysis}
      {total : Decimal} : Analysis.ofSeries series = .ok analysis →
      analysis.totalReturn = some total → total.inform e.verbose = .ok () →
      Concludes (e.asked index slice job polls ++
        [.poll job (.ok .finished), .fetch job (.ok series)]) ⟨index, some total⟩

/-- The calls of a fold that stops the evaluation, with the reason. -/
inductive Breaks : List Call → Stop → Prop where
  | beyondBound : indexBound ≤ index + 1 → Breaks [] .fault
  | notSubmitted (cause : Failure) :
      Breaks [.submit (e.submission index slice) (.error cause)] (.failure cause)
  | notPolled (job : JobId) (polls : Nat) (cause : Failure) :
      Breaks (e.asked index slice job polls ++ [.poll job (.error cause)]) (.failure cause)
  | cancelled (job : JobId) (polls : Nat) :
      Breaks (e.asked index slice job polls ++ [.poll job (.ok .cancelled)])
        (.failure (.cancelled job.text index))
  | notFetched (job : JobId) (polls : Nat) (cause : Failure) :
      Breaks (e.asked index slice job polls ++
        [.poll job (.ok .finished), .fetch job (.error cause)]) (.failure cause)
  | notJudged (job : JobId) (polls : Nat) {series : List Snapshot} {stop : Stop} :
      Fold.judge e.verbose index job series = .error stop →
      Breaks (e.asked index slice job polls ++
        [.poll job (.ok .finished), .fetch job (.ok series)]) stop

def Stands (fold : Fold) (events : List Event) : Prop :=
  ∃ calls, e.Reaches fold.index fold.slice calls fold.stage ∧
    events = exchanges calls ++ fold.pending e

def Continues (events : List Event) : Answer Turn → Prop
  | .ok (.keep next) | .ok (.yield next) =>
    next.index = index ∧ next.slice = slice ∧ e.Stands next events
  | .ok (.over outcome) => ∃ calls, events = exchanges calls ∧ e.Concludes index slice calls outcome
  | .error stop => ∃ calls, events = exchanges calls ∧ e.Breaks index slice calls stop

/-- At most one submission; after it only polls of its job, all running but the last; and a fetch
only behind a poll that found the job finished. -/
def FollowsProtocol (submission : Submission) (calls : List Call) : Prop :=
  calls = [] ∨ (∃ cause, calls = [.submit submission (.error cause)]) ∨
  ∃ job polls rest, calls = .submit submission (.ok job) ::
      (List.replicate polls (.poll job (.ok .running)) ++ rest) ∧
    (rest = [] ∨ (∃ answer, rest = [.poll job answer]) ∨
      ∃ answer, rest = [.poll job (.ok .finished), .fetch job answer])

/-- The calls follow the protocol, and one in flight does whatever it is answered. -/
def KeepsProtocol (submission : Submission) (events : List Event) : Prop :=
  ∃ calls, FollowsProtocol submission calls ∧
    (events = exchanges calls ∨ ∃ ask, events = exchanges calls ++ [.made ask] ∧
      ∀ last : Call, last.ask = ask → FollowsProtocol submission (calls ++ [last]))

variable {e index slice} {calls : List Call}

theorem Concludes.index_eq {outcome : FoldOutcome} (ends : e.Concludes index slice calls outcome) :
    outcome.index = index := by
  cases ends <;> rfl

theorem Concludes.functional {first second : FoldOutcome}
    (left : e.Concludes index slice calls first) (right : e.Concludes index slice calls second) :
    first = second := by
  -- The last call tells how the job ended, and of a finished one it holds the series.
  cases left with
  | failed job polls =>
    generalize same : e.asked index slice job polls ++ [.poll job (.ok .failed)] = calls at right
    cases right with
    | failed => rfl
    | finished => simpa using congrArg List.getLast? same
  | @finished job polls series analysis total analysed returned written =>
    generalize same : e.asked index slice job polls ++
      [.poll job (.ok .finished), .fetch job (.ok series)] = calls at right
    cases right with
    | failed => simpa using congrArg List.getLast? same
    | finished _ _ analysed' returned' _ =>
      have last := congrArg List.getLast? same
      simp only [List.getLast?_append, List.getLast?_cons_cons, List.getLast?_singleton,
        Option.some_or, Option.some.injEq, Call.fetch.injEq, Except.ok.injEq] at last
      obtain ⟨-, rfl⟩ := last
      obtain rfl := Except.ok.inj (analysed.symm.trans analysed')
      obtain rfl := Option.some.inj (returned.symm.trans returned')
      rfl

theorem asked_succ (job : JobId) (polls : Nat) :
    e.asked index slice job (polls + 1) =
      e.asked index slice job polls ++ [.poll job (.ok .running)] := by
  simp [asked, List.replicate_succ']

theorem Reaches.followsProtocol {stage : FoldStage} (reached : e.Reaches index slice calls stage) :
    FollowsProtocol (e.submission index slice) calls := by
  cases reached with
  | ready => exact .inl rfl
  | running job polls => exact .inr (.inr ⟨job, polls, [], by simp [asked], .inl rfl⟩)
  | finished job polls => exact .inr (.inr ⟨job, polls, _, rfl, .inr (.inl ⟨_, rfl⟩)⟩)

theorem Concludes.followsProtocol {outcome : FoldOutcome}
    (ends : e.Concludes index slice calls outcome) :
    FollowsProtocol (e.submission index slice) calls := by
  cases ends with
  | failed job polls => exact .inr (.inr ⟨job, polls, _, rfl, .inr (.inl ⟨_, rfl⟩)⟩)
  | finished job polls => exact .inr (.inr ⟨job, polls, _, rfl, .inr (.inr ⟨_, rfl⟩)⟩)

theorem Breaks.followsProtocol {stop : Stop} (breaks : e.Breaks index slice calls stop) :
    FollowsProtocol (e.submission index slice) calls := by
  cases breaks with
  | beyondBound => exact .inl rfl
  | notSubmitted cause => exact .inr (.inl ⟨cause, rfl⟩)
  | notPolled job polls cause => exact .inr (.inr ⟨job, polls, _, rfl, .inr (.inl ⟨_, rfl⟩)⟩)
  | cancelled job polls => exact .inr (.inr ⟨job, polls, _, rfl, .inr (.inl ⟨_, rfl⟩)⟩)
  | notFetched job polls cause => exact .inr (.inr ⟨job, polls, _, rfl, .inr (.inr ⟨_, rfl⟩)⟩)
  | notJudged job polls _ => exact .inr (.inr ⟨job, polls, _, rfl, .inr (.inr ⟨_, rfl⟩)⟩)

theorem Reaches.ask_follows {fold : Fold}
    (reached : e.Reaches fold.index fold.slice calls fold.stage) (last : Call)
    (asked : last.ask = fold.ask e) :
    FollowsProtocol (e.submission fold.index fold.slice) (calls ++ [last]) := by
  obtain ⟨index, slice, stage, inFlight⟩ := fold
  cases reached with
  | ready =>
    cases last <;> cases asked
    next answer =>
    cases answer with
    | error cause => exact .inr (.inl ⟨cause, rfl⟩)
    | ok job => exact .inr (.inr ⟨job, 0, [], rfl, .inl rfl⟩)
  | running job polls =>
    cases last <;> cases asked
    exact .inr (.inr ⟨job, polls, _, rfl, .inr (.inl ⟨_, rfl⟩)⟩)
  | finished job polls =>
    cases last <;> cases asked
    exact .inr (.inr ⟨job, polls, _, List.append_assoc _ _ _, .inr (.inr ⟨_, rfl⟩)⟩)

theorem Stands.keepsProtocol {fold : Fold} {events : List Event} (stands : e.Stands fold events) :
    KeepsProtocol (e.submission fold.index fold.slice) events := by
  obtain ⟨calls, reached, rfl⟩ := stands
  refine ⟨calls, reached.followsProtocol, ?_⟩
  unfold Fold.pending
  split
  · exact .inr ⟨_, rfl, reached.ask_follows⟩
  · exact .inl (List.append_nil _)

theorem FollowsProtocol.keeps {submission : Submission} (follows : FollowsProtocol submission calls) :
    KeepsProtocol submission (exchanges calls) :=
  ⟨calls, follows, .inl rfl⟩

end Experiment

namespace Fold

variable {σ : Type} (service : BacktestService (StateM σ)) (e : Experiment)

/-! A turn and its event, stage by stage. -/

theorem turn_beyond {fold : Fold} (s : σ) (unasked : fold.asked = false)
    (beyond : fold.stage = .ready ∧ Experiment.indexBound ≤ fold.index + 1) :
    (fold.advance service e s).1 = .error .fault ∧ fold.events service e s = [] := by
  simp only [Fold.events, advance, unasked, make, if_pos beyond]
  exact ⟨rfl, rfl⟩

theorem turn_made {fold : Fold} (s : σ) (unasked : fold.asked = false)
    (inside : ¬ (fold.stage = .ready ∧ Experiment.indexBound ≤ fold.index + 1)) :
    (fold.advance service e s).1 = .ok (.keep { fold with asked := true }) ∧
      fold.events service e s = [.made (fold.ask e)] := by
  simp only [Fold.events, advance, unasked, make, if_neg inside]
  exact ⟨rfl, rfl⟩

theorem turn_submitted (index : Nat) (slice : SymbolSlice) (s : σ) :
    let fold : Fold := ⟨index, slice, .ready, true⟩
    let answer := (service.submit (e.submission index slice) s).1
    (fold.advance service e s).1 = fold.afterSubmit answer ∧
      fold.events service e s = [.answered (.submit (e.submission index slice) answer)] :=
  ⟨rfl, rfl⟩

theorem turn_polled (index : Nat) (slice : SymbolSlice) (job : JobId) (s : σ) :
    let fold : Fold := ⟨index, slice, .running job, true⟩
    (fold.advance service e s).1 = fold.afterPoll job (service.poll job s).1 ∧
      fold.events service e s = [.answered (.poll job (service.poll job s).1)] :=
  ⟨rfl, rfl⟩

theorem turn_fetched (index : Nat) (slice : SymbolSlice) (job : JobId) (s : σ) :
    let fold : Fold := ⟨index, slice, .finished job, true⟩
    (fold.advance service e s).1 = fold.afterFetch e.verbose job (service.fetch job s).1 ∧
      fold.events service e s = [.answered (.fetch job (service.fetch job s).1)] :=
  ⟨rfl, rfl⟩

theorem judge_eq_ok {verbose : Bool} {index : Nat} {job : JobId} {series : List Snapshot}
    {outcome : FoldOutcome} (judged : judge verbose index job series = .ok outcome) :
    ∃ analysis total, Analysis.ofSeries series = .ok analysis ∧
      analysis.totalReturn = some total ∧ total.inform verbose = .ok () ∧
      outcome = ⟨index, some total⟩ := by
  unfold judge at judged
  cases analysed : Analysis.ofSeries series with
  | error stop => simp [analysed, bind, Except.bind] at judged
  | ok analysis =>
    cases returned : analysis.totalReturn with
    | none => simp [analysed, returned, bind, Except.bind, Answer.refuse] at judged
    | some total =>
      cases written : total.inform verbose with
      | error stop => simp [analysed, returned, written, bind, Except.bind] at judged
      | ok done =>
        simp only [analysed, returned, written, bind, Except.bind] at judged
        exact ⟨analysis, total, rfl, returned, written, (Except.ok.inj judged).symm⟩

theorem stands_unasked {e : Experiment} {calls : List Call} {index : Nat} {slice : SymbolSlice}
    {stage : FoldStage} (reached : e.Reaches index slice calls stage) :
    e.Stands ⟨index, slice, stage, false⟩ (exchanges calls) :=
  ⟨calls, reached, (List.append_nil _).symm⟩

theorem continues_make {e : Experiment} {calls : List Call} (fold : Fold) (s : σ)
    (unasked : fold.asked = false) (reached : e.Reaches fold.index fold.slice calls fold.stage) :
    e.Continues fold.index fold.slice (exchanges calls ++ fold.events service e s)
      (fold.advance service e s).1 := by
  by_cases beyond : fold.stage = .ready ∧ Experiment.indexBound ≤ fold.index + 1
  · obtain ⟨answers, silent⟩ := turn_beyond service e s unasked beyond
    obtain ⟨ready, beyond⟩ := beyond
    rw [ready] at reached
    cases reached
    rw [answers, silent]
    exact ⟨[], rfl, .beyondBound beyond⟩
  · obtain ⟨answers, made⟩ := turn_made service e s unasked beyond
    rw [answers, made]
    exact ⟨rfl, rfl, calls, reached, rfl⟩

theorem continues_takeUp {e : Experiment} {calls : List Call} (fold : Fold) (s : σ)
    (asked : fold.asked = true) (reached : e.Reaches fold.index fold.slice calls fold.stage) :
    e.Continues fold.index fold.slice
      (exchanges calls ++ [.made (fold.ask e)] ++ fold.events service e s)
      (fold.advance service e s).1 := by
  obtain ⟨index, slice, stage, inFlight⟩ := fold
  cases asked
  cases reached with
  | ready =>
    obtain ⟨answers, taken⟩ := turn_submitted service e index slice s
    rw [answers, taken]
    -- Whatever the answer is, it carries the course on, ends it or breaks it.
    generalize (service.submit (e.submission index slice) s).1 = answer
    have extended := exchanges_concat [] (.submit (e.submission index slice) answer)
    cases answer with
    | error cause => exact ⟨_, extended.symm, .notSubmitted cause⟩
    | ok job => exact ⟨rfl, rfl, extended ▸ stands_unasked (.running job 0)⟩
  | running job polls =>
    obtain ⟨answers, taken⟩ := turn_polled service e index slice job s
    rw [answers, taken]
    generalize (service.poll job s).1 = answer
    have extended := exchanges_concat (e.asked index slice job polls) (.poll job answer)
    cases answer with
    | error cause => exact ⟨_, extended.symm, .notPolled job polls cause⟩
    | ok state =>
      cases state with
      | running =>
        have again : e.Reaches index slice _ _ := .running job (polls + 1)
        rw [Experiment.asked_succ] at again
        exact ⟨rfl, rfl, extended ▸ stands_unasked again⟩
      | finished => exact ⟨rfl, rfl, extended ▸ stands_unasked (.finished job polls)⟩
      | failed => exact ⟨_, extended.symm, .failed job polls⟩
      | cancelled => exact ⟨_, extended.symm, .cancelled job polls⟩
  | finished job polls =>
    obtain ⟨answers, taken⟩ := turn_fetched service e index slice job s
    rw [answers, taken]
    generalize (service.fetch job s).1 = answer
    have extended := exchanges_concat
      (e.asked index slice job polls ++ [.poll job (.ok .finished)]) (.fetch job answer)
    rw [List.append_assoc] at extended
    cases answer with
    | error cause => exact ⟨_, extended.symm, .notFetched job polls cause⟩
    | ok series =>
      -- A finished job may still have a series of which no return is shown.
      cases judged : judge e.verbose index job series with
      | error stop =>
        simp only [afterFetch, judged]
        exact ⟨_, extended.symm, .notJudged job polls judged⟩
      | ok outcome =>
        obtain ⟨analysis, total, analysed, returned, written, rfl⟩ := judge_eq_ok judged
        simp only [afterFetch, judged]
        exact ⟨_, extended.symm, .finished job polls analysed returned written⟩

/-- One turn carries the course of a fold on. -/
theorem continues_advance {e : Experiment} {events : List Event} (fold : Fold) (s : σ)
    (stands : e.Stands fold events) :
    e.Continues fold.index fold.slice (events ++ fold.events service e s)
      (fold.advance service e s).1 := by
  obtain ⟨calls, reached, rfl⟩ := stands
  cases asked : fold.asked with
  | false =>
    rw [Fold.pending, asked, if_neg Bool.false_ne_true, List.append_nil]
    exact continues_make service fold s asked reached
  | true =>
    rw [Fold.pending, asked, if_pos rfl]
    exact continues_takeUp service fold s asked reached

end Fold
end StrategySearch
