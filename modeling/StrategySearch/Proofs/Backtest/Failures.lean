import StrategySearch.Proofs.Backtest.Agreement
import StrategySearch.Proofs.Backtest.Protocol

/-! How an evaluation ends, told by its log.

An answer settles its fold or it does not, and that is seen from the answer alone: a job that failed
or whose series has a return gives the outcome, everything else that ends a fold stops the evaluation.
The first answer that stops it is the last event of the log, whatever the other folds had done by
then. They may have made calls while this one was in flight, but none is made when it is over; those
without an answer are dropped.
-/

set_option autoImplicit false

namespace StrategySearch

variable {σ : Type} {e : Experiment} {index : Nat} {slice : SymbolSlice}

def Call.verdict? (e : Experiment) (index : Nat) : Call → Option (Answer FoldOutcome)
  | .submit _ (.error cause) => some (Answer.refuse cause)
  | .poll _ (.error cause) => some (Answer.refuse cause)
  | .fetch _ (.error cause) => some (Answer.refuse cause)
  | .poll job (.ok .cancelled) => some (Answer.refuse (.cancelled job.text index))
  | .poll _ (.ok .failed) => some (.ok ⟨index, none⟩)
  | .fetch job (.ok series) => some (Fold.judge e.verbose index job series)
  | _ => none

def LogEntry.failure? (e : Experiment) (entry : LogEntry) : Option Failure :=
  match entry.fold.bind fun index => entry.event.answered?.bind (Call.verdict? e index) with
  | some (.error (.failure cause)) => some cause
  | _ => none

namespace Experiment

def Undecided (e : Experiment) (index : Nat) (calls : List Call) : Prop :=
  ∀ call ∈ calls, call.verdict? e index = none

/-- The last call settles the fold and no other one does. -/
def Decided (e : Experiment) (index : Nat) (calls : List Call) (verdict : Answer FoldOutcome) :
    Prop :=
  ∃ before last, calls = before ++ [last] ∧ last.verdict? e index = some verdict ∧
    e.Undecided index before

variable {calls : List Call} {verdict verdict' : Answer FoldOutcome}

theorem Undecided.append_singleton {last : Call} (undecided : e.Undecided index calls)
    (settles : last.verdict? e index = some verdict) : e.Decided index (calls ++ [last]) verdict :=
  ⟨calls, last, rfl, settles, undecided⟩

theorem Undecided.snoc {last : Call} (undecided : e.Undecided index calls)
    (open' : last.verdict? e index = none) : e.Undecided index (calls ++ [last]) := by
  intro call member
  rcases List.mem_append.mp member with member | member
  · exact undecided call member
  · rw [List.mem_singleton.mp member, open']

theorem Undecided.not_decided (undecided : e.Undecided index calls) :
    ¬ e.Decided index calls verdict := by
  rintro ⟨before, last, rfl, settles, -⟩
  rw [undecided last (List.mem_append_right _ List.mem_cons_self)] at settles
  cases settles

theorem Decided.unique (first : e.Decided index calls verdict)
    (second : e.Decided index calls verdict') : verdict = verdict' := by
  obtain ⟨before, last, rfl, settles, -⟩ := first
  obtain ⟨before', last', same, settles', -⟩ := second
  obtain ⟨-, same⟩ := List.append_inj' same rfl
  obtain rfl := List.head_eq_of_cons_eq same
  exact Option.some.inj (settles.symm.trans settles')

theorem undecided_asked (job : JobId) (polls : Nat) :
    e.Undecided index (e.asked index slice job polls) := by
  intro call member
  rcases List.mem_cons.mp member with rfl | member
  · rfl
  · rw [List.eq_of_mem_replicate member]
    rfl

theorem undecided_finished (job : JobId) (polls : Nat) :
    e.Undecided index (e.asked index slice job polls ++ [.poll job (.ok .finished)]) :=
  (undecided_asked job polls).snoc rfl

theorem Reaches.undecided {stage : FoldStage} (reached : e.Reaches index slice calls stage) :
    e.Undecided index calls := by
  cases reached with
  | ready => exact List.forall_mem_nil _
  | running job polls => exact undecided_asked job polls
  | finished job polls => exact undecided_finished job polls

theorem Concludes.decided {outcome : FoldOutcome} (ends : e.Concludes index slice calls outcome) :
    e.Decided index calls (.ok outcome) := by
  cases ends with
  | failed job polls => exact (undecided_asked job polls).append_singleton rfl
  | @finished job polls series analysis total analysed returned written =>
    have judged : Fold.judge e.verbose index job series = .ok ⟨index, some total⟩ := by
      simp only [Fold.judge, analysed, bind, Except.bind, returned, written]
      rfl
    rw [List.append_cons]
    exact (undecided_finished job polls).append_singleton (congrArg some judged)

/-- A fold stops the evaluation by its last call, or without any call for its number. -/
theorem Breaks.decided {stop : Stop} (breaks : e.Breaks index slice calls stop) :
    calls = [] ∧ stop = .fault ∨ e.Decided index calls (.error stop) := by
  cases breaks with
  | beyondBound => exact .inl ⟨rfl, rfl⟩
  | notSubmitted cause => exact .inr ⟨[], _, rfl, rfl, List.forall_mem_nil _⟩
  | notPolled job polls cause => exact .inr ((undecided_asked job polls).append_singleton rfl)
  | cancelled job polls => exact .inr ((undecided_asked job polls).append_singleton rfl)
  | notFetched job polls cause =>
    rw [List.append_cons]
    exact .inr ((undecided_finished job polls).append_singleton rfl)
  | notJudged job polls judged =>
    rw [List.append_cons]
    exact .inr ((undecided_finished job polls).append_singleton (congrArg some judged))

theorem Concludes.not_breaks {outcome : FoldOutcome} {stop : Stop}
    (ends : e.Concludes index slice calls outcome) : ¬ e.Breaks index slice calls stop := by
  intro breaks
  rcases breaks.decided with ⟨rfl, -⟩ | decided
  · obtain ⟨before, last, same, -⟩ := ends.decided
    simp at same
  · cases decided.unique ends.decided

end Experiment

variable {log : List LogEntry} {entry : LogEntry} {cause : Failure}

theorem mem_callsOf {call : Call} (member : entry ∈ log) (own : entry.fold = some index)
    (answered : entry.event = .answered call) : call ∈ callsOf index log :=
  List.mem_filterMap.mpr ⟨_, mem_eventsOf member own, by rw [answered]; rfl⟩

theorem LogEntry.failure?_eq_none (own : entry.fold = some index)
    (kept : ∀ call cause, entry.event = .answered call →
      call.verdict? e index ≠ some (.error (.failure cause))) :
    entry.failure? e = none := by
  rw [failure?, own, Option.bind_some]
  cases happened : entry.event with
  | made ask => rfl
  | answered call =>
    rw [Event.answered?, Option.bind_some]
    split
    · next cause settled => exact absurd settled (kept call cause happened)
    · rfl

theorem LogEntry.failure?_eq_some {call : Call}
    (fails : call.verdict? e index = some (.error (.failure cause))) :
    failure? e ⟨some index, .answered call⟩ = some cause := by
  rw [failure?, Option.bind_some, Event.answered?, Option.bind_some, fails]

theorem LogEntry.failure?_of_unowned (unowned : entry.fold = none) : entry.failure? e = none := by
  rw [failure?, unowned, Option.bind_none]

theorem Experiment.Undecided.failure?_eq_none {calls : List Call}
    (undecided : e.Undecided index calls) (own : entry.fold = some index)
    (inside : ∀ call, entry.event = .answered call → call ∈ calls) : entry.failure? e = none := by
  refine LogEntry.failure?_eq_none own fun call cause answered fails => ?_
  rw [undecided call (inside call answered)] at fails
  cases fails

theorem eventsOf_eq_concat {events : List Event} {event : Event}
    (ends : eventsOf index log = events ++ [event]) :
    ∃ before meanwhile, log = before ++ ⟨some index, event⟩ :: meanwhile ∧
      ∀ other ∈ meanwhile, other.fold ≠ some index := by
  induction log using List.reverseRecOn with
  | nil => simp [eventsOf] at ends
  | append_singleton rest last ih =>
    rw [eventsOf_append] at ends
    by_cases own : last.fold = some index
    · have mine : eventsOf index [last] = [last.event] := by simp [eventsOf, own]
      rw [mine] at ends
      obtain ⟨-, same⟩ := List.append_inj' ends rfl
      obtain rfl := List.head_eq_of_cons_eq same
      exact ⟨rest, [], by rw [← own], List.forall_mem_nil _⟩
    · have strange : eventsOf index [last] = [] := by simp [eventsOf, own]
      rw [strange, List.append_nil] at ends
      obtain ⟨before, meanwhile, rfl, others⟩ := ih ends
      refine ⟨before, meanwhile ++ [last], by simp, ?_⟩
      exact List.forall_mem_append.mpr ⟨others, List.forall_mem_singleton.mpr own⟩

/-- The last event of the log is the answer to a call of one fold, the first answer that fails its
fold and with this failure. Only other folds had turns while the call was in flight. -/
def Blames (e : Experiment) (log : List LogEntry) (cause : Failure) : Prop :=
  ∃ i slice before meanwhile call,
    log = before ++ ⟨some i, .made call.ask⟩ :: meanwhile ++ [⟨some i, .answered call⟩] ∧
    call.verdict? e i = some (Answer.refuse cause) ∧
    (∀ other ∈ before ++ meanwhile, other.failure? e = none) ∧
    (∀ other ∈ meanwhile, other.fold ≠ some i) ∧
    e.plan.slice i = .ok slice ∧ e.Breaks i slice (callsOf i log) (.failure cause)

theorem LogEntry.failure?_made (fold : Option Nat) (ask : Ask) :
    failure? e ⟨fold, .made ask⟩ = none := by
  cases fold <;> rfl

theorem Blames.findSome?_eq (blames : Blames e log cause) :
    log.findSome? (LogEntry.failure? e) = some cause := by
  obtain ⟨i, slice, before, meanwhile, call, rfl, fails, clean, -⟩ := blames
  refine List.findSome?_eq_some_iff.mpr ⟨_, _, [], rfl, LogEntry.failure?_eq_some fails, ?_⟩
  simp only [List.mem_append, List.mem_cons] at clean ⊢
  rintro other (earlier | rfl | later)
  · exact clean other (.inl earlier)
  · exact LogEntry.failure?_made _ _
  · exact clean other (.inr later)

namespace Pool

variable {pool : Pool} {answer : Answer (List FoldOutcome)}

theorem Accounts.clean (accounts : Accounts e pool log) :
    ∀ entry ∈ log, entry.failure? e = none := by
  intro entry member
  obtain ⟨i, inside, own⟩ := accounts.folds entry member
  have place := accounts.indices.symm.subset (List.mem_range.mpr inside)
  rcases List.mem_append.mp place with waits | ended
  · obtain ⟨fold, there, rfl⟩ := List.mem_map.mp waits
    have undecided := (accounts.waiting fold there).2.reaches.undecided
    exact undecided.failure?_eq_none own fun _ => mem_callsOf member own
  · obtain ⟨outcome, there, rfl⟩ := List.mem_map.mp ended
    obtain ⟨slice, calls, -, exchanged, ends⟩ := accounts.outcomes outcome there
    obtain ⟨before, last, split, settles, undecided⟩ := ends.decided
    refine LogEntry.failure?_eq_none own fun call cause answered fails => ?_
    have called := mem_callsOf member own answered
    rw [callsOf_eq exchanged, split] at called
    rcases List.mem_append.mp called with earlier | isLast
    · rw [undecided call earlier] at fails
      cases fails
    · -- The last call settles the fold, but with an outcome.
      rw [List.mem_singleton.mp isLast, settles] at fails
      cases fails

/-- A fold that breaks does so by the answer that it takes up last, and none before had failed. -/
theorem Accounts.breaks {fold : Fold} {last : List Event} {calls : List Call} {stop : Stop}
    (accounts : Accounts e pool log) (waits : fold ∈ pool.waiting)
    (exchanged : eventsOf fold.index log ++ last = exchanges calls)
    (breaks : e.Breaks fold.index fold.slice calls stop) :
    last = [] ∧ stop = .fault ∨
      ∃ before call earlier, last = earlier ++ [.answered call] ∧
        eventsOf fold.index log ++ earlier = exchanges before ++ [.made call.ask] ∧
        call.verdict? e fold.index = some (.error stop) ∧
        ∀ entry ∈ log ++ earlier.map (⟨some fold.index, ·⟩ : Event → LogEntry),
          entry.failure? e = none := by
  have reached := (accounts.waiting fold waits).2.reaches
  rcases breaks.decided with ⟨rfl, rfl⟩ | ⟨before, call, rfl, settles, undecided⟩
  · exact .inl ⟨(List.append_eq_nil_iff.mp exchanged).2, rfl⟩
  rcases List.eq_nil_or_concat last with rfl | ⟨earlier, event, rfl⟩
  · -- A fold that waits was undecided, so that it is a new answer that decides it.
    rw [List.append_nil] at exchanged
    rw [callsOf_eq exchanged] at reached
    exact absurd (undecided.append_singleton settles) reached.undecided.not_decided
  rw [List.concat_eq_append, exchanges_concat, ← List.append_assoc] at exchanged
  obtain ⟨events, same⟩ := List.append_inj' exchanged rfl
  obtain rfl := List.head_eq_of_cons_eq same
  refine .inr ⟨before, call, earlier, List.concat_eq_append, events, settles, fun entry member => ?_⟩
  rcases List.mem_append.mp member with old | new
  · exact accounts.clean entry old
  · obtain ⟨event, there, rfl⟩ := List.mem_map.mp new
    refine undecided.failure?_eq_none rfl fun other answered => ?_
    have among : event ∈ exchanges before ++ [.made call.ask] :=
      events ▸ List.mem_append_right _ there
    have is : event = .answered other := answered
    rw [is] at among
    rcases List.mem_append.mp among with inside | isLast
    · exact answered_mem_exchanges.mp inside
    · cases List.mem_singleton.mp isLast

section Broken

variable {fold : Fold} {last : List Event} {calls : List Call} {stop : Stop}

theorem Accounts.blames (accounts : Accounts e pool log) (waits : fold ∈ pool.waiting)
    (exchanged : eventsOf fold.index log ++ last = exchanges calls)
    (breaks : e.Breaks fold.index fold.slice calls (.failure cause)) :
    Blames e (log ++ last.map (⟨some fold.index, ·⟩)) cause := by
  obtain ⟨found, -⟩ := accounts.waiting fold waits
  rcases accounts.breaks waits exchanged breaks with
    ⟨-, impossible⟩ | ⟨done, call, earlier, rfl, events, settles, clean⟩
  · cases impossible
  have asks : eventsOf fold.index (log ++ earlier.map (⟨some fold.index, ·⟩)) =
      exchanges done ++ [.made call.ask] := by
    rw [eventsOf_append, eventsOf_own, events]
  obtain ⟨before, meanwhile, split, others⟩ := eventsOf_eq_concat asks
  refine ⟨fold.index, fold.slice, before, meanwhile, call, ?_, settles, ?_, others, found, ?_⟩
  · rw [List.map_append, ← List.append_assoc, split, List.map_singleton]
  · intro other member
    refine clean other (split ▸ ?_)
    rcases List.mem_append.mp member with inside | inside
    · exact List.mem_append_left _ inside
    · exact List.mem_append_right _ (List.mem_cons_of_mem _ inside)
  · rw [callsOf_eq]
    · exact breaks
    · rw [eventsOf_append, eventsOf_own, exchanged]

/-- A fault stops the run too, but it is no failure of the fold. -/
theorem Accounts.clean_of_breaks (accounts : Accounts e pool log) (waits : fold ∈ pool.waiting)
    (exchanged : eventsOf fold.index log ++ last = exchanges calls)
    (breaks : e.Breaks fold.index fold.slice calls stop) (fault : ∀ cause, stop ≠ .failure cause) :
    ∀ entry ∈ log ++ last.map (⟨some fold.index, ·⟩ : Event → LogEntry),
      entry.failure? e = none := by
  rcases accounts.breaks waits exchanged breaks with
    ⟨rfl, -⟩ | ⟨done, call, earlier, rfl, -, settles, clean⟩
  · rw [List.map_nil, List.append_nil]
    exact accounts.clean
  intro entry member
  rw [List.map_append, ← List.append_assoc] at member
  rcases List.mem_append.mp member with before | isLast
  · exact clean entry before
  · rw [List.map_singleton, List.mem_singleton] at isLast
    subst isLast
    refine LogEntry.failure?_eq_none rfl fun other cause answered fails => fault cause ?_
    cases answered
    exact Except.error.inj (Option.some.inj (settles.symm.trans fails))

end Broken

theorem Closes.blames_or_clean (closes : Closes e answer log) :
    (∃ cause, answer = .error (.failure cause) ∧ Blames e log cause) ∨
      (∀ cause, answer ≠ .error (.failure cause)) ∧ ∀ entry ∈ log, entry.failure? e = none := by
  cases closes with
  | complete accounts => exact .inr ⟨fun _ => by simp, accounts.clean⟩
  | exhausted accounts waits => exact .inr ⟨fun _ => by simp, accounts.clean⟩
  | @broken pool log fold last calls stop accounts waits exchanged breaks =>
    cases stop with
    | failure cause => exact .inl ⟨cause, rfl, accounts.blames waits exchanged breaks⟩
    | fault | unfinished =>
      refine .inr ⟨fun _ => by simp, accounts.clean_of_breaks waits exchanged breaks ?_⟩
      simp

end Pool

namespace Evaluation

def averaged (penalty : Decimal) (outcomes : List FoldOutcome) : Answer Evaluation :=
  match meanScore? penalty outcomes with
  | some objective => .ok ⟨objective, outcomes⟩
  | none => Answer.refuse (.invalid "fold scores cannot be averaged" (foldsText outcomes))

theorem ofPool_ok (penalty : Decimal) (outcomes : List FoldOutcome) :
    ofPool penalty (.ok outcomes) = averaged penalty (inOrder outcomes) := by
  simp only [ofPool, ofOutcomes, averaged]
  cases meanScore? penalty (inOrder outcomes) <;> rfl

theorem averaged_eq_ok {penalty : Decimal} {outcomes : List FoldOutcome} {evaluation : Evaluation}
    (ok : averaged penalty outcomes = .ok evaluation) : evaluation.folds = outcomes := by
  unfold averaged at ok
  split at ok
  · rw [← Except.ok.inj ok]
  · cases ok

theorem averaged_eq_error {penalty : Decimal} {outcomes : List FoldOutcome} {stop : Stop}
    (failed : averaged penalty outcomes = .error stop) : meanScore? penalty outcomes = none := by
  unfold averaged at failed
  split at failed
  · cases failed
  · next missing => exact missing

/-- How the log of an evaluation tells its answer, once the folds have started. -/
structure Settles (e : Experiment) (log : List LogEntry) (answer : Answer Evaluation) : Prop where
  succeeds : ∀ evaluation, answer = .ok evaluation →
    (∀ entry ∈ log, entry.failure? e = none) ∧ Concluded e log evaluation.folds
  blames : ∀ cause, log.findSome? (LogEntry.failure? e) = some cause →
    answer = .error (.failure cause) ∧ Blames e log cause
  fails : ∀ cause, answer = .error (.failure cause) →
    log.findSome? (LogEntry.failure? e) = some cause ∨
      ∃ outcomes, Concluded e log outcomes ∧ meanScore? e.plan.penalty outcomes = none
  averages : ∀ outcomes, Concluded e log outcomes → answer = averaged e.plan.penalty outcomes

variable {answer : Answer (List FoldOutcome)} {outcomes : List FoldOutcome}

theorem Concluded.complete (closes : Pool.Closes e answer log) (concluded : Concluded e log outcomes) :
    ofPool e.plan.penalty answer = averaged e.plan.penalty outcomes := by
  cases closes with
  | @complete unordered log accounts =>
    rw [ofPool_ok, (Concluded.of_accounts accounts).unique concluded]
  | exhausted accounts waits =>
    obtain ⟨found, stands⟩ := accounts.waiting _ waits
    obtain ⟨slice, outcome, found', -, ends⟩ := concluded.each _ (accounts.index_lt waits)
    obtain rfl := Except.ok.inj (found.symm.trans found')
    exact absurd ends.decided stands.reaches.undecided.not_decided
  | broken accounts waits exchanged breaks =>
    obtain ⟨found, -⟩ := accounts.waiting _ waits
    obtain ⟨slice, outcome, found', -, ends⟩ := concluded.each _ (accounts.index_lt waits)
    obtain rfl := Except.ok.inj (found.symm.trans found')
    rw [callsOf_eq (by rw [eventsOf_append, eventsOf_own, exchanged])] at ends
    exact absurd breaks ends.not_breaks

theorem Settles.of_closes (closes : Pool.Closes e answer log) :
    Settles e log (ofPool e.plan.penalty answer) := by
  have averages := fun outcomes (concluded : Concluded e log outcomes) =>
    concluded.complete closes
  rcases closes.blames_or_clean with ⟨cause, rfl, blames⟩ | ⟨kept, clean⟩
  · refine ⟨fun _ ok => ?_, fun other found => ?_, fun other same => ?_, averages⟩
    · cases ok
    · obtain rfl := Option.some.inj (blames.findSome?_eq.symm.trans found)
      exact ⟨rfl, blames⟩
    · obtain rfl := Stop.failure.inj (Except.error.inj same)
      exact .inl blames.findSome?_eq
  · -- No call has failed, so only the mean can be missing.
    refine ⟨fun evaluation ok => ⟨clean, ?_⟩, fun cause found => ?_, fun cause failed => ?_, averages⟩
    · obtain ⟨outcomes, rfl, -⟩ := ofPool_eq_ok ok
      cases closes with
      | complete accounts =>
        rw [ofPool_ok] at ok
        rw [averaged_eq_ok ok]
        exact .of_accounts accounts
    · obtain ⟨entry, member, fails⟩ := List.exists_of_findSome?_eq_some found
      rw [clean entry member] at fails
      cases fails
    · cases closes with
      | complete accounts =>
        rw [ofPool_ok] at failed
        exact .inr ⟨_, .of_accounts accounts, averaged_eq_error failed⟩
      | exhausted => cases failed
      | broken =>
        obtain rfl := Except.error.inj failed
        exact absurd rfl (kept cause)

theorem Settles.append_unowned {others : List LogEntry} {answer : Answer Evaluation}
    (unowned : ∀ entry ∈ others, entry.fold = none) (settles : Settles e log answer) :
    Settles e (others ++ log) answer := by
  have silent : ∀ entry ∈ others, entry.failure? e = none := fun entry member =>
    LogEntry.failure?_of_unowned (unowned entry member)
  have calls : ∀ i, callsOf i (others ++ log) = callsOf i log := by
    intro i
    rw [callsOf, eventsOf_append, eventsOf_eq_nil, List.nil_append, callsOf]
    intro entry member own
    rw [unowned entry member] at own
    cases own
  have concluded : ∀ {outcomes}, Concluded e (others ++ log) outcomes ↔ Concluded e log outcomes :=
    ⟨fun all => ⟨all.count, fun i => calls i ▸ all.each i⟩,
      fun all => ⟨all.count, fun i => (calls i).symm ▸ all.each i⟩⟩
  have found : (others ++ log).findSome? (LogEntry.failure? e) =
      log.findSome? (LogEntry.failure? e) := by
    rw [List.findSome?_append, List.findSome?_eq_none_iff.mpr silent, Option.none_or]
  refine ⟨fun evaluation ok => ?_, fun cause fails => ?_, fun cause failed => ?_,
    fun outcomes all => settles.averages outcomes (concluded.mp all)⟩
  · obtain ⟨clean, all⟩ := settles.succeeds evaluation ok
    exact ⟨List.forall_mem_append.mpr ⟨silent, clean⟩, concluded.mpr all⟩
  · obtain ⟨same, i, slice, before, meanwhile, call, whole, blamed, clean, rest⟩ :=
      settles.blames cause (found ▸ fails)
    refine ⟨same, i, slice, others ++ before, meanwhile, call, ?_, blamed, ?_, ?_⟩
    · rw [whole, List.append_assoc, List.append_assoc, List.append_assoc]
    · rw [List.append_assoc]
      exact List.forall_mem_append.mpr ⟨silent, clean⟩
    · rw [calls]
      exact rest
  · rw [found]
    rcases settles.fails cause failed with blamed | ⟨outcomes, all, missing⟩
    · exact .inl blamed
    · exact .inr ⟨outcomes, concluded.mpr all, missing⟩

theorem configuring_unowned (answer : Except Failure Unit) :
    ∀ entry ∈ configuring e answer, entry.fold = none := by
  simp [configuring]

/-- Once the strategy is configured, the first answer that fails its fold is the last event of all
and gives the failure of the evaluation, whatever the other folds have done. So no call is made when
the last call of that fold is over. Without such an answer the evaluation fails only for scores that
have no mean. -/
theorem run_settles (service : BacktestService (StateM σ)) (schedule : Schedule) (allowed : Nat)
    {folds : List Fold} {s s' : σ} (laid : layout e.plan = .ok folds)
    (configured : Configures service e s (.ok ()) s') :
    run service.recorded e schedule allowed (s, []) =
        ((run service e schedule allowed s).1, ((run service e schedule allowed s).2,
          (Evaluation.log service e schedule allowed s).map (·.event))) ∧
      Settles e (Evaluation.log service e schedule allowed s) (run service e schedule allowed s).1 := by
  refine ⟨?_, ?_⟩
  · rw [run_recorded, List.nil_append]
  · rw [(run_configured laid configured).1, (run_configured laid configured).2]
    exact (Settles.of_closes ((accounts_layout laid).run service schedule allowed 0 s')).append_unowned
      (configuring_unowned _)

section Cancellation

def thirdCancelled : BacktestService (StateM Unit) where
  hear _ := pure ()
  configure _ _ _ := (.ok (), ())
  submit submission _ :=
    (.ok ⟨submission.slice.skip % 3, Nat.lt_trans (Nat.mod_lt _ (by decide)) (by decide)⟩, ())
  poll job _ := (.ok ([.failed, .running].getD job.number .cancelled), ())
  fetch _ _ := (.ok [], ())

def triple : Experiment := { pair with plan := { pair.plan with foldCount := 3 } }

/-- While the third fold waits for its last answer, the first one ends and the second one makes one
more call. The answer is that the third job was cancelled, and the call of the second is dropped. -/
theorem run_settles_cancelled :
    let log := Evaluation.log thirdCancelled triple id 14 ()
    let third : JobId := ⟨2, by decide⟩
    (run thirdCancelled triple id 14 ()).1 = Answer.refuse (.cancelled third.text 2) ∧
      Blames triple log (.cancelled third.text 2) ∧
      triple.Concludes 0 ⟨0, 1⟩ (callsOf 0 log) ⟨0, none⟩ ∧
      triple.Stands ⟨1, ⟨1, 1⟩, .running ⟨1, by decide⟩, true⟩ (eventsOf 1 log) := by
  intro log third
  have laid : layout triple.plan = .ok [⟨0, ⟨0, 1⟩, .ready, false⟩, ⟨1, ⟨1, 1⟩, .ready, false⟩,
      ⟨2, ⟨2, 1⟩, .ready, false⟩] := by
    decide
  have found : log.findSome? (LogEntry.failure? triple) = some (.cancelled third.text 2) := by
    rfl
  obtain ⟨-, settles⟩ := run_settles thirdCancelled id 14 laid (s := ()) rfl
  obtain ⟨answer, blamed⟩ := settles.blames _ found
  exact ⟨answer, blamed, .failed ⟨0, by decide⟩ 0, _, .running ⟨1, by decide⟩ 1, rfl⟩

end Cancellation

end Evaluation

end StrategySearch
