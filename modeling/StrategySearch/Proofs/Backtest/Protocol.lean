import StrategySearch.Proofs.Backtest.Outcomes

/-! Which calls an evaluation makes, and in which order.

The strategy is configured first and once, and never for a layout that is rejected. After that each
call belongs to a fold, and the calls of each fold follow the protocol of one job, however they
alternate with those of other folds and wherever the evaluation ends. That is said of the calls that
are made, whether they were answered or not.
-/

set_option autoImplicit false

namespace StrategySearch

variable {σ : Type} {e : Experiment} {log : List LogEntry}

theorem FoldPlan.slice_eq_ok_iff {plan : FoldPlan} {index : Nat} {slice : SymbolSlice} :
    plan.slice index = .ok slice ↔
      SymbolSlice.ofFold? plan.symbolSkip plan.symbolsPerFold index = some slice := by
  unfold FoldPlan.slice
  cases SymbolSlice.ofFold? plan.symbolSkip plan.symbolsPerFold index <;> simp

def Ask.isConfigure : Ask → Bool
  | .configure _ _ => true
  | _ => false

def Event.ask : Event → Ask
  | .made ask => ask
  | .answered call => call.ask

namespace Experiment

/-- The events of an evaluation obey its protocol. -/
structure Speaks (e : Experiment) (log : List LogEntry) : Prop where
  silent : ∀ cause, Evaluation.layout e.plan = .error cause → log = []
  configures : ∀ folds, Evaluation.layout e.plan = .ok folds → ∃ answer rest,
    log = ⟨none, .made (.configure e.strategy e.parameters)⟩ ::
        ⟨none, .answered (.configure e.strategy e.parameters answer)⟩ :: rest ∧
      (∀ cause, answer = .error cause → rest = []) ∧
      ∀ entry ∈ rest, entry.event.ask.isConfigure = false ∧
        ∃ i < e.plan.foldCount, entry.fold = some i
  folds : ∀ i slice,
    SymbolSlice.ofFold? e.plan.symbolSkip e.plan.symbolsPerFold i = some slice →
    KeepsProtocol (e.submission i slice) (eventsOf i log)

theorem FollowsProtocol.not_configure {submission : Submission} {calls : List Call} {call : Call}
    (follows : FollowsProtocol submission calls) (member : call ∈ calls) :
    call.ask.isConfigure = false := by
  rcases follows with rfl | ⟨cause, rfl⟩ | ⟨job, polls, rest, rfl, ends⟩
  · cases member
  · rw [List.mem_singleton.mp member]
    rfl
  · rcases List.mem_cons.mp member with rfl | member
    · rfl
    rcases List.mem_append.mp member with member | member
    · rw [List.eq_of_mem_replicate member]
      rfl
    rcases ends with rfl | ⟨answer, rfl⟩ | ⟨answer, rfl⟩
    · cases member
    · rw [List.mem_singleton.mp member]
      rfl
    · rcases List.mem_pair.mp member with rfl | rfl <;> rfl

theorem exists_call (ask : Ask) : ∃ call : Call, call.ask = ask := by
  cases ask with
  | configure strategy parameters => exact ⟨.configure strategy parameters (.ok ()), rfl⟩
  | submit submission => exact ⟨.submit submission (.error (.configuration "")), rfl⟩
  | poll job => exact ⟨.poll job (.ok .running), rfl⟩
  | fetch job => exact ⟨.fetch job (.ok []), rfl⟩

theorem KeepsProtocol.not_configure {submission : Submission} {events : List Event} {event : Event}
    (keeps : KeepsProtocol submission events) (member : event ∈ events) :
    event.ask.isConfigure = false := by
  obtain ⟨calls, follows, ends⟩ := keeps
  have answered : ∀ event ∈ exchanges calls, event.ask.isConfigure = false := by
    intro event member
    obtain ⟨call, inside, exchanged⟩ := List.mem_flatMap.mp member
    have silent := follows.not_configure inside
    rcases List.mem_pair.mp exchanged with rfl | rfl <;> exact silent
  rcases ends with rfl | ⟨ask, rfl, inFlight⟩
  · exact answered event member
  · rcases List.mem_append.mp member with member | member
    · exact answered event member
    · obtain ⟨call, rfl⟩ := exists_call ask
      rw [List.mem_singleton.mp member]
      exact (inFlight call rfl).not_configure (List.mem_append_right _ List.mem_cons_self)

end Experiment

theorem mem_eventsOf {entry : LogEntry} {i : Nat} (member : entry ∈ log)
    (own : entry.fold = some i) : entry.event ∈ eventsOf i log :=
  List.mem_map_of_mem (List.mem_filter.mpr ⟨member, beq_iff_eq.mpr own⟩)

theorem eventsOf_eq_nil {i : Nat} (strange : ∀ entry ∈ log, entry.fold ≠ some i) :
    eventsOf i log = [] := by
  rw [eventsOf, List.filter_eq_nil_iff.mpr, List.map_nil]
  exact fun entry member same => strange entry member (beq_iff_eq.mp same)

structure FoldsSpeak (e : Experiment) (log : List LogEntry) : Prop where
  owned : ∀ entry ∈ log, ∃ i < e.plan.foldCount, entry.fold = some i
  follow : ∀ i slice, e.plan.slice i = .ok slice →
    Experiment.KeepsProtocol (e.submission i slice) (eventsOf i log)

theorem Experiment.keepsProtocol_nil (submission : Submission) :
    KeepsProtocol submission [] :=
  ⟨[], .inl rfl, .inl rfl⟩

namespace Pool

theorem Accounts.foldsSpeak {pool : Pool} (accounts : Accounts e pool log) : FoldsSpeak e log := by
  refine ⟨accounts.folds, fun i slice found => ?_⟩
  by_cases inside : i < e.plan.foldCount
  · rcases List.mem_append.mp (accounts.indices.symm.subset (List.mem_range.mpr inside)) with
      waits | ended
    · obtain ⟨fold, member, rfl⟩ := List.mem_map.mp waits
      obtain ⟨found', stands⟩ := accounts.waiting fold member
      obtain rfl := Except.ok.inj (found.symm.trans found')
      exact stands.keepsProtocol
    · obtain ⟨outcome, member, rfl⟩ := List.mem_map.mp ended
      obtain ⟨slice', calls, found', exchanged, ends⟩ := accounts.outcomes outcome member
      obtain rfl := Except.ok.inj (found.symm.trans found')
      rw [exchanged]
      exact ends.followsProtocol.keeps
  · -- A number beyond the plan belongs to no fold that could call.
    rw [eventsOf_eq_nil]
    · exact Experiment.keepsProtocol_nil _
    intro entry member own
    obtain ⟨j, bound, own'⟩ := accounts.folds entry member
    exact inside (Option.some.inj (own'.symm.trans own) ▸ bound)

theorem Closes.foldsSpeak {answer : Answer (List FoldOutcome)} (closes : Closes e answer log) :
    FoldsSpeak e log := by
  cases closes with
  | complete accounts => exact accounts.foldsSpeak
  | exhausted accounts _ => exact accounts.foldsSpeak
  | @broken pool log fold last calls stop accounts waits exchanged breaks =>
    -- The last events are of the fold that broke; all other folds stay where they were.
    obtain ⟨found, -⟩ := accounts.waiting fold waits
    obtain ⟨owned, follow⟩ := accounts.foldsSpeak
    refine ⟨fun entry member => ?_, fun i slice found' => ?_⟩
    · rcases List.mem_append.mp member with old | new
      · exact owned entry old
      · obtain ⟨event, -, rfl⟩ := List.mem_map.mp new
        exact ⟨fold.index, accounts.index_lt waits, rfl⟩
    · rw [eventsOf_append]
      by_cases same : i = fold.index
      · subst same
        obtain rfl := Except.ok.inj (found.symm.trans found')
        rw [eventsOf_own, exchanged]
        exact breaks.followsProtocol.keeps
      · rw [eventsOf_other same, List.append_nil]
        exact follow i slice found'

end Pool

namespace Evaluation

variable {folds : List Fold}

theorem slice_of_layout (laid : layout e.plan = .ok folds) {i : Nat} (inside : i < e.plan.foldCount) :
    ∃ slice, e.plan.slice i = .ok slice := by
  have bound : i < folds.length := by
    rwa [← (layout_eq_ok laid).length_eq, List.length_range]
  exact ⟨folds[i].slice, (layout_getElem laid bound).1⟩

theorem speaks_configured (laid : layout e.plan = .ok folds) (speak : FoldsSpeak e log) :
    e.Speaks (configuring e (.ok ()) ++ log) := by
  refine ⟨fun cause refused => ?_, fun _ _ => ⟨_, log, rfl, fun _ failed => ?_, fun entry member => ?_⟩,
    fun i slice found => ?_⟩
  · cases laid.symm.trans refused
  · cases failed
  · obtain ⟨i, inside, own⟩ := speak.owned entry member
    obtain ⟨slice, found⟩ := slice_of_layout laid inside
    exact ⟨(speak.follow i slice found).not_configure (mem_eventsOf member own), i, inside, own⟩
  · exact speak.follow i slice (FoldPlan.slice_eq_ok_iff.mpr found)

theorem log_speaks (service : BacktestService (StateM σ)) (e : Experiment) (schedule : Schedule)
    (allowed : Nat) (s : σ) : e.Speaks (Evaluation.log service e schedule allowed s) := by
  cases laid : layout e.plan with
  | error cause =>
    rw [(run_refused laid).2]
    refine ⟨fun _ _ => rfl, fun folds accepted => ?_,
      fun _ _ _ => Experiment.keepsProtocol_nil _⟩
    cases laid.symm.trans accepted
  | ok folds =>
    obtain ⟨answer, after, configured⟩ := exists_configures service e s
    cases answer with
    | error cause =>
      rw [(run_notConfigured laid configured).2]
      refine ⟨fun cause refused => ?_, fun _ _ => ⟨_, [], rfl, fun _ _ => rfl, by simp⟩,
        fun _ _ _ => Experiment.keepsProtocol_nil _⟩
      cases laid.symm.trans refused
    | ok done =>
      rw [(run_configured laid configured).2]
      exact speaks_configured laid
        ((accounts_layout laid).run service schedule allowed 0 after).foldsSpeak

end Evaluation
end StrategySearch
