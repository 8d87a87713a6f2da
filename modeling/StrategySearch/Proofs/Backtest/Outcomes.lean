import StrategySearch.Proofs.Backtest.Accounts
import StrategySearch.Proofs.Pointwise

/-! What an evaluation returns.

The folds of a successful evaluation are exactly those of its plan, in their order, each with the
outcome of its own job, and the objective is the mean score of that list.
-/

set_option autoImplicit false

namespace StrategySearch

variable {σ : Type}

namespace Evaluation

section Layout

variable {plan : FoldPlan} {folds : List Fold}

def layoutInOrder (plan : FoldPlan) : Except Failure (List Fold) :=
  (List.range plan.foldCount).mapM fun index =>
    (plan.slice index).map fun slice => ⟨index, slice, .ready, false⟩

theorem slice_eq_ok_of_lt {index : Nat} (inside : index < plan.capacity) :
    ∃ slice, plan.slice index = .ok slice := by
  obtain ⟨slice, found⟩ := Option.isSome_iff_exists.mp
    ((SymbolSlice.ofFold?_isSome_iff plan.symbolSkip plan.symbolsPerFold index).mpr inside)
  exact ⟨slice, by rw [FoldPlan.slice, found]⟩

theorem slice_capacity (plan : FoldPlan) : ∃ cause, plan.slice plan.capacity = .error cause := by
  have outside := mt (SymbolSlice.ofFold?_isSome_iff plan.symbolSkip plan.symbolsPerFold
    plan.capacity).mp (Nat.lt_irrefl _)
  rw [Option.not_isSome_iff_eq_none] at outside
  exact ⟨_, by rw [FoldPlan.slice, outside]⟩

/-- The fold that is judged before all others is the first without symbols, or the last one of a
plan whose folds all have them. So the layout is refused for the same fold as without it. -/
theorem layout_eq (plan : FoldPlan) :
    layout plan =
      if plan.foldCount = 0 then .error (.configuration "fold count must be at least 1")
      else layoutInOrder plan := by
  unfold layout
  split
  · rfl
  next folds =>
  rcases Nat.lt_or_ge plan.capacity plan.foldCount with few | all
  · -- The fold at the capacity is the first without symbols; no fold behind it is looked at.
    obtain ⟨cause, refused⟩ := slice_capacity plan
    obtain ⟨later, count⟩ : ∃ later, plan.foldCount = plan.capacity + (later + 1) :=
      ⟨plan.foldCount - plan.capacity - 1, by omega⟩
    have split : List.range plan.foldCount = List.range plan.capacity ++
        plan.capacity :: (List.range later).map (plan.capacity + 1 + ·) := by
      rw [count, List.range_add, List.range_succ_eq_map]
      simp [Nat.add_assoc, Nat.add_comm 1]
    have inOrder : layoutInOrder plan = .error cause := by
      rw [layoutInOrder, split]
      refine mapM_append_cons_eq_error (fun index member => ?_) (by rw [refused]; rfl)
      obtain ⟨slice, found⟩ := slice_eq_ok_of_lt (List.mem_range.mp member)
      exact ⟨_, by rw [found]; rfl⟩
    rw [inOrder, Nat.min_eq_left (by omega), refused]
    rfl
  · obtain ⟨slice, found⟩ := slice_eq_ok_of_lt (show plan.foldCount - 1 < plan.capacity by omega)
    rw [Nat.min_eq_right (by omega), found]
    rfl

theorem layout_eq_ok (laid : layout plan = .ok folds) :
    List.Forall₂ (fun i fold => plan.slice i = .ok fold.slice ∧ fold.index = i ∧
      fold.stage = .ready ∧ fold.asked = false) (List.range plan.foldCount) folds := by
  rw [layout_eq] at laid
  split at laid
  · cases laid
  · refine (mapM_eq_ok_iff.mp laid).imp fun i fold made => ?_
    cases found : plan.slice i with
    | error cause => simp [found, Except.map] at made
    | ok slice =>
      obtain rfl : _ = fold := Except.ok.inj (found ▸ made)
      exact ⟨rfl, rfl, rfl, rfl⟩

theorem layout_getElem (laid : layout plan = .ok folds) {i : Nat} (bound : i < folds.length) :
    plan.slice i = .ok folds[i].slice ∧ folds[i].index = i ∧ folds[i].stage = .ready ∧
      folds[i].asked = false := by
  have same := layout_eq_ok laid
  simpa using same.get (same.length_eq ▸ bound) bound

theorem layout_indices (laid : layout plan = .ok folds) :
    folds.map (·.index) = List.range plan.foldCount := by
  have same := (layout_eq_ok laid).imp fun i fold ⟨_, index, _⟩ => index.symm
  exact (List.forall₂_eq_eq_eq ▸ List.forall₂_map_right_iff.mpr same :
    List.range plan.foldCount = folds.map (·.index)).symm

theorem accounts_layout {e : Experiment} (laid : layout e.plan = .ok folds) :
    Pool.Accounts e ⟨folds, []⟩ [] := by
  refine ⟨?_, fun fold member => ?_, by simp, by simp⟩
  · simp only [List.map_nil, List.append_nil, layout_indices laid, List.Perm.refl]
  · obtain ⟨i, bound, rfl⟩ := List.getElem_of_mem member
    obtain ⟨slice, index, stage, unasked⟩ := layout_getElem laid bound
    refine ⟨by rw [index]; exact slice, [], ?_, ?_⟩
    · rw [stage]
      exact .ready
    · rw [Fold.pending, unasked]
      rfl

end Layout

theorem inOrder_indices {outcomes : List FoldOutcome} {count : Nat}
    (all : (outcomes.map (·.index)).Perm (List.range count)) :
    (inOrder outcomes).map (·.index) = List.range count := by
  have sorted : ((inOrder outcomes).map (·.index)).Pairwise (· ≤ ·) := by
    refine List.pairwise_map.mpr ((List.pairwise_mergeSort ?_ ?_ outcomes).imp ?_)
    · intro a b c first second
      simp only [decide_eq_true_eq] at first second ⊢
      omega
    · intro a b
      simp only [Bool.or_eq_true, decide_eq_true_eq]
      omega
    · exact fun le => of_decide_eq_true le
  -- Both are in order and hold the same numbers.
  refine List.Perm.eq_of_pairwise (fun a b _ _ le ge => Nat.le_antisymm le ge) sorted
    List.pairwise_le_range ?_
  exact ((List.mergeSort_perm _ _).map _).trans all

def log (service : BacktestService (StateM σ)) (e : Experiment) (schedule : Schedule)
    (allowed : Nat) (s : σ) : List LogEntry :=
  match layout e.plan with
  | .error _ => []
  | .ok folds =>
    let s := (service.hear (.configure e.strategy e.parameters) s).2
    let (answer, s) := service.configure e.strategy e.parameters s
    ⟨none, .made (.configure e.strategy e.parameters)⟩ ::
      ⟨none, .answered (.configure e.strategy e.parameters answer)⟩ ::
      match answer with
      | .error _ => []
      | .ok () => Pool.log service e schedule allowed 0 ⟨folds, []⟩ s

def Configures (service : BacktestService (StateM σ)) (e : Experiment) (s : σ)
    (answer : Except Failure Unit) (s' : σ) : Prop :=
  service.configure e.strategy e.parameters
    (service.hear (.configure e.strategy e.parameters) s).2 = (answer, s')

def configuring (e : Experiment) (answer : Except Failure Unit) : List LogEntry :=
  [⟨none, .made (.configure e.strategy e.parameters)⟩,
    ⟨none, .answered (.configure e.strategy e.parameters answer)⟩]

variable {service : BacktestService (StateM σ)} {e : Experiment} {schedule : Schedule}
  {allowed : Nat} {s s' : σ}

theorem exists_configures (service : BacktestService (StateM σ)) (e : Experiment) (s : σ) :
    ∃ answer s', Configures service e s answer s' := ⟨_, _, rfl⟩

theorem Configures.bind {α : Type} {answer : Except Failure Unit}
    (configured : Configures service e s answer s') (next : Except Failure Unit → StateM σ α) :
    (do
      service.hear (.configure e.strategy e.parameters)
      next (← service.configure e.strategy e.parameters)) s = next answer s' :=
  congrArg (fun after : Except Failure Unit × σ => next after.1 after.2) configured

/-! An evaluation and its log, by how far it gets. -/

theorem run_refused {cause : Failure} (laid : layout e.plan = .error cause) :
    run service e schedule allowed s = (Answer.refuse cause, s) ∧
      log service e schedule allowed s = [] := by
  constructor
  · simp only [run, laid]
    rfl
  · simp only [log, laid]

theorem run_notConfigured {folds : List Fold} {cause : Failure}
    (laid : layout e.plan = .ok folds) (configured : Configures service e s (.error cause) s') :
    run service e schedule allowed s = (Answer.refuse cause, s') ∧
      log service e schedule allowed s = configuring e (.error cause) := by
  constructor
  · simp only [run, laid]
    exact configured.bind _
  · unfold Configures at configured
    simp only [log, laid, configured, configuring]

def ofPool (penalty : Decimal) : Answer (List FoldOutcome) → Answer Evaluation
  | .error stop => .error stop
  | .ok outcomes => Answer.ofExcept (ofOutcomes penalty outcomes)

theorem run_configured {folds : List Fold} (laid : layout e.plan = .ok folds)
    (configured : Configures service e s (.ok ()) s') :
    run service e schedule allowed s =
        (ofPool e.plan.penalty (Pool.run service e schedule allowed 0 ⟨folds, []⟩ s').1,
          (Pool.run service e schedule allowed 0 ⟨folds, []⟩ s').2) ∧
      log service e schedule allowed s =
        configuring e (.ok ()) ++ Pool.log service e schedule allowed 0 ⟨folds, []⟩ s' := by
  constructor
  · simp only [run, laid]
    refine (configured.bind _).trans ?_
    simp only [bind, StateT.bind]
    cases Pool.run service e schedule allowed 0 ⟨folds, []⟩ s' with
    | mk answer after => cases answer <;> rfl
  · unfold Configures at configured
    simp only [log, laid, configured, configuring, List.cons_append, List.nil_append]

theorem configures_recorded {answer : Except Failure Unit} (earlier : List Event)
    (configured : Configures service e s answer s') :
    Configures service.recorded e (s, earlier) answer
      (s', earlier ++ (configuring e answer).map (·.event)) := by
  unfold Configures at configured ⊢
  simp only [BacktestService.recorded, BacktestService.record_apply, configured, configuring,
    List.append_assoc, List.map_cons, List.map_nil, List.singleton_append]

/-- With a service that keeps a record an evaluation goes the same way, and the record is its log. -/
theorem run_recorded (service : BacktestService (StateM σ)) (e : Experiment) (schedule : Schedule)
    (allowed : Nat) (s : σ) (earlier : List Event) :
    run service.recorded e schedule allowed (s, earlier) =
      ((run service e schedule allowed s).1,
        ((run service e schedule allowed s).2,
          earlier ++ (log service e schedule allowed s).map (·.event))) := by
  cases laid : layout e.plan with
  | error cause =>
    rw [(run_refused laid).1, (run_refused laid).1, (run_refused laid).2, List.map_nil,
      List.append_nil]
  | ok folds =>
    obtain ⟨answer, after, configured⟩ := exists_configures service e s
    have recorded := configures_recorded earlier configured
    cases answer with
    | error cause =>
      rw [(run_notConfigured laid recorded).1, (run_notConfigured laid configured).1,
        (run_notConfigured laid configured).2]
    | ok done =>
      rw [(run_configured laid recorded).1, (run_configured laid configured).1,
        (run_configured laid configured).2, Pool.run_recorded, List.map_append, List.append_assoc]

/-- Every fold has ended where the calls of its own job led, listed in the order of the folds. -/
structure Concluded (e : Experiment) (log : List LogEntry) (outcomes : List FoldOutcome) :
    Prop where
  count : outcomes.length = e.plan.foldCount
  each : ∀ i < e.plan.foldCount, ∃ slice outcome, e.plan.slice i = .ok slice ∧
    outcomes[i]? = some outcome ∧ e.Concludes i slice (callsOf i log) outcome

theorem Concluded.of_accounts {log : List LogEntry} {outcomes : List FoldOutcome}
    (accounts : Pool.Accounts e ⟨[], outcomes⟩ log) : Concluded e log (inOrder outcomes) := by
  have indices := inOrder_indices accounts.indices
  have count : (inOrder outcomes).length = e.plan.foldCount := by
    simpa using congrArg List.length indices
  refine ⟨count, fun i inside => ?_⟩
  have bound : i < (inOrder outcomes).length := count ▸ inside
  have index : (inOrder outcomes)[i].index = i := by
    simpa [bound, inside] using congrArg (·[i]?) indices
  have member := (List.mergeSort_perm _ _).subset (List.getElem_mem bound)
  obtain ⟨slice, calls, found, exchanged, ends⟩ := accounts.outcomes _ member
  rw [index] at found exchanged ends
  exact ⟨slice, _, found, List.getElem?_eq_getElem bound, callsOf_eq exchanged ▸ ends⟩

theorem Concluded.unique {log : List LogEntry} {outcomes outcomes' : List FoldOutcome}
    (first : Concluded e log outcomes) (second : Concluded e log outcomes') :
    outcomes = outcomes' := by
  refine List.ext_getElem? fun i => ?_
  by_cases inside : i < e.plan.foldCount
  · obtain ⟨slice, outcome, found, reported, ends⟩ := first.each i inside
    obtain ⟨slice', outcome', found', reported', ends'⟩ := second.each i inside
    obtain rfl := Except.ok.inj (found.symm.trans found')
    rw [reported, reported', ends.functional ends']
  · rw [List.getElem?_eq_none (first.count ▸ Nat.not_lt.mp inside),
      List.getElem?_eq_none (second.count ▸ Nat.not_lt.mp inside)]

/-- What a successful evaluation returns: fold by fold where the calls of its own job led, and the
mean of their scores in this order. -/
structure Reports (e : Experiment) (log : List LogEntry) (evaluation : Evaluation) : Prop where
  count : evaluation.folds.length = e.plan.foldCount
  each : ∀ i < e.plan.foldCount, ∃ slice outcome, e.plan.slice i = .ok slice ∧
    evaluation.folds[i]? = some outcome ∧ outcome.index = i ∧
    e.Concludes i slice (callsOf i log) outcome
  objective : meanScore? e.plan.penalty evaluation.folds = some evaluation.objective

variable {evaluation : Evaluation}

theorem ofOutcomes_eq_ok {penalty : Decimal} {outcomes : List FoldOutcome}
    (averaged : ofOutcomes penalty outcomes = .ok evaluation) :
    meanScore? penalty (inOrder outcomes) = some evaluation.objective ∧
      evaluation.folds = inOrder outcomes := by
  unfold ofOutcomes at averaged
  cases mean : meanScore? penalty (inOrder outcomes) with
  | none => simp [mean] at averaged
  | some objective =>
    simp only [mean, Except.ok.injEq] at averaged
    subst averaged
    exact ⟨rfl, rfl⟩

theorem ofPool_eq_ok {penalty : Decimal} {answer : Answer (List FoldOutcome)}
    (ok : ofPool penalty answer = .ok evaluation) :
    ∃ outcomes, answer = .ok outcomes ∧ ofOutcomes penalty outcomes = .ok evaluation := by
  cases answer with
  | error stop => cases ok
  | ok outcomes =>
    cases averaged : ofOutcomes penalty outcomes with
    | error cause => simp [ofPool, averaged, Answer.ofExcept] at ok
    | ok evaluation' =>
      simp only [ofPool, averaged, Answer.ofExcept, Except.ok.injEq] at ok
      exact ⟨outcomes, rfl, ok ▸ averaged⟩

theorem Reports.of_accounts {log : List LogEntry} {outcomes : List FoldOutcome}
    (accounts : Pool.Accounts e ⟨[], outcomes⟩ log)
    (averaged : ofOutcomes e.plan.penalty outcomes = .ok evaluation) :
    Reports e log evaluation := by
  obtain ⟨mean, folds⟩ := ofOutcomes_eq_ok averaged
  have concluded := Concluded.of_accounts accounts
  rw [← folds] at mean concluded
  refine ⟨concluded.count, fun i inside => ?_, mean⟩
  obtain ⟨slice, outcome, found, reported, ends⟩ := concluded.each i inside
  exact ⟨slice, outcome, found, reported, ends.index_eq, ends⟩

theorem Reports.of_run (ran : (run service e schedule allowed s).1 = .ok evaluation) :
    Reports e (log service e schedule allowed s) evaluation := by
  cases laid : layout e.plan with
  | error cause => simp [(run_refused laid).1, Answer.refuse] at ran
  | ok folds =>
    obtain ⟨answer, after, configured⟩ := exists_configures service e s
    cases answer with
    | error cause => simp [(run_notConfigured laid configured).1, Answer.refuse] at ran
    | ok done =>
      rw [(run_configured laid configured).1] at ran
      rw [(run_configured laid configured).2]
      have closes := (accounts_layout laid).run service schedule allowed 0 after
      obtain ⟨outcomes, ended, averaged⟩ := ofPool_eq_ok ran
      rw [ended] at closes
      cases closes with
      | complete accounts =>
        -- The configuring call belongs to no fold.
        obtain ⟨count, each, objective⟩ := Reports.of_accounts accounts averaged
        exact ⟨count, each, objective⟩

end Evaluation
end StrategySearch
