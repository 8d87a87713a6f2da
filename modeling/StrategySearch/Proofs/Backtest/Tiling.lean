import Mathlib.Order.Interval.Set.Disjoint
import StrategySearch.Proofs.Backtest.Failures
import StrategySearch.Proofs.Portfolio.Faults
import StrategySearch.Proofs.Portfolio.Refusals

/-! How the folds of a plan share out its symbols.

The slices follow one another without gaps, so that all of them lie within the symbol range as soon
as the last one ends in it. An evaluation of such a plan has all of its folds, and if it fails for a
wrong configuration then the service has said so.
-/

set_option autoImplicit false

namespace StrategySearch

namespace SymbolSlice

def symbols (slice : SymbolSlice) : Set Nat := Set.Ico slice.skip (slice.skip + slice.take)

/-- Slices from the first number up to the second, each from where the one before it ends. -/
inductive Covers : Nat → List SymbolSlice → Nat → Prop where
  | nil {start : Nat} : Covers start [] start
  | cons {start stop : Nat} {slice : SymbolSlice} {rest : List SymbolSlice} :
      slice.skip = start → Covers (start + slice.take) rest stop → Covers start (slice :: rest) stop

variable {slice : SymbolSlice} {slices slices' : List SymbolSlice} {start middle stop : Nat}

theorem mem_symbols {n : Nat} : n ∈ slice.symbols ↔ slice.skip ≤ n ∧ n < slice.skip + slice.take :=
  Iff.rfl

namespace Covers

theorem append (first : Covers start slices middle) (rest : Covers middle slices' stop) :
    Covers start (slices ++ slices') stop := by
  induction first with
  | nil => exact rest
  | cons begins _ ih => exact .cons begins (ih rest)

theorem start_le_stop (covers : Covers start slices stop) : start ≤ stop := by
  induction covers with
  | nil => exact Nat.le_refl _
  | cons _ _ ih => omega

theorem bounds (covers : Covers start slices stop) (member : slice ∈ slices) :
    start ≤ slice.skip ∧ slice.skip + slice.take ≤ stop := by
  induction covers with
  | nil => cases member
  | cons begins rest ih =>
    rcases List.mem_cons.mp member with rfl | later
    · have := rest.start_le_stop
      omega
    · have := ih later
      omega

theorem consecutive (covers : Covers start slices stop) :
    slices.IsChain fun a b => b.skip = a.skip + a.take := by
  induction covers with
  | nil => exact .nil
  | cons begins rest ih =>
    cases rest with
    | nil => exact .singleton _
    | cons next _ => exact .cons_cons (by rw [next, begins]) ih

theorem disjoint (covers : Covers start slices stop) :
    slices.Pairwise fun a b => Disjoint a.symbols b.symbols := by
  induction covers with
  | nil => exact .nil
  | cons begins rest ih =>
    apply List.Pairwise.cons _ ih
    intro later member
    have after := rest.bounds member
    apply Set.disjoint_left.mpr
    intro n own other
    rw [mem_symbols] at own other
    omega

theorem mem_iff (covers : Covers start slices stop) (n : Nat) :
    (∃ slice ∈ slices, n ∈ slice.symbols) ↔ start ≤ n ∧ n < stop := by
  induction covers with
  | nil => simp
  | cons begins rest ih =>
    have := rest.start_le_stop
    rw [List.exists_mem_cons_iff, ih, mem_symbols]
    omega

end Covers
end SymbolSlice

namespace FoldPlan

def share (plan : FoldPlan) (index : Nat) : SymbolSlice :=
  ⟨plan.symbolsPerFold * index + plan.symbolSkip, plan.symbolsPerFold⟩

def Fits (plan : FoldPlan) : Prop :=
  plan.symbolSkip + plan.foldCount * plan.symbolsPerFold < symbolBound

structure Tiles (plan : FoldPlan) (slices : List SymbolSlice) : Prop where
  each : List.Forall₂ (fun i slice => plan.slice i = .ok slice) (List.range plan.foldCount) slices
  consecutive : slices.IsChain fun a b => b.skip = a.skip + a.take
  disjoint : slices.Pairwise fun a b => Disjoint a.symbols b.symbols
  bounded : ∀ slice ∈ slices, slice.skip + slice.take < symbolBound
  covers : ∀ n, (∃ slice ∈ slices, n ∈ slice.symbols) ↔
    plan.symbolSkip ≤ n ∧ n < plan.symbolSkip + plan.foldCount * plan.symbolsPerFold

variable {plan : FoldPlan} {index : Nat}

theorem covers_share (plan : FoldPlan) (count : Nat) :
    SymbolSlice.Covers plan.symbolSkip ((List.range count).map plan.share)
      (plan.symbolSkip + count * plan.symbolsPerFold) := by
  induction count with
  | zero => simpa using .nil
  | succ count ih =>
    rw [List.range_succ, List.map_append, List.map_singleton, Nat.succ_mul, ← Nat.add_assoc]
    apply ih.append
    apply SymbolSlice.Covers.cons _ .nil
    rw [share, Nat.mul_comm, Nat.add_comm]

theorem ofFold?_eq (some : 0 < plan.symbolsPerFold) (index : Nat) :
    SymbolSlice.ofFold? plan.symbolSkip plan.symbolsPerFold index =
      if plan.symbolSkip + (index + 1) * plan.symbolsPerFold < symbolBound
      then Option.some (plan.share index) else none := by
  have grows : index + 1 ≤ (index + 1) * plan.symbolsPerFold := Nat.le_mul_of_pos_right _ some
  have ends : plan.symbolsPerFold * index + plan.symbolSkip + plan.symbolsPerFold =
      plan.symbolSkip + (index + 1) * plan.symbolsPerFold := by
    rw [Nat.add_mul, Nat.mul_comm]
    omega
  rw [SymbolSlice.ofFold?_eq_ite, ends]
  apply if_congr _ rfl rfl
  omega

theorem ofFold?_last_isNone_iff (some : 0 < plan.symbolsPerFold) (folds : 0 < plan.foldCount) :
    (SymbolSlice.ofFold? plan.symbolSkip plan.symbolsPerFold (plan.foldCount - 1)).isNone ↔
      ¬ plan.Fits := by
  rw [ofFold?_eq some, Nat.sub_add_cancel folds, Fits]
  split <;> simp_all

theorem slice_eq (some : 0 < plan.symbolsPerFold) (fits : plan.Fits) (inside : index < plan.foldCount) :
    plan.slice index = .ok (plan.share index) := by
  have earlier : (index + 1) * plan.symbolsPerFold ≤ plan.foldCount * plan.symbolsPerFold :=
    Nat.mul_le_mul_right _ inside
  rw [Fits] at fits
  rw [slice, ofFold?_eq some, if_pos (by omega)]

theorem Fits.tiles (fits : plan.Fits) (some : 0 < plan.symbolsPerFold) :
    plan.Tiles ((List.range plan.foldCount).map plan.share) := by
  have covers := covers_share plan plan.foldCount
  refine ⟨?_, covers.consecutive, covers.disjoint, fun slice member => ?_, covers.mem_iff⟩
  · rw [List.forall₂_map_right_iff, List.forall₂_same]
    intro index member
    exact slice_eq some fits (List.mem_range.mp member)
  · have := covers.bounds member
    rw [Fits] at fits
    omega

theorem Fits.layout_eq (fits : plan.Fits) (some : 0 < plan.symbolsPerFold)
    (folds : 0 < plan.foldCount) :
    Evaluation.layout plan =
      .ok ((List.range plan.foldCount).map fun i => ⟨i, plan.share i, .ready, false⟩) := by
  rw [Evaluation.layout_eq, if_neg (Nat.ne_of_gt folds)]
  apply mapM_eq_ok_iff.mpr
  rw [List.forall₂_map_right_iff, List.forall₂_same]
  intro index member
  rw [slice_eq some fits (List.mem_range.mp member)]
  rfl

end FoldPlan

def Call.error? : Call → Option Failure
  | .configure _ _ (.error cause) | .submit _ (.error cause) | .poll _ (.error cause)
  | .fetch _ (.error cause) => some cause
  | _ => none

def Event.error? (event : Event) : Option Failure := event.answered?.bind Call.error?

variable {σ : Type} {e : Experiment} {reason : String}

theorem Fold.judge_validates {verbose : Bool} {index : Nat} {job : JobId} {series : List Snapshot}
    {cause : Failure} (failed : judge verbose index job series = .error (.failure cause)) :
    ∃ context payload, cause = .validation context payload := by
  cases analysed : Analysis.ofSeries series with
  | error stop =>
    simp only [judge, analysed, bind, Except.bind] at failed
    obtain rfl := Except.error.inj failed
    have refused := Analysis.ofSeries_eq_failure_iff.mp analysed
    exact (Investment.reconstruct_eq_error_iff_refused.mp refused).validation
  | ok analysis =>
    simp only [judge, analysed, bind, Except.bind] at failed
    split at failed
    · next total _ =>
      cases written : total.inform verbose with
      | error stop =>
        rw [written] at failed
        obtain rfl := Except.error.inj failed
        cases Decimal.inform_eq_error written
      | ok done =>
        rw [written] at failed
        cases failed
    · cases failed
      exact ⟨_, _, rfl⟩

theorem Call.error?_of_verdict {index : Nat} {call : Call}
    (settled : call.verdict? e index = some (Answer.refuse (.configuration reason))) :
    call.error? = some (.configuration reason) := by
  cases call with
  | configure => cases settled
  | submit submission answer =>
    cases answer with
    | error cause => cases settled; rfl
    | ok job => cases settled
  | poll job answer =>
    cases answer with
    | error cause => cases settled; rfl
    | ok state => cases state <;> cases settled
  | fetch job answer =>
    cases answer with
    | error cause => cases settled; rfl
    | ok series =>
      obtain ⟨context, payload, other⟩ := Fold.judge_validates (Option.some.inj settled)
      cases other

theorem LogEntry.error?_of_failure? {entry : LogEntry}
    (fails : entry.failure? e = some (.configuration reason)) :
    entry.event.error? = some (.configuration reason) := by
  unfold failure? at fails
  split at fails
  · next cause settled =>
    obtain ⟨index, -, settled⟩ := Option.bind_eq_some_iff.mp settled
    obtain ⟨call, answered, settled⟩ := Option.bind_eq_some_iff.mp settled
    cases fails
    rw [Event.error?, answered, Option.bind_some]
    exact Call.error?_of_verdict settled
  · cases fails

namespace Evaluation

/-- A plan whose folds are laid out is not refused any more: its evaluation fails for a wrong
configuration only if the service has answered with that. -/
theorem configuration_of_run (service : BacktestService (StateM σ)) (schedule : Schedule)
    (allowed : Nat) (s : σ) {folds : List Fold} (laid : layout e.plan = .ok folds)
    (failed : (run service e schedule allowed s).1 = Answer.refuse (.configuration reason)) :
    ∃ entry ∈ log service e schedule allowed s,
      entry.event.error? = some (.configuration reason) := by
  obtain ⟨answer, after, configured⟩ := exists_configures service e s
  cases answer with
  | error cause =>
    rw [(run_notConfigured laid configured).1] at failed
    rw [(run_notConfigured laid configured).2]
    obtain rfl := Stop.failure.inj (Except.error.inj failed)
    exact ⟨_, List.mem_cons_of_mem _ (List.mem_singleton_self _), rfl⟩
  | ok done =>
    rw [(run_configured laid configured).1] at failed
    rw [(run_configured laid configured).2]
    have settles := Settles.of_closes ((accounts_layout laid).run service schedule allowed 0 after)
    rcases settles.fails _ failed with found | ⟨outcomes, concluded, missing⟩
    · obtain ⟨entry, member, fails⟩ := List.exists_of_findSome?_eq_some found
      exact ⟨entry, List.mem_append_right _ member, entry.error?_of_failure? fails⟩
    · rw [settles.averages outcomes concluded, averaged, missing] at failed
      cases failed

end Evaluation
end StrategySearch
