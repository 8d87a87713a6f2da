import StrategySearch.Proofs.Backtest.Tiling
import StrategySearch.Settings.Reader

/-! Which settings are accepted.

All of them are read, and then only the layout of the folds is left to judge: the settings are
refused for it exactly if the last symbol of the last fold is beyond the symbol range. What is
accepted is within its bounds and has a slice of symbols for each fold.
-/

set_option autoImplicit false

namespace StrategySearch

namespace Settings

variable {settings : Settings} {found : SearchSettings} {key : String} {least n : Nat}

theorem foldl_withDefaults (entries : List (String × String))
    (complete : ∀ entry ∈ entries, (settings.value? entry.1).isSome) :
    entries.foldl (fun m entry =>
      if (m.value? entry.1).isNone then m.insert entry.1 entry.2 else m) settings = settings := by
  induction entries with
  | nil => rfl
  | cons entry rest ih =>
    have present := complete entry List.mem_cons_self
    rw [List.foldl_cons, if_neg (by simpa [Option.isSome_iff_ne_none] using present)]
    exact ih fun other member => complete other (List.mem_cons_of_mem _ member)

theorem withDefaults_eq_self (complete : ∀ entry ∈ defaults, (settings.value? entry.1).isSome) :
    settings.withDefaults = settings :=
  foldl_withDefaults defaults complete

theorem le_of_natural (read : settings.natural key least = .ok n) : least ≤ n := by
  obtain ⟨raw, -, read⟩ := bind_eq_ok_iff.mp read
  split at read
  · cases read
  · split at read
    · cases read
    · next notLess =>
      cases read
      exact Nat.not_lt.mp notLess

theorem count_eq_ok_iff :
    settings.count key least = .ok n ↔ settings.natural key least = .ok n ∧ n < UInt32.size := by
  rw [count, bind_eq_ok_iff]
  constructor
  · rintro ⟨m, read, fits⟩
    split at fits
    · cases fits
      exact ⟨read, ‹_›⟩
    · cases fits
  · rintro ⟨read, fits⟩
    exact ⟨n, read, if_pos fits⟩

theorem le_of_count (read : settings.count key least = .ok n) : least ≤ n :=
  le_of_natural (count_eq_ok_iff.mp read).1

theorem pos_of_initialCash {cash : Decimal} (read : settings.initialCash = .ok cash) :
    Decimal.zero < cash := by
  obtain ⟨d, -, read⟩ := bind_eq_ok_iff.mp read
  split at read
  · cases read
    assumption
  · cases read

theorem period_eq_ok {period : Period} (read : settings.period = .ok period) :
    settings.date startKey = .ok period.start ∧ settings.date stopKey = .ok period.stop := by
  obtain ⟨start, begins, read⟩ := bind_eq_ok_iff.mp read
  obtain ⟨stop, ends, read⟩ := bind_eq_ok_iff.mp read
  split at read
  · next made =>
    cases read
    unfold Period.make? at made
    split at made
    · cases made
      exact ⟨begins, ends⟩
    · cases made
  · cases read

theorem timeout_of_connection {connection : Connection}
    (read : settings.connection = .ok connection) : 1 ≤ connection.timeoutSeconds := by
  unfold Settings.connection at read
  -- With the defaults in sight, the match on the address would be evaluated.
  generalize settings.withDefaults = filled at read
  dsimp only at read
  split at read
  · cases read
  · obtain ⟨timeout, waits, read⟩ := bind_eq_ok_iff.mp read
    cases read
    exact le_of_natural waits

structure Reads (settings : Settings) (found : SearchSettings) : Prop where
  connection : settings.connection = .ok found.connection
  period : settings.withDefaults.period = .ok found.plan.period
  initialCash : settings.withDefaults.initialCash = .ok found.plan.initialCash
  symbolsPerFold : settings.withDefaults.count symbolsKey 1 = .ok found.plan.symbolsPerFold
  symbolSkip : settings.withDefaults.count skipKey 0 = .ok found.plan.symbolSkip
  foldCount : settings.withDefaults.count foldsKey 1 = .ok found.plan.foldCount
  usePredictor : settings.withDefaults.truth predictorKey = .ok found.plan.usePredictor
  predictionError :
    settings.withDefaults.float predictionErrorKey 0.0 = .ok found.plan.predictionError
  penalty : settings.withDefaults.decimal penaltyKey = .ok found.plan.penalty
  poll : settings.withDefaults.natural pollKey 1 = .ok found.pollMilliseconds

def refuseLayout {α : Type} (plan : FoldPlan) : Reading α :=
  refuse s!"{plan.foldCount} folds of {plan.symbolsPerFold} symbols after skipping {plan.symbolSkip} exceed the symbol range"

namespace Reads

theorem search_eq (reads : Reads settings found) : settings.search =
    if (SymbolSlice.ofFold? found.plan.symbolSkip found.plan.symbolsPerFold
      (found.plan.foldCount - 1)).isNone then refuseLayout found.plan else .ok found := by
  obtain ⟨connection, plan, poll⟩ := found
  obtain ⟨connects, lasts, starts, takes, skips, repeats, predicts, errs, loses, waits⟩ := reads
  simp only [search, connects, lasts, starts, takes, skips, repeats, predicts, errs, loses, waits,
    bind, Except.bind, refuseLayout]
  rfl

theorem of_search (accepted : settings.search = .ok found) : Reads settings found := by
  simp only [search, bind_eq_ok_iff] at accepted
  obtain ⟨connection, connects, period, lasts, cash, starts, symbols, takes, skip, skips, folds,
    repeats, predictor, predicts, error, errs, penalty, loses, poll, waits, accepted⟩ := accepted
  split at accepted
  · cases accepted
  · cases accepted
    exact ⟨connects, lasts, starts, takes, skips, repeats, predicts, errs, loses, waits⟩

theorem takes_some (reads : Reads settings found) : 0 < found.plan.symbolsPerFold :=
  le_of_count reads.symbolsPerFold

theorem has_folds (reads : Reads settings found) : 0 < found.plan.foldCount :=
  le_of_count reads.foldCount

theorem search_eq_ok_iff (reads : Reads settings found) :
    settings.search = .ok found ↔ found.plan.Fits := by
  have last := FoldPlan.ofFold?_last_isNone_iff reads.takes_some reads.has_folds
  rw [reads.search_eq, ← not_iff_not, ← last]
  split
  · next beyond => simp [beyond, refuseLayout, refuse]
  · next inside => simp [inside]

theorem search_eq_refuse_iff (reads : Reads settings found) :
    settings.search = refuseLayout found.plan ↔ ¬ found.plan.Fits := by
  rw [← FoldPlan.ofFold?_last_isNone_iff reads.takes_some reads.has_folds, reads.search_eq]
  split
  · next beyond => simp [beyond]
  · next inside => simp [inside, refuseLayout, refuse]

end Reads

structure Sound (settings : Settings) (found : SearchSettings) : Prop where
  period : settings.withDefaults.date startKey = .ok found.plan.period.start ∧
    settings.withDefaults.date stopKey = .ok found.plan.period.stop ∧
    found.plan.period.start < found.plan.period.stop
  initialCash : Decimal.zero < found.plan.initialCash
  symbolsPerFold : 1 ≤ found.plan.symbolsPerFold
  foldCount : 1 ≤ found.plan.foldCount
  poll : 1 ≤ found.pollMilliseconds
  timeout : 1 ≤ found.connection.timeoutSeconds
  slices : ∃ slices, found.plan.Tiles slices ∧ ∃ folds,
    Evaluation.layout found.plan = .ok folds ∧ folds.map (·.slice) = slices

theorem Reads.sound (reads : Reads settings found) (fits : found.plan.Fits) :
    Sound settings found := by
  obtain ⟨begins, ends⟩ := period_eq_ok reads.period
  refine ⟨⟨begins, ends, found.plan.period.start_lt_stop⟩, pos_of_initialCash reads.initialCash,
    reads.takes_some, reads.has_folds, le_of_natural reads.poll,
    timeout_of_connection reads.connection, _, fits.tiles reads.takes_some, _,
    fits.layout_eq reads.takes_some reads.has_folds, ?_⟩
  rw [List.map_map]
  rfl

/-- Settings are accepted exactly if each of them can be read and the last symbol of the last fold
is in the symbol range, and for a fold beyond it they are refused. The folds of accepted settings
share out a stretch of symbols, and no evaluation refuses them. -/
theorem search_shares (settings : Settings) :
    (∀ found, settings.search = .ok found ↔ Reads settings found ∧ found.plan.Fits) ∧
      (∀ found, Reads settings found →
        (settings.search = refuseLayout found.plan ↔ ¬ found.plan.Fits)) ∧
      ∀ found, settings.search = .ok found → Sound settings found ∧
        ∀ (σ : Type) (service : BacktestService (StateM σ)) (strategy : Strategy)
          (parameters : ParameterSet) (verbose : Bool) (schedule : Schedule) (allowed : Nat) (s : σ)
          (reason : String),
          let e : Experiment := ⟨found.plan, strategy, parameters, verbose⟩
          (Evaluation.run service e schedule allowed s).1 =
              Answer.refuse (.configuration reason) →
            ∃ entry ∈ Evaluation.log service e schedule allowed s,
              entry.event.error? = some (.configuration reason) := by
  have accepts : ∀ found,
      settings.search = .ok found ↔ Reads settings found ∧ found.plan.Fits := by
    intro found
    constructor
    · intro accepted
      have reads := Reads.of_search accepted
      exact ⟨reads, reads.search_eq_ok_iff.mp accepted⟩
    · rintro ⟨reads, fits⟩
      exact reads.search_eq_ok_iff.mpr fits
  refine ⟨accepts, fun found reads => reads.search_eq_refuse_iff, fun found accepted => ?_⟩
  obtain ⟨reads, fits⟩ := (accepts found).mp accepted
  refine ⟨reads.sound fits, ?_⟩
  intro σ service strategy parameters verbose schedule allowed s reason e failed
  have laid := fits.layout_eq reads.takes_some reads.has_folds
  exact Evaluation.configuration_of_run service schedule allowed s laid failed

section Brimful

/-- The third fold of two symbols ends with the last symbol there is. -/
def brimful : Settings where
  entries := [(timeoutKey, "30"), (foldsKey, "3"), (cashKey, "5"), (pollKey, "1"),
    (predictionErrorKey, "0"), (symbolsKey, "2"), (skipKey, "4294967289"), (predictorKey, "no"),
    (domainKey, "localhost"), (penaltyKey, "-1"), (stopKey, "2023-03-01"),
    (startKey, "2023-02-28")]
  ordered := by decide

def brimfulSearch : SearchSettings where
  connection := ⟨"http://localhost/api", none, 30⟩
  plan := {
    period := ⟨⟨2023, 2, 28, rfl⟩, ⟨2023, 3, 1, rfl⟩, by decide⟩
    initialCash := .ofUInt64 5
    symbolsPerFold := 2
    symbolSkip := 4294967289
    foldCount := 3
    usePredictor := false
    predictionError := 0.0
    penalty := .ofInt64 (-1)
  }
  pollMilliseconds := 1

theorem withDefaults_brimful : brimful.withDefaults = brimful :=
  withDefaults_eq_self (by decide +kernel)

theorem connection_brimful : brimful.connection = .ok brimfulSearch.connection := by
  have address : brimful.apiUrl? = some "http://localhost/api" := by cbv
  have user : brimful.value? userKey = none := by cbv
  have timeout : brimful.natural timeoutKey 1 = .ok 30 := by cbv
  unfold Settings.connection
  rw [withDefaults_brimful]
  simp only [address, user, timeout]
  rfl

theorem predictionError_brimful : brimful.float predictionErrorKey 0.0 = .ok 0.0 := by
  have number : brimful.require predictionErrorKey = .ok "0" := by cbv
  have zero : FloatText.read? "0" = some 0.0 := by decide +kernel
  have finite : (0.0 : Float).isFinite = true := by decide +kernel
  have notLess : ¬ (0.0 : Float) < 0.0 := by decide +kernel
  simp only [float, number, bind, Except.bind, zero, finite, Bool.not_true, Bool.false_eq_true,
    if_false, if_neg notLess]
  rfl

theorem reads_brimful : Reads brimful brimfulSearch := by
  constructor
  case connection => exact connection_brimful
  all_goals rw [withDefaults_brimful]
  case predictionError => exact predictionError_brimful
  all_goals
    dsimp only [brimfulSearch]
    cbv

theorem search_shares_brimful : brimful.search = .ok brimfulSearch ∧ Sound brimful brimfulSearch ∧
    brimfulSearch.plan.slice 2 = .ok ⟨4294967293, 2⟩ := by
  obtain ⟨accepts, -, sound⟩ := search_shares brimful
  have accepted := (accepts brimfulSearch).mpr ⟨reads_brimful, by unfold FoldPlan.Fits; decide⟩
  exact ⟨accepted, (sound brimfulSearch accepted).1, by decide⟩

end Brimful

end Settings
end StrategySearch
