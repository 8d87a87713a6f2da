import StrategySearch.Portfolio.Analysis
import StrategySearch.Proofs.Decimal.Division
import StrategySearch.Proofs.Decimal.Sum
import StrategySearch.Proofs.Ends
import StrategySearch.Proofs.Portfolio.ProfitOrder

/-! Which investments pay.

The exact ratio of an investment decides, but for two gaps: a ratio that is above one by half a unit
of the last place or less rounds to one, and a ratio that no decimal can show is missing, like that of
an investment that cost nothing.
-/

set_option autoImplicit false

namespace StrategySearch

namespace Investment

def ratio (i : Investment) : ℚ := i.exitValue.value / i.entryValue.value

/-- The ratio exceeds one visibly and can be shown. -/
def Pays (i : Investment) : Prop :=
  1 + 1 / (2 * tenTo 28) < i.ratio ∧ i.ratio < Decimal.overflowBound

instance (i : Investment) : Decidable i.Pays := inferInstanceAs (Decidable (_ ∧ _))

/-- There is no ratio, or none that can be shown. -/
def Unrated (i : Investment) : Prop :=
  i.entryValue.value = 0 ∨ Decimal.overflowBound ≤ |i.ratio|

variable {i : Investment} {investments : List Investment}

theorem profitRatio?_eq_none_iff : i.profitRatio? = none ↔ i.Unrated := by
  rw [profitRatio?, Decimal.div?_eq_none_iff, Unrated, Decimal.value_eq_zero_iff, ratio]

theorem isProfitable_iff : i.isProfitable ↔ i.Pays := by
  have order := Decimal.one_lt_div?_iff (a := i.exitValue) (b := i.entryValue)
  rw [Pays, ratio, ← order, isProfitable, profitRatio?]
  cases i.exitValue.div? i.entryValue with
  | none => simp
  | some ratio => simp

theorem split_of_precedes (sorted : investments.Pairwise (precedes · ·)) :
    ∃ rated unrated, investments = rated ++ unrated ∧ (∀ i ∈ rated, ¬ i.Unrated) ∧
      ∀ i ∈ unrated, i.Unrated := by
  induction investments with
  | nil => exact ⟨[], [], rfl, by simp, by simp⟩
  | cons i rest ih =>
    obtain ⟨first, sorted⟩ := List.pairwise_cons.mp sorted
    obtain ⟨rated, unrated, rfl, shown, hidden⟩ := ih sorted
    cases ratio : i.profitRatio? with
    | none =>
      -- What has no ratio precedes only what has none either.
      refine ⟨[], i :: (rated ++ unrated), rfl, by simp,
        List.forall_mem_cons.mpr ⟨profitRatio?_eq_none_iff.mp ratio, fun j member => ?_⟩⟩
      have before := first j member
      rw [← profitRatio?_eq_none_iff]
      cases behind : j.profitRatio? with
      | none => rfl
      | some r => simp [precedes, ratio, behind] at before
    | some r =>
      refine ⟨i :: rated, unrated, rfl, List.forall_mem_cons.mpr ⟨?_, shown⟩, hidden⟩
      rw [← profitRatio?_eq_none_iff, ratio]
      exact Option.some_ne_none r

end Investment

namespace Analysis

variable {series : List Snapshot} {analysis : Analysis}

/-- The share of profitable investments counts those that pay, and the investments without a ratio
are the last ones. -/
theorem ofSeries_profit (ok : ofSeries series = .ok analysis) :
    (∃ positive, Decimal.make? (analysis.investments.countP fun i => decide i.Pays) 0 =
        some positive ∧
      share positive analysis.investmentCount = .ok analysis.positiveRatio) ∧
    ∃ rated unrated, analysis.investments = rated ++ unrated ∧
      (∀ i ∈ rated, ¬ i.Unrated) ∧ ∀ i ∈ unrated, i.Unrated := by
  obtain ⟨investments, recovered, rest⟩ := bind_eq_ok_iff.mp ok
  obtain ⟨average, -, rest⟩ := bind_eq_ok_iff.mp rest
  obtain ⟨share, counted, rest⟩ := bind_eq_ok_iff.mp rest
  obtain ⟨total, -, same⟩ := bind_eq_ok_iff.mp rest
  cases same
  constructor
  · obtain ⟨positive, made, shared⟩ := bind_eq_ok_iff.mp counted
    have pays : investments.countP Investment.isProfitable =
        investments.countP fun i => decide i.Pays :=
      List.countP_congr fun i _ => by simp [Investment.isProfitable_iff]
    rw [pays] at made
    cases number : Decimal.make? (investments.countP fun i => decide i.Pays) 0 with
    | none => simp [number, Answer.orFault] at made
    | some d =>
      obtain rfl : d = positive := by simpa [number, Answer.orFault] using made
      exact ⟨d, rfl, shared⟩
  · cases closed : Investment.inCloseOrder series with
    | error cause => simp [Investment.reconstruct, closed, Except.map, Answer.ofExcept] at recovered
    | ok inOrder =>
      obtain rfl : inOrder.mergeSort Investment.precedes = investments := by
        simpa [Investment.reconstruct, closed, Except.map, Answer.ofExcept] using recovered
      exact Investment.split_of_precedes
        (List.pairwise_mergeSort Investment.precedes_trans Investment.precedes_total inOrder)

/-- A total loss, and a gain that no decimal can show. -/
def towering : List Snapshot :=
  [⟨.midnight ⟨2024, 5, 2, rfl⟩, .one, ⟨"USD", .zero, .zero⟩,
    [⟨"HIGH", .one, .one, Decimal.lowest.neg, Investment.tenths 1⟩,
      ⟨"LOST", .one, .one, .zero, .ofUInt64 10⟩]⟩]

theorem ofSeries_profit_towering : ∃ analysis, ofSeries towering = .ok analysis ∧
    analysis.investments.map (·.symbol) = ["LOST", "HIGH"] ∧ analysis.positiveRatio.isZero ∧
    ∃ rated unrated, analysis.investments = rated ++ unrated ∧ (∀ i ∈ rated, ¬ i.Unrated) ∧
      ∀ i ∈ unrated, i.Unrated := by
  have shown : (ofSeries towering).toOption.map (fun a =>
      (a.investments.map (·.symbol), a.positiveRatio.isZero)) = some (["LOST", "HIGH"], true) := by
    cbv
  cases analysed : ofSeries towering with
  | error stop => rw [analysed] at shown; cases shown
  | ok analysis =>
    rw [analysed] at shown
    obtain ⟨symbols, share⟩ := Prod.mk.inj (Option.some.inj shown)
    exact ⟨analysis, rfl, symbols, share, (ofSeries_profit analysed).2⟩

end Analysis
end StrategySearch
