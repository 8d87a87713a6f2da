import StrategySearch.Command.Machine
import StrategySearch.Proofs.Decimal.Product
import StrategySearch.Proofs.Decimal.Quotient
import StrategySearch.Proofs.Ends
import StrategySearch.Report.Backtest

/-! Which reports on a backtest are shown to their end.

An amount with at most two places can always be written, for no decimal has more than 29 digits before
the point. So only two kinds of figures can be too wide: a return of which there are no hundredths, and
a profit ratio that has 28 digits or more before the point.
-/

set_option autoImplicit false

namespace StrategySearch

namespace Decimal

variable {d : Decimal} {n places : Nat}

theorem length_wholeText_le_iff (some : 0 < n) (d : Decimal) :
    d.wholeText.length ≤ n ↔ |d.value| < tenTo n := by
  have scaled : d.magnitude / tenTo d.scale < tenTo n ↔
      (d.magnitude : ℚ) < tenTo n * tenTo d.scale := by
    rw [Nat.div_lt_iff_lt_mul (tenTo_pos d.scale)]
    exact_mod_cast Iff.rfl
  rw [abs_value, div_lt_iff₀ d.weight_pos, ← scaled]
  exact Nat.length_repr_le_iff some

theorem fixed?_isSome_iff (few : places < 31) (d : Decimal) :
    (d.fixed? places).isSome ↔ |d.value| < tenTo (31 - places) := by
  have narrow : (d.fixed? places).isSome ↔ d.wholeText.length ≤ 31 - places := by
    rw [fixed?, widthLimit]
    split
    · next wide => exact iff_of_false nofun (by omega)
    · next narrow => exact iff_of_true (by split <;> rfl) (by omega)
  rw [narrow, length_wholeText_le_iff (by omega)]

theorem abs_value_lt (d : Decimal) : |d.value| < tenTo 29 := by
  have bound : magnitudeBound ≤ tenTo 29 := by decide
  have fits : (d.magnitude : ℚ) < tenTo 29 := by
    exact_mod_cast Nat.lt_of_lt_of_le d.magnitude_lt bound
  have weight : (1 : ℚ) ≤ tenTo d.scale := by exact_mod_cast tenTo_pos d.scale
  rw [abs_value]
  exact lt_of_le_of_lt (div_le_self (by positivity) weight) fits

/-- Two places fit behind all the digits that there can be. -/
theorem fixed?_isSome (few : places ≤ 2) (d : Decimal) : (d.fixed? places).isSome := by
  have weight : (tenTo 29 : ℚ) ≤ tenTo (31 - places) := by
    exact_mod_cast tenTo_le (show 29 ≤ 31 - places by omega)
  exact (fixed?_isSome_iff (by omega) d).mpr (d.abs_value_lt.trans_le weight)

theorem percent?_isSome_iff (d : Decimal) :
    d.percent?.isSome ↔ |d.value * 100| < overflowBound := by
  have hundred_value : hundred.value = 100 := by
    simp [value, coefficient, hundred, tenTo]
  rw [← not_le, ← hundred_value, ← mul?_eq_none_iff, percent?]
  cases d.mul? hundred with
  | none => simp
  | some hundredths =>
    obtain ⟨text, written⟩ := Option.isSome_iff_exists.mp (hundredths.fixed?_isSome (le_refl 2))
    simp [written]

example : (⟨false, 10 ^ 27 - 1, 0, by decide, by decide⟩ : Decimal).percent? = none := by
  decide +kernel

theorem AtMost.abs_value_le (atMost : d.AtMost n) : |d.value| ≤ n := by
  rw [abs_value, div_le_iff₀ d.weight_pos]
  exact_mod_cast atMost

end Decimal

namespace Report

theorem isComplete_append (first second : Report) :
    isComplete (first ++ second) = (first.isComplete && second.isComplete) :=
  List.all_append

theorem text_eq_join {report : Report} (complete : report.isComplete) :
    report.text = String.join (report.map fun piece => piece.getD "") := by
  induction report with
  | nil => rfl
  | cons piece rest ih =>
    obtain ⟨here, others⟩ : piece.isSome = true ∧ isComplete rest := by
      simpa [isComplete] using complete
    obtain ⟨words, rfl⟩ := Option.isSome_iff_exists.mp here
    rw [text, ih others, List.map_cons, String.join_cons, Option.getD_some]

theorem isComplete_line (s : String) : (line s).isComplete := rfl

theorem investment_isComplete_iff (number : Nat) (i : Investment) :
    (investment number i).isComplete ↔ ∀ ratio ∈ i.profitRatio?, |ratio.value| < tenTo 27 := by
  have written : (investment number i).isComplete ↔ i.ratioText?.isSome := by
    rw [investment]
    split
    · next wide => simp [wide, isComplete]
    · next text narrow =>
      simp [narrow, isComplete, Decimal.fixed?_isSome (le_refl 2)]
  rw [written, Investment.ratioText?]
  cases i.profitRatio? with
  | none => simp
  | some ratio => simpa using ratio.fixed?_isSome_iff (show 4 < 31 by decide)

theorem investments_isComplete_iff (top : Nat) (is : List Investment) :
    (investments top is).isComplete ↔
      ∀ i ∈ is.take top, ∀ ratio ∈ i.profitRatio?, |ratio.value| < tenTo 27 := by
  rw [investments]
  split
  · next none => simp [List.isEmpty_iff.mp none, isComplete]
  · rw [isComplete_append, isComplete_line, Bool.true_and, isComplete, List.all_flatMap,
      List.all_eq_true]
    -- The numbers of the places make no difference.
    calc (∀ entry ∈ (is.take top).zipIdx 1, (investment entry.2 entry.1).isComplete = true)
      _ ↔ ∀ entry ∈ (is.take top).zipIdx 1,
          ∀ ratio ∈ entry.1.profitRatio?, |ratio.value| < tenTo 27 :=
        forall₂_congr fun entry _ => investment_isComplete_iff entry.2 entry.1
      _ ↔ ∀ i ∈ ((is.take top).zipIdx 1).map Prod.fst,
          ∀ ratio ∈ i.profitRatio?, |ratio.value| < tenTo 27 := by rw [List.forall_mem_map]
      _ ↔ _ := by rw [List.zipIdx_map_fst]

theorem totalReturn_isComplete_iff (total : Option Decimal) : (totalReturn total).isComplete ↔
    ∀ d ∈ total, |d.value * 100| < Decimal.overflowBound := by
  cases total with
  | none => simp [totalReturn, isComplete_line]
  | some d => simpa [totalReturn, isComplete] using d.percent?_isSome_iff

end Report

namespace Analysis

variable {series : List Snapshot} {a : Analysis}

theorem share_atMost {total : Decimal} {count : Nat} (whole : total.scale = 0)
    (le : total.magnitude ≤ count) :
    (share total count).Ends (· = .fault) fun d => d.AtMost 1 := by
  unfold share
  split
  · exact Nat.zero_le _
  · next some =>
    refine .orFault fun d divided => ?_
    obtain ⟨number, made, divided⟩ := Option.bind_eq_some_iff.mp divided
    obtain ⟨magnitude, scale⟩ := Decimal.parts_of_make? made
    have nonzero : number.isZero = false := by simpa [Decimal.isZero, magnitude] using some
    obtain ⟨d', divided', atMost⟩ := Decimal.div?_atMost (n := 1) (a := total) nonzero
      (by rw [scale]; exact Nat.zero_le _)
      (by rw [whole, scale, magnitude]; simpa [tenTo_zero] using le)
    cases divided.symm.trans divided'
    exact atMost

theorem positiveShare_atMost (investments : List Investment) :
    (positiveShare investments).Ends (· = .fault) fun d => d.AtMost 1 := by
  refine Answer.Ends.bind (.orFault fun _ made => Decimal.parts_of_make? made) ?_
  rintro positive ⟨magnitude, scale⟩
  refine share_atMost scale ?_
  rw [magnitude]
  exact List.countP_le_length

/-- Every figure can be written, down to the profits of the first `top` investments. -/
structure Writable (top : Nat) (a : Analysis) : Prop where
  total : ∀ total ∈ a.totalReturn, |total.value * 100| < Decimal.overflowBound
  ratios : ∀ i ∈ a.investments.take top, ∀ ratio ∈ i.profitRatio?, |ratio.value| < tenTo 27

theorem positiveRatio_percent? (ok : ofSeries series = .ok a) :
    a.positiveRatio.percent?.isSome := by
  obtain ⟨investments, -, rest⟩ := bind_eq_ok_iff.mp ok
  obtain ⟨average, -, rest⟩ := bind_eq_ok_iff.mp rest
  obtain ⟨ratio, shared, rest⟩ := bind_eq_ok_iff.mp rest
  obtain ⟨total, -, same⟩ := bind_eq_ok_iff.mp rest
  cases same
  have ends := positiveShare_atMost investments
  rw [shared] at ends
  have atMost : |ratio.value| ≤ (1 : Nat) := Decimal.AtMost.abs_value_le ends
  rw [Decimal.percent?_isSome_iff, abs_mul, abs_of_pos (by norm_num : (0 : ℚ) < 100)]
  have bound : (100 : ℚ) < Decimal.overflowBound := by
    norm_num [Decimal.overflowBound, Decimal.magnitudeBound]
  push_cast at atMost
  linarith

end Analysis

/-- The report on a backtest that could be analysed stops short only where its return has no
hundredths, or where a profit ratio among those listed has 28 digits or more before the point. -/
theorem Report.backtest_isComplete_iff {series : List Snapshot} {a : Analysis}
    (ok : Analysis.ofSeries series = .ok a) (job : JobId) (top : Nat) :
    (backtest job top a).isComplete ↔ a.Writable top := by
  have figures : Report.isComplete [some "Average investment length: ", a.averageLengthDays.fixed? 1,
      some " days\n", a.positiveRatio.percent?.map fun percent =>
        s!"Positive investments: {percent}\n"] := by
    simp [isComplete, Decimal.fixed?_isSome, Analysis.positiveRatio_percent? ok]
  simp only [backtest, isComplete_append, isComplete_line, figures, Bool.and_true, Bool.true_and,
    Bool.and_eq_true, totalReturn_isComplete_iff, investments_isComplete_iff]
  exact ⟨fun ⟨total, ratios⟩ => ⟨total, ratios⟩, fun writable => ⟨writable.total, writable.ratios⟩⟩

theorem CommandM.run_display {m : Type → Type} [Monad m] [LawfulMonad m] (machine : Machine m)
    (report : Report) : (display machine report).run = do
      machine.print report.text
      return if report.isComplete then .ok () else .error ⟨none, .stop .fault⟩ := by
  rw [display, ExceptT.run_bind, ExceptT.run_lift, bind_map_left]
  refine bind_congr fun _ => ?_
  cases report.isComplete <;> rfl

/-- The report on a backtest that could be analysed is printed from its first line to its last
exactly if each of its figures can be written. -/
theorem CommandM.display_backtest {m : Type → Type} [Monad m] [LawfulMonad m] (machine : Machine m)
    {series : List Snapshot} {a : Analysis} (ok : Analysis.ofSeries series = .ok a) (job : JobId)
    (top : Nat) :
    let report := Report.backtest job top a
    (a.Writable top → (display machine report).run = do
      machine.print (String.join (report.map fun piece => piece.getD ""))
      return .ok ()) ∧
    (¬ a.Writable top → (display machine report).run = do
      machine.print report.text
      return .error ⟨none, .stop .fault⟩) := by
  intro report
  have complete : report.isComplete ↔ a.Writable top := Report.backtest_isComplete_iff ok job top
  rw [run_display]
  refine ⟨fun writable => ?_, fun wide => ?_⟩
  · have whole := complete.mpr writable
    rw [if_pos whole, Report.text_eq_join whole]
  · rw [if_neg (mt complete.mp wide)]

def soaring : List Snapshot :=
  [⟨.midnight ⟨2024, 6, 3, rfl⟩, .one, ⟨"USD", .zero, .zero⟩, []⟩,
    ⟨.midnight ⟨2024, 6, 4, rfl⟩, much, ⟨"USD", .zero, .zero⟩, []⟩]
where
  much : Decimal := { Decimal.zero with magnitude := 10 ^ 27, magnitude_lt := by decide }

theorem CommandM.display_backtest_soaring {m : Type → Type} [Monad m] [LawfulMonad m]
    (machine : Machine m) (job : JobId) (top : Nat) : ∃ a, Analysis.ofSeries soaring = .ok a ∧
      (display machine (Report.backtest job top a)).run = do
        machine.print (Report.backtest job top a).text
        return .error ⟨none, .stop .fault⟩ := by
  have analysed : (Analysis.ofSeries soaring).toOption.map (·.totalReturn) =
      some (soaring.much.sub? .one) := by
    decide +kernel
  cases ok : Analysis.ofSeries soaring with
  | error stop => rw [ok] at analysed; cases analysed
  | ok a =>
    refine ⟨a, rfl, (display_backtest machine ok job top).2 fun writable => ?_⟩
    rw [ok] at analysed
    cases less : soaring.much.sub? .one with
    | none => exact absurd less (by decide +kernel)
    | some total =>
      have shown : a.totalReturn = some total := (Option.some.inj analysed).trans less
      have narrow := total.percent?_isSome_iff.mpr (writable.total total shown)
      have wide : (soaring.much.sub? .one).bind Decimal.percent? = none := by decide +kernel
      rw [less, Option.bind_some] at wide
      rw [wide] at narrow
      cases narrow

end StrategySearch
