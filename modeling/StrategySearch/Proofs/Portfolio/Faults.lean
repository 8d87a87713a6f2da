import Mathlib
import StrategySearch.Portfolio.Analysis
import StrategySearch.Proofs.Calendar.Span
import StrategySearch.Proofs.Decimal.Sum
import StrategySearch.Proofs.Ends
import StrategySearch.Proofs.Pointwise

/-! Where the figures of a series leave the decimals.

Lengths, their mean and the share of profitable investments always fit, as long as the investments
can be counted with 64 bits. The return does not when its quotient is the least decimal.
-/

set_option autoImplicit false

namespace StrategySearch

theorem Investment.lengthDays?_atMost (i : Investment) :
    ∃ days, i.lengthDays? = some days ∧ days.AtMost calendarDays := by
  have span := i.closed.natAbs_secondsSince_le i.opened
  have inside : calendarDays * 86400 < Decimal.magnitudeBound := by decide
  obtain ⟨seconds, made, magnitude, scale⟩ :=
    Decimal.make?_eq_some (s := 0) (Nat.lt_of_le_of_lt span inside) (by decide)
  obtain ⟨day, madeDay, magnitudeDay, scaleDay⟩ :=
    Decimal.make?_eq_some (c := secondsPerDay) (s := 0) (by decide) (by decide)
  have nonzero : day.isZero = false := by rw [Decimal.isZero, magnitudeDay]; rfl
  have bounded : seconds.magnitude ≤
      calendarDays * tenTo (seconds.scale - day.scale) * day.magnitude := by
    rw [magnitude, magnitudeDay, scale, scaleDay]
    exact span
  obtain ⟨days, divided, atMost⟩ :=
    Decimal.div?_atMost nonzero (by rw [scale, scaleDay]) bounded
  refine ⟨days, ?_, atMost⟩
  simp only [lengthDays?, made, madeDay, Option.bind_eq_bind, Option.bind_some]
  exact divided

namespace Analysis

variable {series : List Snapshot} {investments : List Investment}

theorem share_ok (total : Decimal) {count : Nat} (countable : count < 2 ^ 64) :
    ∃ d, share total count = .ok d := by
  unfold share
  split
  · exact ⟨.zero, rfl⟩
  · next some =>
    obtain ⟨number, made, magnitude, scale⟩ := Decimal.make?_eq_some (c := count) (s := 0)
      (by unfold Decimal.magnitudeBound; omega) (by decide)
    have nonzero : number.isZero = false := by
      rw [Decimal.isZero, magnitude]
      simpa using some
    obtain ⟨d, divided⟩ := Decimal.div?_isSome (a := total) nonzero (by rw [scale]; exact Nat.zero_le _)
    exact ⟨d, by rw [made, Option.bind_some, divided]; rfl⟩

theorem lengths_ok (investments : List Investment) :
    ∃ lengths, investments.mapM (fun i => Answer.orFault i.lengthDays?) = .ok lengths ∧
      lengths.length = investments.length ∧ ∀ days ∈ lengths, days.AtMost calendarDays := by
  induction investments with
  | nil => exact ⟨[], rfl, rfl, by simp⟩
  | cons i rest ih =>
    obtain ⟨days, measured, atMost⟩ := i.lengthDays?_atMost
    obtain ⟨lengths, others, same, bounded⟩ := ih
    refine ⟨days :: lengths, ?_, by simp [same], by simpa [atMost] using bounded⟩
    rw [List.mapM_cons, measured, others]
    rfl

theorem averageLength_ok (countable : investments.length < 2 ^ 64) :
    ∃ d, averageLength investments = .ok d := by
  obtain ⟨lengths, measured, same, bounded⟩ := lengths_ok investments
  obtain ⟨total, summed⟩ := Decimal.sum?_isSome bounded (by
    rw [same]
    unfold calendarDays Decimal.magnitudeBound
    omega)
  obtain ⟨d, shared⟩ := share_ok total (same.symm ▸ countable)
  refine ⟨d, ?_⟩
  rw [averageLength, measured]
  show (Answer.orFault (Decimal.sum? lengths) >>= fun total => share total lengths.length) = .ok d
  rw [summed]
  exact shared

theorem positiveShare_ok (countable : investments.length < 2 ^ 64) :
    ∃ d, positiveShare investments = .ok d := by
  have fewer : investments.countP Investment.isProfitable ≤ investments.length :=
    List.countP_le_length
  obtain ⟨positive, made, -⟩ :=
    Decimal.make?_eq_some (c := investments.countP Investment.isProfitable) (s := 0)
      (by unfold Decimal.magnitudeBound; omega) (by decide)
  obtain ⟨d, shared⟩ := share_ok positive countable
  refine ⟨d, ?_⟩
  simp only [positiveShare, made]
  exact shared

/-- The quotient of the last equity by the first is the least decimal. -/
def ReturnOverflows (series : List Snapshot) : Prop :=
  ∃ first last, series.head? = some first ∧ series.getLast? = some last ∧
    last.equity.div? first.equity = some .lowest

theorem totalReturn?_cases (series : List Snapshot) :
    (∃ d, totalReturn? series = .ok d) ∧ ¬ ReturnOverflows series ∨
      totalReturn? series = .error .fault ∧ ReturnOverflows series := by
  unfold totalReturn?
  cases first : series.head? with
  | none => exact .inl ⟨⟨none, rfl⟩, by simp [ReturnOverflows, first]⟩
  | some start =>
    cases last : series.getLast? with
    | none => exact .inl ⟨⟨none, rfl⟩, by simp [ReturnOverflows, last]⟩
    | some stop =>
      cases quotient : stop.equity.div? start.equity with
      | none => exact .inl ⟨⟨none, by simp [quotient]⟩, by simp [ReturnOverflows, first, last, quotient]⟩
      | some ratio =>
        cases less : ratio.sub? .one with
        | none =>
          have least := Decimal.sub?_one_eq_none_iff.mp less
          refine .inr ⟨by simp [quotient, less, Answer.orFault, Except.map], start, stop, first, last, ?_⟩
          rw [quotient, least]
        | some d =>
          refine .inl ⟨⟨some d, by simp [quotient, less, Answer.orFault, Except.map]⟩, ?_⟩
          rintro ⟨_, _, first', last', quotient'⟩
          cases first.symm.trans first'
          cases last.symm.trans last'
          cases quotient.symm.trans quotient'
          cases (Decimal.sub?_one_eq_none_iff.mpr rfl).symm.trans less

theorem ofSeries_of_error {cause : Failure}
    (refused : Investment.reconstruct series = .error cause) :
    ofSeries series = .error (.failure cause) := by
  rw [ofSeries, refused]
  rfl

theorem ofSeries_of_ok (recovered : Investment.reconstruct series = .ok investments)
    (countable : investments.length < 2 ^ 64) :
    ∃ average ratio, ofSeries series =
      (totalReturn? series).map fun total => ⟨total, average, ratio, investments, series⟩ := by
  obtain ⟨average, averaged⟩ := averageLength_ok countable
  obtain ⟨ratio, shared⟩ := positiveShare_ok countable
  refine ⟨average, ratio, ?_⟩
  simp only [ofSeries, recovered, averaged, shared, Answer.ofExcept, bind, Except.bind]
  cases totalReturn? series <;> rfl

section Ends

theorem share_ends (total : Decimal) (count : Nat) :
    (share total count).Ends (· = .fault) fun _ => True := by
  unfold share
  split
  · trivial
  · exact .orFault fun _ _ => trivial

theorem averageLength_ends (investments : List Investment) :
    (averageLength investments).Ends (· = .fault) fun _ => True := by
  have measured := Answer.Ends.mapM (R := fun _ _ => True) fun (i : Investment)
    (_ : i ∈ investments) => Answer.Ends.orFault fun (days : Decimal)
      (_ : i.lengthDays? = some days) => trivial
  refine measured.bind fun lengths _ => ?_
  exact Answer.Ends.bind (.orFault fun _ _ => trivial) fun total _ => share_ends total lengths.length

theorem positiveShare_ends (investments : List Investment) :
    (positiveShare investments).Ends (· = .fault) fun _ => True :=
  Answer.Ends.bind (.orFault fun _ _ => trivial) fun positive _ => share_ends positive _

theorem totalReturn?_ends (series : List Snapshot) :
    (totalReturn? series).Ends (· = .fault) fun _ => True := by
  rcases totalReturn?_cases series with ⟨⟨total, fits⟩, -⟩ | ⟨breaks, -⟩
  · rw [fits]
    trivial
  · rw [breaks]
    rfl

theorem ofSeries_ends (recovered : Investment.reconstruct series = .ok investments) :
    (ofSeries series).Ends (· = .fault) fun _ => True := by
  rw [ofSeries, recovered]
  refine Answer.Ends.bind (P := (· = investments)) rfl ?_
  rintro _ rfl
  refine (averageLength_ends _).bind fun _ _ => ?_
  refine (positiveShare_ends _).bind fun _ _ => ?_
  exact (totalReturn?_ends series).bind fun _ _ => trivial

end Ends

theorem ofSeries_eq_failure_iff {cause : Failure} :
    ofSeries series = .error (.failure cause) ↔ Investment.reconstruct series = .error cause := by
  cases recovered : Investment.reconstruct series with
  | error refusal => simp [ofSeries_of_error recovered]
  | ok investments =>
    have ends := ofSeries_ends recovered
    constructor
    · intro failed
      rw [failed] at ends
      cases ends
    · nofun

/-- The analysis of a series fails just when its investments cannot be recovered, with that cause,
and breaks down just when the quotient of its equities has no predecessor. -/
theorem ofSeries_stops (series : List Snapshot)
    (countable : ∀ investments, Investment.reconstruct series = .ok investments →
      investments.length < 2 ^ 64) :
    (∀ cause, ofSeries series = .error (.failure cause) ↔
        Investment.reconstruct series = .error cause) ∧
      (ofSeries series = .error .fault ↔
        (∃ investments, Investment.reconstruct series = .ok investments) ∧
          ReturnOverflows series) ∧
      ofSeries series ≠ .error .unfinished := by
  cases recovered : Investment.reconstruct series with
  | error cause => simp [ofSeries_of_error recovered]
  | ok investments =>
    obtain ⟨average, ratio, same⟩ := ofSeries_of_ok recovered (countable investments recovered)
    rw [same]
    rcases totalReturn?_cases series with ⟨⟨total, fits⟩, inside⟩ | ⟨breaks, overflows⟩
    · simp [fits, inside, Except.map]
    · simp [breaks, overflows, Except.map]

def collapse : List Snapshot :=
  [⟨.midnight ⟨2024, 4, 1, rfl⟩, .one, ⟨"USD", .zero, .zero⟩, []⟩,
    ⟨.midnight ⟨2024, 4, 2, rfl⟩, .lowest, ⟨"USD", .zero, .zero⟩, []⟩]

theorem ofSeries_stops_collapse : ofSeries collapse = .error .fault ∧ ReturnOverflows collapse := by
  have none : Investment.reconstruct collapse = .ok [] := by cbv
  have breaks : ofSeries collapse = .error .fault := by cbv
  obtain ⟨-, overflows, -⟩ := ofSeries_stops collapse fun investments recovered => by
    cases none.symm.trans recovered
    decide
  exact ⟨breaks, (overflows.mp breaks).2⟩

end Analysis
end StrategySearch
