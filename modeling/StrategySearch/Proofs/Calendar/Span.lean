import StrategySearch.Calendar.Instant

/-! The calendar is bounded, so no two of its instants are more than 2^28 days apart. -/

set_option autoImplicit false

namespace StrategySearch

/-- More days than the calendar has. -/
def calendarDays : Nat := 268435456

theorem daysInMonth_le (year : Int) (month : Nat) : daysInMonth year month ≤ 31 := by
  unfold daysInMonth
  repeat' split
  all_goals omega

theorem month_le_of_day {year : Int} {month : Nat} (some : 1 ≤ daysInMonth year month) :
    month ≤ 12 := by
  refine Nat.not_lt.mp fun late => ?_
  obtain ⟨rest, rfl⟩ : ∃ rest, month = rest + 13 := ⟨month - 13, by omega⟩
  exact absurd some (by simp [daysInMonth])

namespace Date

theorem dayNumber_bounds (d : Date) : -100000000 ≤ d.dayNumber ∧ d.dayNumber ≤ 100000000 := by
  have valid := d.valid
  simp only [isCalendarDate, Bool.and_eq_true, decide_eq_true_eq] at valid
  obtain ⟨⟨⟨low, high⟩, first⟩, last⟩ := valid
  unfold minYear at low
  unfold maxYear at high
  have month := month_le_of_day (Nat.le_trans first last)
  have day := Nat.le_trans last (daysInMonth_le d.year d.month)
  simp only [dayNumber]
  split <;> omega

end Date

namespace Instant

theorem natAbs_secondsSince_le (a b : Instant) :
    (a.secondsSince b).natAbs ≤ calendarDays * 86400 := by
  have first := a.date.dayNumber_bounds
  have second := b.date.dayNumber_bounds
  have timeOfDay := a.second_lt
  have timeOfDay' := b.second_lt
  have part := a.nano_lt
  have part' := b.nano_lt
  have inserted : -1 ≤ insertedSeconds a b ∧ insertedSeconds a b ≤ 1 := by
    unfold insertedSeconds
    split
    · decide
    · split <;> decide
  rw [secondsSince, Int.natAbs_tdiv]
  refine Nat.div_le_of_le_mul ?_
  show _ ≤ 1000000000 * (268435456 * 86400)
  omega

end Instant
end StrategySearch
