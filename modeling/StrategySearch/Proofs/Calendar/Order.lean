import StrategySearch.Calendar.Instant

/-! Dates and instants are strictly ordered by their parts. -/

set_option autoImplicit false

namespace StrategySearch

namespace Date

theorem compare_eq_lt_iff {a b : Date} : compare a b = .lt ↔
    a.year < b.year ∨ a.year = b.year ∧
      (a.month < b.month ∨ a.month = b.month ∧ a.day < b.day) := by
  simp only [compare, Ordering.then_eq_lt, Nat.compare_eq_lt, Nat.compare_eq_eq,
    Int.compare_eq_lt, Int.compare_eq_eq]

theorem compare_eq_eq_iff {a b : Date} : compare a b = .eq ↔
    a.year = b.year ∧ a.month = b.month ∧ a.day = b.day := by
  simp only [compare, Ordering.then_eq_eq, Nat.compare_eq_eq, Int.compare_eq_eq]

end Date

namespace Instant

theorem compare_eq_lt_iff {a b : Instant} : compare a b = .lt ↔
    a.date.compare b.date = .lt ∨ a.date.compare b.date = .eq ∧
      (a.second < b.second ∨ a.second = b.second ∧ a.nano < b.nano) := by
  simp only [compare, Ordering.then_eq_lt, Nat.compare_eq_lt, Nat.compare_eq_eq]

theorem compare_eq_eq_iff {a b : Instant} : compare a b = .eq ↔
    a.date.compare b.date = .eq ∧ a.second = b.second ∧ a.nano = b.nano := by
  simp only [compare, Ordering.then_eq_eq, Nat.compare_eq_eq]

theorem lt_iff_compare {a b : Instant} : a < b ↔ compare a b = .lt := Iff.rfl

theorem compare_self (a : Instant) : compare a a = .eq :=
  compare_eq_eq_iff.mpr ⟨Date.compare_eq_eq_iff.mpr ⟨rfl, rfl, rfl⟩, rfl, rfl⟩

theorem le_refl (a : Instant) : a ≤ a := by
  change compare a a ≠ .gt
  simp [compare_self]

theorem lt_irrefl (a : Instant) : ¬ a < a := by
  simp [lt_iff_compare, compare_self]

theorem le_of_lt {a b : Instant} (lt : a < b) : a ≤ b := by
  change compare a b ≠ .gt
  simp [lt_iff_compare.mp lt]

theorem lt_trans {a b c : Instant} (first : a < b) (second : b < c) : a < c := by
  simp only [lt_iff_compare, compare_eq_lt_iff, Date.compare_eq_lt_iff,
    Date.compare_eq_eq_iff] at first second ⊢
  omega

theorem eq_of_compare_eq {a b : Instant} (same : compare a b = .eq) : a = b := by
  obtain ⟨⟨aYear, aMonth, aDay, _⟩, aSecond, aNano, _, _⟩ := a
  obtain ⟨⟨bYear, bMonth, bDay, _⟩, bSecond, bNano, _, _⟩ := b
  obtain ⟨date, second, nano⟩ := compare_eq_eq_iff.mp same
  obtain ⟨year, month, day⟩ := Date.compare_eq_eq_iff.mp date
  subst year month day second nano
  rfl

theorem lt_of_compare_gt {a b : Instant} (after : compare a b = .gt) : b < a := by
  simp only [compare, Date.compare, Ordering.then_eq_gt, Ordering.then_eq_eq, Nat.compare_eq_gt,
    Nat.compare_eq_eq, Int.compare_eq_gt, Int.compare_eq_eq] at after
  simp only [lt_iff_compare, compare_eq_lt_iff, Date.compare_eq_lt_iff, Date.compare_eq_eq_iff]
  omega

theorem lt_trichotomy (a b : Instant) : a < b ∨ a = b ∨ b < a := by
  cases order : compare a b with
  | lt => exact .inl order
  | eq => exact .inr (.inl (eq_of_compare_eq order))
  | gt => exact .inr (.inr (lt_of_compare_gt order))

end Instant
end StrategySearch
