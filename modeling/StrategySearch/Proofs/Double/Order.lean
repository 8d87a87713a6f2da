import Mathlib

/-!
The order of doubles. Numbers are compared by a level that is a linear order; the two zeros share
theirs. What is no number compares with nothing.
-/

set_option autoImplicit false

namespace StrategySearch.Double

open Float.Model (UnpackedFloat)
open Float.Model.UnpackedFloat

variable {u v : UnpackedFloat} {x y z : Float}

theorem compare_eq_none_iff : u.compare v = none ↔ u = .notANumber ∨ v = .notANumber := by
  rcases u with (_ | _) | _ | (_ | _) | ⟨_ | _, _, _, _⟩ <;>
    rcases v with (_ | _) | _ | (_ | _) | ⟨_ | _, _, _, _⟩ <;>
    simp [UnpackedFloat.compare]

theorem lt_iff : x < y ↔ x.toModel.unpack.compare y.toModel.unpack = some .lt := by
  show decide (UnpackedFloat.lt x.toModel.unpack y.toModel.unpack = true) = true ↔ _
  simp [UnpackedFloat.lt]

theorem le_iff : x ≤ y ↔ ∃ o, x.toModel.unpack.compare y.toModel.unpack = some o ∧ o.isLE := by
  show decide (UnpackedFloat.le x.toModel.unpack y.toModel.unpack = true) = true ↔ _
  simp [UnpackedFloat.le, Option.any_eq_true]

theorem isNaN_iff : x.isNaN = true ↔ x.toModel.unpack = .notANumber := by
  show UnpackedFloat.isNaN x.toModel.unpack = true ↔ _
  cases x.toModel.unpack <;> simp [UnpackedFloat.isNaN]

theorem isNaN_of_isFinite (finite : x.isFinite = true) : x.isNaN = false := by
  have finite' : UnpackedFloat.isFinite x.toModel.unpack = true := finite
  show UnpackedFloat.isNaN x.toModel.unpack = false
  cases h : x.toModel.unpack <;> simp_all [UnpackedFloat.isFinite, UnpackedFloat.isNaN]

/-- Sign, exponent and mantissa in the order in which they decide. -/
def level : UnpackedFloat → ℤ ×ₗ ℤ ×ₗ ℤ
  | .infinity .negative => toLex (-2, toLex (0, 0))
  | .finite .negative m e _ => toLex (-1, toLex (-e, -m))
  | .zero _ | .notANumber => toLex (0, toLex (0, 0))
  | .finite .positive m e _ => toLex (1, toLex (e, m))
  | .infinity .positive => toLex (2, toLex (0, 0))

theorem compare_eq_level (first : u ≠ .notANumber) (second : v ≠ .notANumber) :
    u.compare v = some (compare (level u) (level v)) := by
  have natural (m n : Nat) : compare (m : Int) n = compare m n := by
    simp only [compare, compareOfLessAndEq, Nat.cast_lt, Nat.cast_inj]
  have turned (a b : Int) : compare (-a) (-b) = (compare a b).swap := by
    have back : compare b a = (compare a b).swap := Std.OrientedCmp.eq_swap
    rw [← back]
    simp only [compare, compareOfLessAndEq, neg_lt_neg_iff, neg_inj, eq_comm]
  rcases u with (_ | _) | _ | (_ | _) | ⟨_ | _, _, _, _⟩ <;>
    rcases v with (_ | _) | _ | (_ | _) | ⟨_ | _, _, _, _⟩ <;>
    first
      | exact absurd rfl first
      | exact absurd rfl second
      | rfl
      | simp [UnpackedFloat.compare, level, Prod.Lex.compare_def, compareLex, compareOn, natural,
          turned, Ordering.swap_then]

theorem lt_iff_level : x < y ↔ (x.isNaN = false ∧ y.isNaN = false) ∧
    level x.toModel.unpack < level y.toModel.unpack := by
  rw [lt_iff, ← Bool.not_eq_true, ← Bool.not_eq_true, isNaN_iff, isNaN_iff, ← not_or,
    ← compare_eq_none_iff]
  by_cases none : x.toModel.unpack.compare y.toModel.unpack = none
  · simp [none]
  · rw [compare_eq_none_iff, not_or] at none
    simp [compare_eq_level none.1 none.2, compare_lt_iff_lt]

theorem le_iff_level : x ≤ y ↔ (x.isNaN = false ∧ y.isNaN = false) ∧
    level x.toModel.unpack ≤ level y.toModel.unpack := by
  rw [le_iff, ← Bool.not_eq_true, ← Bool.not_eq_true, isNaN_iff, isNaN_iff, ← not_or,
    ← compare_eq_none_iff]
  by_cases none : x.toModel.unpack.compare y.toModel.unpack = none
  · simp [none]
  · rw [compare_eq_none_iff, not_or] at none
    simp [compare_eq_level none.1 none.2, ← compare_le_iff_le, Ordering.isLE_iff_ne_gt]

protected theorem le_of_lt (lt : x < y) : x ≤ y := by
  obtain ⟨numbers, below⟩ := lt_iff_level.mp lt
  exact le_iff_level.mpr ⟨numbers, below.le⟩

protected theorem lt_of_lt_of_le (lt : x < y) (le : y ≤ z) : x < z := by
  obtain ⟨⟨number, -⟩, below⟩ := lt_iff_level.mp lt
  obtain ⟨⟨-, number'⟩, below'⟩ := le_iff_level.mp le
  exact lt_iff_level.mpr ⟨⟨number, number'⟩, below.trans_le below'⟩

theorem isNaN_of_beq_self (differs : (x == x) = false) : x.isNaN = true := by
  rw [isNaN_iff]
  by_contra number
  have same : (x == x) = true := by
    show UnpackedFloat.beq x.toModel.unpack x.toModel.unpack = true
    rw [UnpackedFloat.beq, compare_eq_level number number, compare_eq_iff_eq.mpr rfl]
    rfl
  exact Bool.false_ne_true (differs.symm.trans same)

theorem not_le_of_isNaN (none : y.isNaN = true) (x : Float) : ¬ x ≤ y := by
  rw [le_iff, compare_eq_none_iff.mpr (.inr (isNaN_iff.mp none))]
  simp

theorem not_lt_self (x : Float) : ¬ x < x := by
  rw [lt_iff_level]
  exact fun below => lt_irrefl _ below.2

theorem not_lt_of_le (le : x ≤ y) : ¬ y < x := by
  rw [lt_iff_level, not_and, not_lt]
  exact fun _ => (le_iff_level.mp le).2

theorem le_of_not_le (first : x.isNaN = false) (second : y.isNaN = false) (above : ¬ y ≤ x) :
    x ≤ y := by
  rw [le_iff_level, not_and, not_le] at above
  exact le_iff_level.mpr ⟨⟨first, second⟩, (above ⟨second, first⟩).le⟩

end StrategySearch.Double
