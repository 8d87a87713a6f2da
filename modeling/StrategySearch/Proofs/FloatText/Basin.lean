import Mathlib
import StrategySearch.FloatText.Shortest
import StrategySearch.Proofs.Double.Canonical

/-! The reals that round to a double.

Basins of different doubles have no number in common: they follow one another, and of two that touch
only one owns the end, since the mantissas of neighbours differ in parity.
-/

set_option autoImplicit false

namespace StrategySearch.FloatText

def Digits.value (c : Digits) : ℚ := c.digits * 10 ^ c.exponent

def Dyadic.size (d : Dyadic) : ℚ := d.mantissa * 2 ^ d.exponent

def Basin.Contains (b : Basin) (exponent : Int) (v : ℚ) : Prop :=
  if b.closed then b.low * 2 ^ (exponent - 2) ≤ v ∧ v ≤ b.high * 2 ^ (exponent - 2)
  else b.low * 2 ^ (exponent - 2) < v ∧ v < b.high * 2 ^ (exponent - 2)

variable {b : Basin} {c : Digits} {e k : Int} {m n : Nat} {v : ℚ}

theorem zpow_eq_div (base : Nat) (positive : 0 < base) (k : Int) :
    (base : ℚ) ^ k = (base ^ k.toNat : Nat) / (base ^ (-k).toNat : Nat) := by
  have nonzero : (base : ℚ) ≠ 0 := by exact_mod_cast positive.ne'
  rw [eq_div_iff (by positivity)]
  push_cast
  rw [← zpow_natCast, ← zpow_natCast, ← zpow_add₀ nonzero]
  congr 1
  omega

theorem tenTo_eq (n : Nat) : tenTo n = 10 ^ n := rfl

theorem twoTo_eq (n : Nat) : twoTo n = 2 ^ n := rfl

theorem exists_weight (c : Digits) (exponent : Int) :
    ∃ weight : ℚ, 0 < weight ∧
      (∀ bound : Nat, bound * 2 ^ (exponent - 2) * weight = (bound *
        (tenTo (-c.exponent).toNat * (⟨false, 1, exponent - 2⟩ : Dyadic).numerator) : Nat)) ∧
      c.value * weight = (c.digits * tenTo c.exponent.toNat *
        (⟨false, 1, exponent - 2⟩ : Dyadic).denominator : Nat) := by
  have ten := zpow_eq_div 10 (by decide) c.exponent
  have two := zpow_eq_div 2 (by decide) (exponent - 2)
  refine ⟨(tenTo (-c.exponent).toNat * twoTo (-(exponent - 2)).toNat : Nat), ?_, fun bound => ?_, ?_⟩
  · exact_mod_cast Nat.mul_pos (tenTo_pos _) (twoTo_pos _)
  · rw [Dyadic.numerator, show (2 : ℚ) = (2 : Nat) from rfl, two, tenTo_eq, twoTo_eq, twoTo_eq]
    push_cast
    field_simp
  · rw [Digits.value, Dyadic.denominator, show (10 : ℚ) = (10 : Nat) from rfl, ten, tenTo_eq,
      tenTo_eq, twoTo_eq]
    push_cast
    field_simp

theorem holds_iff : b.holds e c ↔ b.Contains e c.value := by
  obtain ⟨weight, positive, ends, value⟩ := exists_weight c e
  have below (bound : Nat) : bound * (tenTo (-c.exponent).toNat *
      (⟨false, 1, e - 2⟩ : Dyadic).numerator) ≤ c.digits * tenTo c.exponent.toNat *
        (⟨false, 1, e - 2⟩ : Dyadic).denominator ↔ bound * 2 ^ (e - 2) ≤ c.value := by
    rw [← mul_le_mul_iff_left₀ positive, ends, value, Nat.cast_le]
  have above (bound : Nat) : c.digits * tenTo c.exponent.toNat *
        (⟨false, 1, e - 2⟩ : Dyadic).denominator ≤ bound * (tenTo (-c.exponent).toNat *
      (⟨false, 1, e - 2⟩ : Dyadic).numerator) ↔ c.value ≤ bound * 2 ^ (e - 2) := by
    rw [← mul_le_mul_iff_left₀ positive, ends, value, Nat.cast_le]
  unfold Basin.holds Basin.Contains
  split
  · simp only [Bool.and_eq_true, decide_eq_true_eq, below, above]
  · simp only [Bool.and_eq_true, decide_eq_true_eq, ← not_le, below, above]

/-! ## Basins of different doubles -/

variable {s t : Bool}

/-- The first pair comes before the second: it has the smaller exponent or, under the same, the
smaller mantissa. -/
def Precedes (m : Nat) (e : Int) (n : Nat) (k : Int) : Prop := e < k ∨ e = k ∧ m < n

/-- In quarters of the last place of the first double, its basin ends where that of the second
begins, or before. They touch only where one of the mantissas is odd. -/
theorem high_le_low (first : Double.Canonical m e) (second : Double.Canonical n k)
    (order : Precedes m e n k) :
    (basin ⟨s, m, e⟩).high ≤ (basin ⟨t, n, k⟩).low * 2 ^ (k - e).toNat ∧
      ((basin ⟨s, m, e⟩).high = (basin ⟨t, n, k⟩).low * 2 ^ (k - e).toNat →
        ¬ (m % 2 = 0 ∧ n % 2 = 0)) := by
  have short := first.short
  have low := first.low
  have hidden : twoTo 52 = 2 ^ 52 := rfl
  rcases order with less | ⟨rfl, less⟩
  · -- The second double is normal, and its last place weighs at least twice as much.
    have normal : 2 ^ 52 ≤ n := by
      have := second.full
      omega
    obtain ⟨j, places⟩ : ∃ j, (k - e).toNat = j + 1 := ⟨(k - e).toNat - 1, by omega⟩
    have begins : 2 ^ 54 - 1 ≤ (basin ⟨t, n, k⟩).low := by
      simp only [basin, hidden]
      split <;> omega
    have weight : 1 ≤ 2 ^ j := Nat.one_le_two_pow
    have wide : (2 ^ 54 - 1) * 2 ≤ (basin ⟨t, n, k⟩).low * 2 ^ (j + 1) := by
      rw [Nat.pow_succ]
      exact Nat.mul_le_mul begins (by omega)
    have ends : (basin ⟨s, m, e⟩).high = 4 * m + 2 := rfl
    rw [places, ends]
    omega
  · have ends : (basin ⟨s, m, e⟩).high = 4 * m + 2 := rfl
    rw [Int.sub_self, ends]
    simp only [basin, hidden, Int.toNat_zero, Nat.pow_zero, Nat.mul_one]
    split <;> omega

theorem not_contains_of_precedes (first : Double.Canonical m e) (second : Double.Canonical n k)
    (order : Precedes m e n k) (inFirst : (basin ⟨s, m, e⟩).Contains e v) :
    ¬ (basin ⟨t, n, k⟩).Contains k v := by
  intro inSecond
  have ⟨apart, touch⟩ := high_le_low (s := s) (t := t) first second order
  have unit : (0 : ℚ) < 2 ^ (e - 2) := by positivity
  have weight : (2 : ℚ) ^ (k - 2) = (2 ^ (k - e).toNat : Nat) * 2 ^ (e - 2) := by
    have later : e ≤ k := by
      unfold Precedes at order
      omega
    push_cast
    rw [← zpow_natCast, ← zpow_add₀ two_ne_zero]
    congr 1
    omega
  have ends : ((basin ⟨s, m, e⟩).high : ℚ) * 2 ^ (e - 2) ≤
      (basin ⟨t, n, k⟩).low * 2 ^ (k - 2) := by
    rw [weight, ← mul_assoc]
    exact mul_le_mul_of_nonneg_right (by exact_mod_cast apart) unit.le
  unfold Basin.Contains at inFirst inSecond
  -- The basins may share an end, but then one of them lacks it.
  by_cases closed : (basin ⟨s, m, e⟩).closed ∧ (basin ⟨t, n, k⟩).closed
  · rw [if_pos closed.1] at inFirst
    rw [if_pos closed.2] at inSecond
    have same : ((basin ⟨s, m, e⟩).high : ℚ) * 2 ^ (e - 2) =
        ((basin ⟨t, n, k⟩).low * 2 ^ (k - e).toNat : Nat) * 2 ^ (e - 2) := by
      rw [Nat.cast_mul, mul_assoc, ← weight]
      exact le_antisymm ends (inSecond.1.trans inFirst.2)
    refine touch (by exact_mod_cast mul_right_cancel₀ unit.ne' same) ?_
    simpa [basin] using closed
  · split at inFirst <;> split at inSecond
    · next left right => exact closed ⟨left, right⟩
    all_goals linarith [inFirst.2, inSecond.1]

/-- A number lies in the basin of one double at most. -/
theorem eq_of_contains (first : Double.Canonical m e) (second : Double.Canonical n k)
    (inFirst : (basin ⟨s, m, e⟩).Contains e v) (inSecond : (basin ⟨t, n, k⟩).Contains k v) :
    m = n ∧ e = k := by
  have forward : ¬ Precedes m e n k := fun order =>
    not_contains_of_precedes first second order inFirst inSecond
  have backward : ¬ Precedes n k m e := fun order =>
    not_contains_of_precedes second first order inSecond inFirst
  unfold Precedes at forward backward
  omega

end StrategySearch.FloatText
