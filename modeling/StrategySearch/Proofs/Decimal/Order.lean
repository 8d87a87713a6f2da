import Mathlib.Algebra.Order.Field.Basic
import Mathlib.Algebra.Order.Ring.Rat
import Mathlib.Data.Rat.Cast.Order
import StrategySearch.Decimal.Basic

/-! The order of decimals is that of their values. Decimals of one value and different scale are
different and neither is less. -/

set_option autoImplicit false

namespace StrategySearch.Decimal

def value (d : Decimal) : ℚ := d.coefficient / tenTo d.scale

variable {a b : Decimal}

theorem weight_pos (d : Decimal) : (0 : ℚ) < tenTo d.scale := by
  exact_mod_cast tenTo_pos d.scale

theorem lt_iff_value : a < b ↔ a.value < b.value := by
  unfold value
  rw [div_lt_div_iff₀ a.weight_pos b.weight_pos]
  exact_mod_cast Iff.rfl

theorem le_iff_value : a ≤ b ↔ a.value ≤ b.value := by
  unfold value
  rw [div_le_div_iff₀ a.weight_pos b.weight_pos]
  exact_mod_cast Iff.rfl

instance : Preorder Decimal where
  le_refl a := le_iff_value.mpr le_rfl
  le_trans a b c first second :=
    le_iff_value.mpr ((le_iff_value.mp first).trans (le_iff_value.mp second))
  lt_iff_le_not_ge a b := by
    rw [lt_iff_value, le_iff_value, le_iff_value, lt_iff_le_not_ge]

theorem not_lt_iff : ¬ a < b ↔ b ≤ a := by
  rw [lt_iff_value, le_iff_value, not_lt]

end StrategySearch.Decimal
