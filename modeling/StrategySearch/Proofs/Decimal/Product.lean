import Mathlib.Algebra.Order.Ring.Abs
import Mathlib.Tactic.Linarith
import StrategySearch.Decimal.Arithmetic
import StrategySearch.Proofs.Decimal.Order

/-! When two decimals have a product.

A product that is too long is rounded to fewer places until it fits. What decides is the last
possible rounding, to an integer: with that one out of range no other fits. So the product of two
decimals has a decimal exactly if it is less than 2^96 - 1/2 in size.
-/

set_option autoImplicit false

namespace StrategySearch.Decimal

section Rounding

variable {n d m s : Nat}

-- The greatest magnitude is odd, so a half above it rounds away from it.
theorem roundHalfEven_lt_bound_iff (pos : 0 < d) :
    roundHalfEven n d < magnitudeBound ↔ 2 * n + d < 2 * magnitudeBound * d := by
  have whole : d * (n / d) + n % d = n := Nat.div_add_mod n d
  have part : n % d < d := Nat.mod_lt n pos
  simp only [roundHalfEven]
  generalize n / d = q at whole ⊢
  generalize n % d = r at whole part ⊢
  rcases Nat.lt_trichotomy (q + 1) magnitudeBound with small | last | large
  · have below : d * (q + 2) ≤ d * magnitudeBound := Nat.mul_le_mul_left d small
    have fits : 2 * n + d < 2 * magnitudeBound * d := by
      rw [Nat.mul_add] at below
      rw [Nat.mul_assoc, Nat.mul_comm magnitudeBound d]
      omega
    refine iff_of_true ?_ fits
    split
    · exact small
    · omega
  · -- The greatest magnitude is odd, so a half behind it is rounded up and out of range.
    have odd : q % 2 = 1 := by unfold magnitudeBound at last; omega
    have q_eq : q = magnitudeBound - 1 := by omega
    have product : d * q + d = magnitudeBound * d := by rw [← last, Nat.mul_comm, Nat.succ_mul, Nat.mul_comm]
    rw [Nat.mul_assoc, ← product]
    simp only [odd, beq_self_eq_true, Bool.and_true, Bool.or_eq_true, decide_eq_true_eq,
      beq_iff_eq]
    split
    · omega
    · omega
  · have above : magnitudeBound * d ≤ d * q := by
      rw [Nat.mul_comm]
      exact Nat.mul_le_mul_left d (by omega)
    refine iff_of_false ?_ ?_
    · split <;> omega
    · rw [Nat.mul_assoc]
      omega

theorem fit?_eq_none_iff :
    fit? m s = none ↔ 2 * magnitudeBound * tenTo s ≤ 2 * m + tenTo s := by
  have integral := roundHalfEven_lt_bound_iff (n := m) (tenTo_pos s)
  simp only [fit?, Option.map_eq_none_iff, List.find?_eq_none, List.mem_range, Bool.and_eq_true,
    decide_eq_true_eq, not_and]
  constructor
  · intro none
    have last := none s (Nat.lt_succ_self s) (Nat.le_add_right s maxScale)
    rw [integral] at last
    exact Nat.not_lt.mp last
  · intro large k inside _ fits
    -- Whatever fits with more places also fits as an integer.
    rw [roundHalfEven_lt_bound_iff (tenTo_pos k)] at fits
    have weights : tenTo k ≤ tenTo s := tenTo_le (Nat.lt_succ_iff.mp inside)
    unfold magnitudeBound at *
    omega

theorem fit?_eq_some {m' s' : Nat} (fits : fit? m s = some (m', s')) :
    m' < magnitudeBound ∧ s' ≤ maxScale := by
  obtain ⟨k, found, same⟩ := Option.map_eq_some_iff.mp fits
  have chosen := List.find?_some found
  simp only [Bool.and_eq_true, decide_eq_true_eq] at chosen
  obtain ⟨rfl, rfl⟩ := Prod.mk.inj same
  exact ⟨chosen.2, by omega⟩

end Rounding

variable {a b : Decimal}

theorem abs_value (d : Decimal) : |d.value| = d.magnitude / tenTo d.scale := by
  have positive := d.weight_pos
  unfold value coefficient
  rw [abs_div, abs_of_pos positive]
  split
  · simp
  · simp

theorem abs_value_mul (a b : Decimal) :
    |a.value * b.value| = (a.magnitude * b.magnitude : Nat) / (tenTo (a.scale + b.scale) : Nat) := by
  rw [abs_mul, abs_value, abs_value, div_mul_div_comm, tenTo_add]
  push_cast
  rfl

/-- The size from which on no magnitude is the nearest one. -/
def overflowBound : ℚ := magnitudeBound - 1 / 2

theorem overflow_iff_magnitudes : overflowBound ≤ |a.value * b.value| ↔
    2 * magnitudeBound * tenTo (a.scale + b.scale) ≤
      2 * (a.magnitude * b.magnitude) + tenTo (a.scale + b.scale) := by
  have positive : (0 : ℚ) < tenTo (a.scale + b.scale) := by exact_mod_cast tenTo_pos _
  rw [abs_value_mul, le_div_iff₀ positive, overflowBound]
  constructor
  · intro le
    have : (2 * magnitudeBound * tenTo (a.scale + b.scale) : ℚ) ≤
        2 * (a.magnitude * b.magnitude : Nat) + tenTo (a.scale + b.scale) := by linarith
    exact_mod_cast this
  · intro le
    have : (2 * magnitudeBound * tenTo (a.scale + b.scale) : ℚ) ≤
        2 * (a.magnitude * b.magnitude : Nat) + tenTo (a.scale + b.scale) := by exact_mod_cast le
    linarith

-- Zero factors and factors whose product vanishes are far below the bound.
theorem not_overflow_of_small (small : a.isZero || b.isZero || vanishes a b) :
    ¬ overflowBound ≤ |a.value * b.value| := by
  rw [overflow_iff_magnitudes, Nat.not_le]
  have positive := tenTo_pos (a.scale + b.scale)
  have product : 2 * (a.magnitude * b.magnitude) < 2 * magnitudeBound := by
    simp only [isZero, vanishes, isShort, Bool.or_eq_true, Bool.and_eq_true, beq_iff_eq,
      decide_eq_true_eq] at small
    rcases small with (none | none) | ⟨⟨first, second⟩, -⟩
    · rw [none, Nat.zero_mul]; decide
    · rw [none, Nat.mul_zero]; decide
    · have short := Nat.mul_lt_mul'' first second
      have fits : UInt32.size * UInt32.size < magnitudeBound := by decide
      omega
  unfold magnitudeBound at *
  omega

theorem mul?_eq_none_iff : a.mul? b = none ↔ overflowBound ≤ |a.value * b.value| := by
  unfold mul?
  split
  · next small => exact iff_of_false nofun (not_overflow_of_small small)
  · rw [overflow_iff_magnitudes, ← fit?_eq_none_iff]
    cases fits : fit? (a.magnitude * b.magnitude) (a.scale + b.scale) with
    | none => simp
    | some pair =>
      have inside := fit?_eq_some fits
      simp [ofParts?, inside]

end StrategySearch.Decimal
