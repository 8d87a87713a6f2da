import Mathlib
import StrategySearch.Proofs.Double.Canonical

/-!
Rounding to the nearest double. A number is rounded by cutting its mantissa to the 53 bits that the
format keeps; two more bits tell where the number lies behind the cut, and that is enough to find the
closest of all numbers that a mantissa of 53 bits can show.
-/

set_option autoImplicit false

namespace StrategySearch.Double

variable {v v' w w' z : ℚ}

/-! ### The nearest number -/

/-- A number of 53 bits at an exponent that is not below the least one. -/
def Representable (z : ℚ) : Prop := ∃ k f : Int, |k| ≤ 2 ^ 53 ∧ -1074 ≤ f ∧ z = k * 2 ^ f

theorem representable_intCast {k : Int} (short : |k| ≤ 2 ^ 53) : Representable k :=
  ⟨k, 0, short, by decide, by simp⟩

theorem Representable.neg (representable : Representable z) : Representable (-z) := by
  obtain ⟨k, f, short, low, rfl⟩ := representable
  exact ⟨-k, f, by rwa [abs_neg], low, by push_cast; ring⟩

structure Rounds (v w : ℚ) : Prop where
  representable : Representable w
  nearest : ∀ z, Representable z → |w - v| ≤ |z - v|

namespace Rounds

theorem neg (rounds : Rounds v w) : Rounds (-v) (-w) := by
  refine ⟨rounds.representable.neg, fun z representable => ?_⟩
  have closer := rounds.nearest (-z) representable.neg
  rwa [show -w - -v = -(w - v) by ring, show z - -v = -(-z - v) by ring, abs_neg, abs_neg]

theorem eq_of_representable (rounds : Rounds v w) (representable : Representable v) : w = v := by
  have closer := rounds.nearest v representable
  rw [sub_self, abs_zero, abs_nonpos_iff] at closer
  linarith

theorem le_of_le (rounds : Rounds v w) (le : v ≤ z) (representable : Representable z) : w ≤ z := by
  have closer := rounds.nearest z representable
  by_contra above
  rw [abs_of_nonneg (by linarith), abs_of_nonneg (by linarith)] at closer
  linarith

theorem le_of_ge (rounds : Rounds v w) (le : z ≤ v) (representable : Representable z) : z ≤ w := by
  have closer := rounds.nearest z representable
  by_contra below
  rw [abs_of_nonpos (by linarith), abs_of_nonpos (by linarith)] at closer
  linarith

theorem mono (rounds : Rounds v w) (rounds' : Rounds v' w') (lt : v < v') : w ≤ w' := by
  have closer := sq_le_sq.mpr (rounds.nearest w' rounds'.representable)
  have closer' := sq_le_sq.mpr (rounds'.nearest w rounds.representable)
  -- Crossed, each of the two would lie on the far side of the middle between them.
  by_contra crossed
  have apart : 0 < w - w' := by linarith
  have above : 0 ≤ 2 * v - (w + w') := nonneg_of_mul_nonneg_right (by linarith) apart
  have below : 0 ≤ w + w' - 2 * v' := nonneg_of_mul_nonneg_right (by linarith) apart
  linarith

theorem abs_sub_le (rounds : Rounds v w) (normal : 2 ^ (-1022 : Int) ≤ |v|) :
    |w - v| ≤ |v| / 2 ^ 53 := by
  have positive : 0 < |v| := lt_of_lt_of_le (by positivity) normal
  obtain ⟨g, binade⟩ : ∃ g, Int.log 2 |v| = g + 52 := ⟨_, (sub_add_cancel _ 52).symm⟩
  have unit : (0 : ℚ) < 2 ^ g := by positivity
  have full : 2 ^ 52 * 2 ^ g ≤ |v| := by
    have := Int.zpow_log_le_self (b := 2) (by decide) positive
    rwa [binade, Nat.cast_ofNat, zpow_add₀ two_ne_zero, mul_comm] at this
  have short : |v| < 2 ^ 53 * 2 ^ g := by
    have := Int.lt_zpow_succ_log_self (b := 2) (by decide) |v|
    rwa [binade, add_assoc, Nat.cast_ofNat, zpow_add₀ two_ne_zero, mul_comm] at this
  have low : -1074 ≤ g := by
    have := (Int.zpow_le_iff_le_log (b := 2) (x := -1022) (by decide) positive).mp normal
    omega
  -- Among the multiples of the unit of the binade there is one that is close enough.
  have near : |v / 2 ^ g - round (v / 2 ^ g)| ≤ 1 / 2 := abs_sub_round _
  have size : |v / 2 ^ g| < 2 ^ 53 := by
    rw [abs_div, abs_of_pos unit, div_lt_iff₀ unit]
    exact short
  have fits : |round (v / 2 ^ g)| ≤ 2 ^ 53 := by
    have : |(round (v / 2 ^ g) : ℚ)| < 2 ^ 53 + 1 := by
      have := abs_sub_abs_le_abs_sub (round (v / 2 ^ g) : ℚ) (v / 2 ^ g)
      rw [abs_sub_comm] at this
      linarith
    exact Int.lt_add_one_iff.mp (by exact_mod_cast this)
  calc |w - v|
    _ ≤ |round (v / 2 ^ g) * 2 ^ g - v| := rounds.nearest _ ⟨_, g, fits, low, rfl⟩
    _ = |v / 2 ^ g - round (v / 2 ^ g)| * 2 ^ g := by
      rw [abs_sub_comm, ← abs_of_pos unit, ← abs_mul, abs_of_pos unit, sub_mul,
        div_mul_cancel₀ _ unit.ne']
    _ ≤ 1 / 2 * 2 ^ g := by gcongr
    _ ≤ |v| / 2 ^ 53 := by
      rw [le_div_iff₀ (by positivity)]
      linarith

end Rounds

/-! ### Cut mantissas -/

open Float.Model (Format UnpackedFloat totalExponent)
open Float.Model.UnpackedFloat

variable {m r : Nat} {e g : Int} {s : Sign} {t : ℚ} {accuracy : Accuracy} {em : ExtendedMantissa}

def Remains (f : ℚ) : Accuracy → Prop
  | .exact => f = 0
  | .inexact .lt => 0 < f ∧ f < 1 / 2
  | .inexact .eq => f = 1 / 2
  | .inexact .gt => 1 / 2 < f ∧ f < 1

theorem Remains.bounds {f : ℚ} (remains : Remains f accuracy) : 0 ≤ f ∧ f < 1 := by
  match accuracy with
  | .exact | .inexact .lt | .inexact .eq | .inexact .gt =>
    simp only [Remains] at remains
    constructor <;> linarith

/-- The mantissa is the whole part, and the bits behind it tell the rest. -/
def Tells (em : ExtendedMantissa) (t : ℚ) : Prop := Remains (t - em.mantissa) em.accuracy

namespace Tells

theorem of_remains (remains : Remains (t - m) accuracy) :
    Tells (ExtendedMantissa.ofMantissaAndAccuracy m accuracy) t := by
  match accuracy with
  | .exact | .inexact .lt | .inexact .eq | .inexact .gt => exact remains

theorem shiftRightOne (tells : Tells em t) : Tells em.shiftRightOne (t / 2) := by
  obtain ⟨m, roundBit, stickyBit⟩ := em
  have whole : t / 2 - (m / 2 : Nat) = (t - m + (m % 2 : Nat)) / 2 := by
    have : (m : ℚ) = 2 * (m / 2 : Nat) + (m % 2 : Nat) := by exact_mod_cast (Nat.div_add_mod m 2).symm
    linarith
  simp only [Tells, ExtendedMantissa.shiftRightOne, whole]
  unfold Tells at tells
  -- The last bit becomes the round bit, and any bit behind it makes the rest sticky.
  have one : (1 != 0) = true := rfl
  rcases Nat.mod_two_eq_zero_or_one m with last | last <;> cases roundBit <;> cases stickyBit <;>
    simp only [last, one, Remains, ExtendedMantissa.accuracy, Nat.cast_zero, Nat.cast_one,
      bne_self_eq_false, Bool.or_false, Bool.or_true] at tells ⊢ <;>
    first | linarith | constructor <;> linarith

theorem shiftRight (tells : Tells em t) (k : Nat) : Tells (em >>> k) (t / 2 ^ k) := by
  show Tells (k.repeat ExtendedMantissa.shiftRightOne em) (t / 2 ^ k)
  induction k with
  | zero => simpa [Nat.repeat] using tells
  | succ k ih =>
    rw [Nat.repeat, pow_succ, ← div_div]
    exact ih.shiftRightOne

theorem abs_roundedMantissa_sub_le (tells : Tells em t) : |em.roundedMantissa - t| ≤ 1 / 2 := by
  obtain ⟨m, roundBit, stickyBit⟩ := em
  rw [abs_le]
  cases roundBit <;> cases stickyBit <;>
    simp only [Tells, Remains, ExtendedMantissa.accuracy, ExtendedMantissa.roundedMantissa,
      Accuracy.roundToNearestEven] at tells ⊢
  · constructor <;> linarith
  · constructor <;> linarith
  · have : (m % 2 : Nat) = (0 : ℚ) ∨ (m % 2 : Nat) = (1 : ℚ) := by
      exact_mod_cast Nat.mod_two_eq_zero_or_one m
    push_cast at this ⊢
    rcases this with even | odd <;> constructor <;> linarith
  · push_cast
    constructor <;> linarith

end Tells

/-- The whole number of units that is nearest to a full mantissa is the nearest number of all. -/
theorem rounds_of_near (near : |r - t| ≤ 1 / 2) (low : -1074 ≤ g) (short : t < 2 ^ 53)
    (full : 2 ^ 52 ≤ t ∨ g = -1074) : Rounds (t * 2 ^ g) (r * 2 ^ g) := by
  have unit : (0 : ℚ) < 2 ^ g := by positivity
  have multiples (j : Int) : |r * 2 ^ g - t * 2 ^ g| ≤ |j * 2 ^ g - t * 2 ^ g| := by
    rw [← sub_mul, ← sub_mul, abs_mul, abs_mul]
    refine mul_le_mul_of_nonneg_right ?_ (abs_nonneg _)
    by_cases same : j = r
    · rw [same, Int.cast_natCast]
    · have apart : (1 : ℚ) ≤ |(j : ℚ) - r| := by
        exact_mod_cast Int.one_le_abs (sub_ne_zero.mpr same)
      have detour := abs_sub_le (j : ℚ) t r
      rw [abs_sub_comm t] at detour
      linarith
  refine ⟨⟨r, g, ?_, low, by simp⟩, ?_⟩
  · have : (r : ℚ) < 2 ^ 53 + 1 := by linarith [(abs_le.mp near).2]
    have : r < 2 ^ 53 + 1 := by exact_mod_cast this
    rw [Nat.abs_cast]
    omega
  · rintro z ⟨k, f, fits, lowest, rfl⟩
    rcases le_or_gt g f with coarse | fine
    · obtain ⟨n, rfl⟩ := Int.exists_add_of_le coarse
      have multiple : (k : ℚ) * 2 ^ (g + n) = (k * 2 ^ n : Int) * 2 ^ g := by
        rw [zpow_add₀ two_ne_zero, zpow_natCast]
        push_cast
        ring
      rw [multiple]
      exact multiples _
    · -- On a finer grid numbers are smaller than the least full mantissa, and that is no closer.
      have full := full.resolve_right (by omega)
      have size : (k : ℚ) ≤ 2 ^ 53 := by exact_mod_cast (le_abs_self k).trans fits
      have below : (k : ℚ) * 2 ^ f ≤ 2 ^ 52 * 2 ^ g :=
        calc (k : ℚ) * 2 ^ f
          _ ≤ 2 ^ 53 * 2 ^ f := by gcongr
          _ = 2 ^ 52 * 2 ^ (f + 1) := by rw [zpow_add_one₀ two_ne_zero]; ring
          _ ≤ 2 ^ 52 * 2 ^ g := by gcongr <;> [norm_num; omega]
      have above : 2 ^ 52 * 2 ^ g ≤ t * 2 ^ g := by gcongr
      calc |r * 2 ^ g - t * 2 ^ g|
        _ ≤ |((2 ^ 52 : Int) : ℚ) * 2 ^ g - t * 2 ^ g| := multiples (2 ^ 52)
        _ = t * 2 ^ g - 2 ^ 52 * 2 ^ g := by
          rw [Int.cast_pow, Int.cast_ofNat, abs_of_nonpos (sub_nonpos.mpr above), neg_sub]
        _ ≤ t * 2 ^ g - k * 2 ^ f := by linarith
        _ ≤ |k * 2 ^ f - t * 2 ^ g| := by
          rw [abs_sub_comm]
          exact le_abs_self _

/-- At the exponent that the format asks for, a mantissa has 53 bits before the point, or fewer at
the least exponent. -/
theorem cut_mantissa {k : Nat} (remains : Remains (t - m) accuracy)
    (target : Format.binary64.targetExponent (totalExponent m e) = e + k) :
    -1074 ≤ e + k ∧ t / 2 ^ k < 2 ^ 53 ∧ (2 ^ 52 ≤ t / 2 ^ k ∨ e + k = -1074) := by
  obtain ⟨nonneg, lt_one⟩ := remains.bounds
  -- The format asks for 53 bits, but for no exponent below the least one.
  have exponent : e + k = max (m.log2 + 1 + e - 53) (-1074) := by
    rw [← target, targetExponent_binary64, totalExponent]
  have weight : (0 : ℚ) < 2 ^ k := by positivity
  refine ⟨by omega, ?_, ?_⟩
  · have above : m + 1 ≤ 2 ^ (53 + k) :=
      Nat.lt_log2_self.trans_le (Nat.pow_le_pow_right (by decide) (by omega))
    have : (m : ℚ) + 1 ≤ 2 ^ (53 + k) := by exact_mod_cast above
    rw [div_lt_iff₀ weight, ← pow_add]
    linarith
  · by_cases least : e + k = -1074
    · exact .inr least
    · have log : m.log2 = 52 + k := by omega
      have nonzero : m ≠ 0 := by
        rintro rfl
        simp at log
        omega
      have below : 2 ^ (52 + k) ≤ m := log ▸ Nat.log2_self_le nonzero
      have : (2 : ℚ) ^ (52 + k) ≤ m := by exact_mod_cast below
      rw [le_div_iff₀ weight, ← pow_add]
      exact .inl (by linarith)

def factor : Sign → ℚ
  | .positive => 1
  | .negative => -1

def Holds : UnpackedFloat → ℚ → Prop
  | .zero _, v => v = 0
  | .finite s m e _, v => Canonical m e ∧ v = factor s * (m * 2 ^ e)
  | _, _ => False

theorem roundWithAccuracy_eq {r : ExtendedMantissa} {n : Nat} {f : Int} (canonical : Canonical n f)
    (cut : shiftToTargetExponent Format.binary64 m e accuracy = (em, g))
    (again : shiftToTargetExponent Format.binary64 em.roundedMantissa g .exact = (r, f))
    (kept : r.mantissa = n) :
    roundWithAccuracy Format.binary64 s m e accuracy = .finite s n f canonical.pos := by
  subst kept
  simp [roundWithAccuracy, cut, again, canonical.pos.ne']

theorem holds_of_cut (cut : shiftToTargetExponent Format.binary64 m e accuracy = (em, g))
    (short : em.roundedMantissa ≤ 2 ^ 53) (full : 2 ^ 52 ≤ em.roundedMantissa ∨ g = -1074)
    (low : -1074 ≤ g) (high : g ≤ 970) :
    Holds (roundWithAccuracy Format.binary64 s m e accuracy)
      (factor s * (em.roundedMantissa * 2 ^ g)) := by
  rcases Nat.eq_zero_or_pos em.roundedMantissa with zero | positive
  · have again : shiftToTargetExponent Format.binary64 0 g .exact = (⟨0, false, false⟩, g) := by
      have still : (Format.binary64.targetExponent (totalExponent 0 g) - g).toNat = 0 := by
        rw [targetExponent_binary64, totalExponent, Nat.log2_zero]
        omega
      simp only [shiftToTargetExponent, shiftToExponent, still]
      simp [ExtendedMantissa.ofMantissaAndAccuracy, HShiftRight.hShiftRight, Nat.repeat]
    simp [roundWithAccuracy, cut, zero, again, Holds]
  rcases Nat.lt_or_ge em.roundedMantissa (2 ^ 53) with fits | long
  · have canonical : Canonical em.roundedMantissa g := ⟨positive, fits, full, low, by omega⟩
    have again := shiftToTargetExponent_scaled canonical 0
    rw [Nat.pow_zero, Nat.mul_one, Nat.cast_zero, Int.sub_zero] at again
    rw [roundWithAccuracy_eq canonical cut again rfl]
    exact ⟨canonical, rfl⟩
  · -- The rounding has carried into one more bit, so the last one is zero and can go.
    have carried : em.roundedMantissa = 2 ^ 52 * 2 ^ 1 := by omega
    have canonical : Canonical (2 ^ 52) (g + 1) :=
      ⟨by decide, by decide, .inl le_rfl, by omega, by omega⟩
    have again := shiftToTargetExponent_scaled canonical 1
    rw [← carried, Nat.cast_one, add_sub_cancel_right] at again
    rw [roundWithAccuracy_eq canonical cut again rfl]
    refine ⟨canonical, ?_⟩
    rw [carried, zpow_add_one₀ two_ne_zero]
    push_cast
    ring

/-- Rounding a number of which the mantissa has not too few bits gives the double that is nearest to
it, and the number is small enough for that to be finite. -/
theorem roundWithAccuracy_holds (remains : Remains (t - m) accuracy)
    (fine : e ≤ Format.binary64.targetExponent (totalExponent m e)) (small : t * 2 ^ e < 2 ^ 1023) :
    ∃ w, Rounds (t * 2 ^ e) w ∧
      Holds (roundWithAccuracy Format.binary64 s m e accuracy) (factor s * w) := by
  obtain ⟨k, target⟩ := Int.exists_add_of_le fine
  have cut : shiftToTargetExponent Format.binary64 m e accuracy =
      (ExtendedMantissa.ofMantissaAndAccuracy m accuracy >>> k, e + k) := by
    rw [shiftToTargetExponent, target, shiftToExponent, add_sub_cancel_left, Int.toNat_natCast]
  have near := ((Tells.of_remains remains).shiftRight k).abs_roundedMantissa_sub_le
  obtain ⟨low, short, full⟩ := cut_mantissa remains target
  have value : t * 2 ^ e = t / 2 ^ k * 2 ^ (e + k) := by
    rw [zpow_add₀ two_ne_zero, zpow_natCast]
    field_simp
  -- From here on only the cut mantissa and its number of units matter.
  generalize ExtendedMantissa.ofMantissaAndAccuracy m accuracy >>> k = em at cut near
  generalize t / 2 ^ k = t at value near short full
  obtain ⟨below, above⟩ := abs_le.mp near
  rw [value] at small ⊢
  refine ⟨_, rounds_of_near near low short full, holds_of_cut cut ?_ ?_ low ?_⟩
  · have : (em.roundedMantissa : ℚ) < 2 ^ 53 + 1 := by linarith
    exact Nat.lt_add_one_iff.mp (by exact_mod_cast this)
  · refine full.imp_left fun full => ?_
    have : (2 : ℚ) ^ 52 < em.roundedMantissa + 1 := by linarith
    exact Nat.lt_add_one_iff.mp (by exact_mod_cast this)
  · rcases full with full | least
    · have : (2 : ℚ) ^ (52 + (e + k)) < 2 ^ (1023 : Int) := by
        rw [zpow_add₀ two_ne_zero]
        refine lt_of_le_of_lt ?_ small
        gcongr
        exact full
      have := (zpow_lt_zpow_iff_right₀ (by norm_num : (1 : ℚ) < 2)).mp this
      omega
    · omega

end StrategySearch.Double
