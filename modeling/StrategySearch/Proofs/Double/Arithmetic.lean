import Mathlib
import StrategySearch.Proofs.Double.Integers
import StrategySearch.Proofs.Double.Order
import StrategySearch.Proofs.Double.Rounding

/-!
Arithmetic of doubles by their values. A sum, product or quotient of finite doubles is the double
nearest to that of the values, an integer becomes the double nearest to it, and doubles are in the
order of their values.
-/

set_option autoImplicit false

namespace StrategySearch.Double

open Float.Model (Format UnpackedFloat totalExponent)
open Float.Model.UnpackedFloat

variable {m m' n : Nat} {e e' : Int} {s t : Sign} {u u' : UnpackedFloat} {v v' w : ℚ} {x y : Float}

/-! ### Values and signs -/

theorem factor_mul (s t : Sign) : factor (s * t) = factor s * factor t := by
  cases s <;> cases t <;> decide +kernel

theorem factor_div (s t : Sign) : factor (s / t) = factor s / factor t := by
  cases s <;> cases t <;> decide +kernel

theorem factor_neg (s : Sign) : factor (-s) = -factor s := by
  cases s <;> decide +kernel

theorem cast_apply (s : Sign) (k : Int) : ((s.apply k : Int) : ℚ) = factor s * k := by
  cases s <;> simp [Sign.apply, factor]

theorem abs_factor (s : Sign) : |factor s| = 1 := by
  cases s <;> simp [factor]

theorem Rounds.factor_mul (rounds : Rounds v w) (s : Sign) : Rounds (factor s * v) (factor s * w) := by
  cases s with
  | positive => simpa [factor] using rounds
  | negative => simpa [factor] using rounds.neg

theorem Rounds.self (representable : Representable v) : Rounds v v :=
  ⟨representable, fun z _ => by rw [sub_self, abs_zero]; exact abs_nonneg _⟩

theorem rounds_zero : Rounds 0 0 :=
  .self ⟨0, 0, by decide, by decide, by simp⟩

theorem Canonical.representable (canonical : Canonical m e) : Representable (m * 2 ^ e) :=
  ⟨m, e, by rw [Nat.abs_cast]; exact_mod_cast canonical.short.le, canonical.low, by simp⟩

namespace Holds

theorem representable (holds : Holds u v) : Representable v := by
  match u, holds with
  | .zero _, rfl => exact rounds_zero.representable
  | .finite .positive _ _ _, ⟨canonical, same⟩ => simpa [same, factor] using canonical.representable
  | .finite .negative _ _ _, ⟨canonical, same⟩ =>
    simpa [same, factor] using canonical.representable.neg

theorem unpack_pack (holds : Holds u v) :
    unpack Format.binary64 (pack Format.binary64 u) = u := by
  match u, holds with
  | .zero _, _ => exact unpack_packedZero
  | .finite _ _ _ _, ⟨canonical, _⟩ => exact Double.unpack_pack canonical

theorem neg (holds : Holds u v) : Holds u.neg (-v) := by
  match u, holds with
  | .zero _, rfl => exact neg_zero
  | .finite _ _ _ _, ⟨canonical, rfl⟩ => exact ⟨canonical, by rw [factor_neg, neg_mul]⟩

end Holds

/-! ### Operations on mantissas -/

theorem exact_remains (m : Nat) : Remains ((m : ℚ) - m) .exact :=
  sub_self _

theorem mul_holds_finite (pos : 0 < m) (pos' : 0 < m')
    (fine : e + e' ≤ Format.binary64.targetExponent (totalExponent (m * m') (e + e')))
    (small : (m * 2 ^ e : ℚ) * (m' * 2 ^ e') < 2 ^ 1023) :
    ∃ w, Rounds (factor s * (m * 2 ^ e) * (factor t * (m' * 2 ^ e'))) w ∧
      Holds (mul Format.binary64 (.finite s m e pos) (.finite t m' e' pos')) w := by
  have value : (m * m' : Nat) * (2 : ℚ) ^ (e + e') = m * 2 ^ e * (m' * 2 ^ e') := by
    rw [zpow_add₀ two_ne_zero]
    push_cast
    ring
  rw [← value] at small
  obtain ⟨w, rounds, holds⟩ :=
    roundWithAccuracy_holds (s := s * t) (exact_remains (m * m')) fine small
  refine ⟨_, ?_, holds⟩
  rw [mul_mul_mul_comm, ← value, ← factor_mul]
  exact rounds.factor_mul (s * t)

theorem mul_fine (canonical : Canonical m e) (canonical' : Canonical m' e') :
    e + e' ≤ Format.binary64.targetExponent (totalExponent (m * m') (e + e')) := by
  have long (full : 2 ^ 52 ≤ m * m') : 52 ≤ (m * m').log2 :=
    (Nat.le_log2 (by positivity)).mpr full
  rw [targetExponent_binary64, totalExponent]
  rcases canonical.full with full | least
  · have := long (full.trans (Nat.le_mul_of_pos_right m canonical'.pos))
    omega
  · rcases canonical'.full with full | least'
    · have := long (full.trans (Nat.le_mul_of_pos_left m' canonical.pos))
      omega
    · omega

theorem mul_holds (first : Holds u v) (second : Holds u' v') (small : |v * v'| < 2 ^ 1023) :
    ∃ w, Rounds (v * v') w ∧ Holds (mul Format.binary64 u u') w := by
  match u, u', first, second with
  | .zero _, .zero _, rfl, rfl | .zero _, .finite _ _ _ _, rfl, _ =>
    exact ⟨0, by simpa using rounds_zero, rfl⟩
  | .finite _ _ _ _, .zero _, _, rfl => exact ⟨0, by simpa using rounds_zero, rfl⟩
  | .finite s m e _, .finite t m' e' _, ⟨canonical, rfl⟩, ⟨canonical', rfl⟩ =>
    refine mul_holds_finite _ _ (mul_fine canonical canonical') ?_
    rw [mul_mul_mul_comm, abs_mul, abs_mul, abs_factor, abs_factor, one_mul, one_mul] at small
    exact lt_of_abs_lt small

theorem remains_fraction {r d : Nat} (proper : r < d) :
    Remains ((r : ℚ) / d) (accuracyOfFraction r d) := by
  have divisor : (0 : ℚ) < d := by exact_mod_cast Nat.zero_lt_of_lt proper
  have below : (r : ℚ) / d < 1 := by
    rw [div_lt_one divisor]
    exact_mod_cast proper
  rcases Nat.eq_zero_or_pos r with rfl | positive
  · simp [accuracyOfFraction, Remains]
  have above : 0 < (r : ℚ) / d := div_pos (by exact_mod_cast positive) divisor
  rw [accuracyOfFraction, if_neg positive.ne']
  rcases Nat.lt_trichotomy (2 * r) d with less | half | more
  · have : 2 * (r : ℚ) < d := by exact_mod_cast less
    rw [Nat.compare_eq_lt.mpr less]
    exact ⟨above, by rw [div_lt_div_iff₀ divisor two_pos]; linarith⟩
  · have : 2 * (r : ℚ) = d := by exact_mod_cast half
    rw [Nat.compare_eq_eq.mpr half]
    show (r : ℚ) / d = 1 / 2
    rw [div_eq_div_iff divisor.ne' two_ne_zero]
    linarith
  · have : (d : ℚ) < 2 * r := by exact_mod_cast more
    rw [Nat.compare_eq_gt.mpr more]
    exact ⟨by rw [div_lt_div_iff₀ two_pos divisor]; linarith, below⟩

theorem le_log2_div {k : Nat} (pos' : 0 < m') (longer : m'.log2 + 53 ≤ m.log2 + k) (pos : 0 < m) :
    52 ≤ (m * 2 ^ k / m').log2 := by
  have full : 2 ^ 52 ≤ m * 2 ^ k / m' := by
    rw [Nat.le_div_iff_mul_le pos']
    calc 2 ^ 52 * m'
      _ ≤ 2 ^ 52 * 2 ^ (m'.log2 + 1) := Nat.mul_le_mul_left _ Nat.lt_log2_self.le
      _ = 2 ^ (m'.log2 + 53) := by rw [← Nat.pow_add]; congr 1; omega
      _ ≤ 2 ^ (m.log2 + k) := Nat.pow_le_pow_right two_pos longer
      _ = 2 ^ m.log2 * 2 ^ k := Nat.pow_add _ _ _
      _ ≤ m * 2 ^ k := Nat.mul_le_mul_right _ (Nat.log2_self_le pos.ne')
  exact (Nat.le_log2 (by positivity)).mpr full

/-- The quotient of mantissas has 53 bits or more, or the least exponent, and the remainder tells what
is behind it. -/
theorem divCore_spec (e e' : Int) (pos : 0 < m) (pos' : 0 < m') :
    ∃ q f accuracy r, divCore Format.binary64 m e m' e' = (q, f, accuracy) ∧
      (r : ℚ) * 2 ^ f = m * 2 ^ e / (m' * 2 ^ e') ∧ Remains (r - q) accuracy ∧
      f ≤ Format.binary64.targetExponent (totalExponent q f) := by
  obtain ⟨target, targetIs⟩ : ∃ target, target = min (e - e')
      (Format.binary64.targetExponent (totalExponent m e - totalExponent m' e')) := ⟨_, rfl⟩
  -- The dividend is shifted up so far that the quotient has all its bits.
  obtain ⟨k, shift⟩ : ∃ k : Nat, e - e' = target + k := Int.exists_add_of_le (by omega)
  have amount : (e - e' - target).toNat = k := by omega
  have divisor : (0 : ℚ) < m' := by exact_mod_cast pos'
  refine ⟨m * 2 ^ k / m', target, accuracyOfFraction (m * 2 ^ k % m') m',
    (m * 2 ^ k : Nat) / m', ?_, ?_, ?_, ?_⟩
  · simp only [divCore, ← targetIs, amount, Nat.shiftLeft_eq]
  · rw [show e = target + k + e' by omega, zpow_add₀ two_ne_zero, zpow_add₀ two_ne_zero,
      zpow_natCast]
    push_cast
    field_simp
  · have whole : ((m * 2 ^ k : Nat) : ℚ) / m' - (m * 2 ^ k / m' : Nat) =
        (m * 2 ^ k % m' : Nat) / m' := by
      have : ((m * 2 ^ k : Nat) : ℚ) = m' * (m * 2 ^ k / m' : Nat) + (m * 2 ^ k % m' : Nat) := by
        exact_mod_cast (Nat.div_add_mod _ _).symm
      rw [this]
      field_simp
      ring
    rw [whole]
    exact remains_fraction (Nat.mod_lt _ pos')
  · rw [targetExponent_binary64, totalExponent] at targetIs ⊢
    rw [totalExponent] at targetIs
    by_cases least : target ≤ -1074
    · omega
    · have := le_log2_div (k := k) pos' (by omega) pos
      omega

theorem div_holds (first : Holds u v) (second : Holds u' v') (nonzero : v' ≠ 0)
    (small : |v / v'| < 2 ^ 1023) :
    ∃ w, Rounds (v / v') w ∧ Holds (div Format.binary64 u u') w := by
  match u, u', first, second with
  | .zero _, .zero _, _, isZero | .finite _ _ _ _, .zero _, _, isZero =>
    exact absurd isZero nonzero
  | .zero _, .finite _ _ _ _, isZero, _ =>
    obtain rfl : v = 0 := isZero
    exact ⟨0, by simpa using rounds_zero, rfl⟩
  | .finite s m e pos, .finite t m' e' pos', ⟨_, same⟩, ⟨_, same'⟩ =>
    subst same same'
    obtain ⟨q, f, accuracy, r, core, value, remains, fine⟩ := divCore_spec e e' pos pos'
    rw [mul_div_mul_comm, abs_mul, ← factor_div, abs_factor, one_mul, ← value] at small
    obtain ⟨w, rounds, holds⟩ :=
      roundWithAccuracy_holds (s := s / t) remains fine (lt_of_abs_lt small)
    refine ⟨factor (s / t) * w, ?_, by simpa only [div, core] using holds⟩
    rw [mul_div_mul_comm, ← factor_div, ← value]
    exact rounds.factor_mul (s / t)

theorem round_holds (pos : 0 < m) (small : (m * 2 ^ e : ℚ) < 2 ^ 1023) :
    ∃ w, Rounds (m * 2 ^ e) w ∧ Holds (UnpackedFloat.round Format.binary64 s m e) (factor s * w) := by
  obtain ⟨target, targetIs⟩ : ∃ target,
      Format.binary64.targetExponent (totalExponent m e) = target := ⟨_, rfl⟩
  obtain ⟨k, amount⟩ : ∃ k, (e - target).toNat = k := ⟨_, rfl⟩
  have value : (m * 2 ^ k : Nat) * (2 : ℚ) ^ (e - k) = m * 2 ^ e := by
    rw [zpow_sub₀ two_ne_zero, zpow_natCast]
    push_cast
    field_simp
  have fine : e - k ≤ Format.binary64.targetExponent (totalExponent (m * 2 ^ k) (e - k)) := by
    rw [totalExponent_scaled pos, targetIs]
    omega
  rw [← value] at small ⊢
  simp only [UnpackedFloat.round, targetIs, decreaseExponent, amount, Nat.shiftLeft_eq]
  exact roundWithAccuracy_holds (exact_remains _) fine small

theorem normalize_holds (k : Int) (e : Int) (small : |(k * 2 ^ e : ℚ)| < 2 ^ 1023) :
    ∃ w, Rounds (k * 2 ^ e) w ∧ Holds (normalize Format.binary64 k e .positive) w := by
  obtain ⟨s, n, rfl⟩ : ∃ (s : Sign) (n : Nat), k = s.apply n := by
    rcases Int.natAbs_eq k with same | same
    · exact ⟨.positive, k.natAbs, same⟩
    · exact ⟨.negative, k.natAbs, same⟩
  rcases Nat.eq_zero_or_pos n with rfl | positive
  · have zero : s.apply (0 : Nat) = 0 := by cases s <;> rfl
    rw [zero]
    exact ⟨0, by simpa using rounds_zero, rfl⟩
  have value : ((s.apply n : Int) : ℚ) * 2 ^ e = factor s * (n * 2 ^ e) := by
    rw [cast_apply, mul_assoc, Int.cast_natCast]
  rw [value, abs_mul, abs_factor, one_mul] at small
  obtain ⟨w, rounds, holds⟩ := round_holds (s := s) positive (lt_of_abs_lt small)
  refine ⟨factor s * w, value ▸ rounds.factor_mul s, ?_⟩
  cases s with
  | positive =>
    have above : compare (n : Int) 0 = .gt := Int.compare_eq_gt.mpr (by omega)
    simpa only [UnpackedFloat.normalize, Sign.apply, above, Int.toNat_natCast] using holds
  | negative =>
    have below : compare (-(n : Int)) 0 = .lt := Int.compare_eq_lt.mpr (by omega)
    simpa only [UnpackedFloat.normalize, Sign.apply, below, Int.neg_neg, Int.toNat_natCast]
      using holds

theorem add_holds (first : Holds u v) (second : Holds u' v') (small : |v + v'| < 2 ^ 1023) :
    ∃ w, Rounds (v + v') w ∧ Holds (add Format.binary64 u u') w := by
  match u, u', first, second with
  | .zero s, .zero t, rfl, rfl =>
    refine ⟨0, by simpa using rounds_zero, ?_⟩
    rw [add]
    split <;> rfl
  | .zero _, .finite _ _ _ _, rfl, second =>
    exact ⟨v', by simpa using .self second.representable, second⟩
  | .finite _ _ _ _, .zero _, first, rfl =>
    exact ⟨v, by simpa using .self first.representable, first⟩
  | .finite s m e _, .finite t m' e' _, ⟨_, rfl⟩, ⟨_, rfl⟩ =>
    obtain ⟨low, lowIs⟩ : ∃ low, min e e' = low := ⟨_, rfl⟩
    obtain ⟨k, rfl⟩ : ∃ k : Nat, e = low + k := Int.exists_add_of_le (by omega)
    obtain ⟨k', rfl⟩ : ∃ k' : Nat, e' = low + k' := Int.exists_add_of_le (by omega)
    have value : ((s.apply (m * 2 ^ k : Nat) + t.apply (m' * 2 ^ k' : Nat) : Int) : ℚ) * 2 ^ low =
        factor s * (m * 2 ^ (low + k)) + factor t * (m' * 2 ^ (low + k')) := by
      rw [Int.cast_add, cast_apply, cast_apply, zpow_add₀ two_ne_zero, zpow_add₀ two_ne_zero]
      push_cast
      rw [zpow_natCast, zpow_natCast]
      ring
    rw [← value] at small ⊢
    simpa only [add, lowIs, decreaseExponent, add_sub_cancel_left, Int.toNat_natCast,
      Nat.shiftLeft_eq] using normalize_holds _ low small

theorem sub_eq_add (u u' : UnpackedFloat) :
    sub Format.binary64 u u' = add Format.binary64 u u'.neg := by
  rcases u with _ | _ | _ | _ <;> rcases u' with (_ | _) | _ | _ | ⟨_ | _, _, _, _⟩ <;>
    simp [sub, add, neg, Sign.apply, Int.sub_eq_add_neg]

theorem Canonical.value_lt (canonical : Canonical m e) (canonical' : Canonical m' e')
    (lt : e < e') : (m * 2 ^ e : ℚ) < m' * 2 ^ e' := by
  have low := canonical.low
  have full : 2 ^ 52 ≤ m' := canonical'.full.resolve_right (by omega)
  have short : (m : ℚ) < 2 ^ 53 := by exact_mod_cast canonical.short
  have long : (2 : ℚ) ^ 52 ≤ m' := by exact_mod_cast full
  calc (m : ℚ) * 2 ^ e
    _ < 2 ^ 53 * 2 ^ e := by gcongr
    _ = 2 ^ 52 * 2 ^ (e + 1) := by rw [zpow_add_one₀ two_ne_zero]; ring
    _ ≤ m' * 2 ^ e' := by gcongr <;> [norm_num; omega]

/-- The order of canonical mantissas under their exponents is that of their products. -/
theorem compare_canonical (canonical : Canonical m e) (canonical' : Canonical m' e') :
    (compare e e').then (compare m m') = compare (m * 2 ^ e : ℚ) (m' * 2 ^ e') := by
  rcases lt_trichotomy e e' with lt | rfl | gt
  · rw [compare_lt_iff_lt.mpr lt, compare_lt_iff_lt.mpr (canonical.value_lt canonical' lt)]
    rfl
  · have unit : (0 : ℚ) < 2 ^ e := by positivity
    rw [compare_eq_iff_eq.mpr rfl, Ordering.eq_then]
    rcases lt_trichotomy m m' with lt | rfl | gt
    · rw [compare_lt_iff_lt.mpr lt, eq_comm, compare_lt_iff_lt]
      gcongr
    · rw [compare_eq_iff_eq.mpr rfl, compare_eq_iff_eq.mpr rfl]
    · rw [compare_gt_iff_gt.mpr gt, eq_comm, compare_gt_iff_gt]
      gcongr
  · rw [compare_gt_iff_gt.mpr gt, compare_gt_iff_gt.mpr (canonical'.value_lt canonical gt)]
    rfl

theorem compare_neg (a b : ℚ) : compare (-a) (-b) = (compare a b).swap := by
  rcases lt_trichotomy a b with lt | rfl | gt
  · rw [compare_lt_iff_lt.mpr lt, compare_gt_iff_gt.mpr (neg_lt_neg lt)]
    rfl
  · rw [compare_eq_iff_eq.mpr rfl, compare_eq_iff_eq.mpr rfl]
    rfl
  · rw [compare_gt_iff_gt.mpr gt, compare_lt_iff_lt.mpr (neg_lt_neg gt)]
    rfl

theorem compare_holds (first : Holds u v) (second : Holds u' v') :
    u.compare u' = some (compare v v') := by
  have above {m : Nat} (e : Int) (pos : 0 < m) : (0 : ℚ) < m * 2 ^ e := by positivity
  match u, u', first, second with
  | .zero _, .zero _, rfl, rfl => exact congrArg some (compare_eq_iff_eq.mpr rfl).symm
  | .zero _, .finite .positive _ e pos, rfl, ⟨_, rfl⟩
  | .finite .negative _ e pos, .zero _, ⟨_, rfl⟩, rfl =>
    refine congrArg some (compare_lt_iff_lt.mpr ?_).symm
    simpa [factor] using above e pos
  | .zero _, .finite .negative _ e pos, rfl, ⟨_, rfl⟩
  | .finite .positive _ e pos, .zero _, ⟨_, rfl⟩, rfl =>
    refine congrArg some (compare_gt_iff_gt.mpr ?_).symm
    simpa [factor] using above e pos
  | .finite .negative _ e pos, .finite .positive _ e' pos', ⟨_, rfl⟩, ⟨_, rfl⟩ =>
    refine congrArg some (compare_lt_iff_lt.mpr ?_).symm
    simp only [factor]
    linarith [above e pos, above e' pos']
  | .finite .positive _ e pos, .finite .negative _ e' pos', ⟨_, rfl⟩, ⟨_, rfl⟩ =>
    refine congrArg some (compare_gt_iff_gt.mpr ?_).symm
    simp only [factor]
    linarith [above e pos, above e' pos']
  | .finite .positive m e _, .finite .positive m' e' _, ⟨canonical, rfl⟩, ⟨canonical', rfl⟩ =>
    simp only [UnpackedFloat.compare, compare_canonical canonical canonical', factor, one_mul]
  | .finite .negative m e _, .finite .negative m' e' _, ⟨canonical, rfl⟩, ⟨canonical', rfl⟩ =>
    simp only [UnpackedFloat.compare, compare_canonical canonical canonical', factor, neg_one_mul,
      compare_neg]

/-! ### Doubles -/

def Is (x : Float) (v : ℚ) : Prop := Holds x.toModel.unpack v

theorem below_overflow (short : |v| ≤ 2 ^ 65) : |v| < 2 ^ 1023 :=
  short.trans_lt (pow_lt_pow_right₀ one_lt_two (by decide))

theorem two_pow_toNat (e : Int) : (2 : ℚ) ^ e.toNat = 2 ^ e * 2 ^ (-e).toNat := by
  rw [← zpow_natCast, ← zpow_natCast, ← zpow_add₀ two_ne_zero]
  congr 1
  omega

theorem floor_eq (d : FloatText.Dyadic) :
    d.floor = ⌊(if d.negative then -1 else 1 : ℚ) * (d.mantissa * 2 ^ d.exponent)⌋ := by
  have positive : 0 < d.denominator := twoTo_pos _
  have divisor : (0 : ℚ) < d.denominator := by exact_mod_cast positive
  have value : (d.mantissa * 2 ^ d.exponent : ℚ) = d.numerator / d.denominator := by
    rw [eq_div_iff divisor.ne', FloatText.Dyadic.numerator, FloatText.Dyadic.denominator, twoTo,
      twoTo]
    push_cast [Nat.pow_eq]
    rw [two_pow_toNat d.exponent, mul_assoc]
  rw [value, FloatText.Dyadic.floor]
  generalize d.numerator = n, d.denominator = k at positive divisor
  split
  · -- Down from below zero is up from above it.
    have whole := Nat.div_add_mod (n + k - 1) k
    have rest := Nat.mod_lt (n + k - 1) positive
    generalize (n + k - 1) / k = q at whole
    have above : n ≤ k * q := by omega
    have below : k * q < n + k := by omega
    have above' : (n : ℚ) ≤ k * q := by exact_mod_cast above
    have below' : (k : ℚ) * q < n + k := by exact_mod_cast below
    symm
    rw [Int.floor_eq_iff, neg_one_mul, ← neg_div, le_div_iff₀ divisor, div_lt_iff₀ divisor]
    push_cast
    constructor <;> linarith
  · rw [one_mul, Rat.floor_natCast_div_natCast, Int.natCast_div]

namespace Is

theorem of_pack (holds : Holds u v)
    (same : x.toModel.unpack = unpack Format.binary64 (pack Format.binary64 u)) : Is x v := by
  rw [Is, same, holds.unpack_pack]
  exact holds

theorem isFinite (is : Is x v) : x.isFinite = true := by
  show UnpackedFloat.isFinite x.toModel.unpack = true
  unfold Is at is
  match h : x.toModel.unpack with
  | .zero _ | .finite _ _ _ _ => rfl
  | .infinity _ | .notANumber => rw [h] at is; exact is.elim

theorem add (first : Is x v) (second : Is y v') (small : |v + v'| < 2 ^ 1023) :
    ∃ w, Rounds (v + v') w ∧ Is (x + y) w := by
  obtain ⟨w, rounds, holds⟩ := add_holds first second small
  exact ⟨w, rounds, of_pack holds rfl⟩

theorem sub (first : Is x v) (second : Is y v') (small : |v - v'| < 2 ^ 1023) :
    ∃ w, Rounds (v - v') w ∧ Is (x - y) w := by
  rw [sub_eq_add_neg] at small ⊢
  obtain ⟨w, rounds, holds⟩ := add_holds first (Holds.neg second) small
  rw [← sub_eq_add] at holds
  exact ⟨w, rounds, of_pack holds rfl⟩

theorem neg (is : Is x v) : Is (-x) (-v) :=
  of_pack (Holds.neg is) rfl

theorem add_of_representable (first : Is x v) (second : Is y v') (short : |v + v'| ≤ 2 ^ 65)
    (representable : Representable (v + v')) : Is (x + y) (v + v') := by
  obtain ⟨w, rounds, is⟩ := first.add second (below_overflow short)
  rwa [rounds.eq_of_representable representable] at is

theorem sub_of_representable (first : Is x v) (second : Is y v') (short : |v - v'| ≤ 2 ^ 65)
    (representable : Representable (v - v')) : Is (x - y) (v - v') := by
  obtain ⟨w, rounds, is⟩ := first.sub second (below_overflow short)
  rwa [rounds.eq_of_representable representable] at is

theorem mul (first : Is x v) (second : Is y v') (small : |v * v'| < 2 ^ 1023) :
    ∃ w, Rounds (v * v') w ∧ Is (x * y) w := by
  obtain ⟨w, rounds, holds⟩ := mul_holds first second small
  exact ⟨w, rounds, of_pack holds rfl⟩

theorem div (first : Is x v) (second : Is y v') (nonzero : v' ≠ 0) (small : |v / v'| < 2 ^ 1023) :
    ∃ w, Rounds (v / v') w ∧ Is (x / y) w := by
  obtain ⟨w, rounds, holds⟩ := div_holds first second nonzero small
  exact ⟨w, rounds, of_pack holds rfl⟩

theorem lt_iff (first : Is x v) (second : Is y v') : x < y ↔ v < v' := by
  rw [Double.lt_iff, compare_holds first second, Option.some_inj, compare_lt_iff_lt]

theorem floorWithin_eq (is : Is x v) (low high : Int) :
    FloatText.floorWithin low high x = max low (min high ⌊v⌋) := by
  rw [FloatText.floorWithin, value_eq]
  unfold Is at is
  match h : x.toModel.unpack with
  | .zero _ =>
    rw [h] at is
    obtain rfl : v = 0 := is
    simp [kept, floor_eq]
  | .finite s m e _ =>
    rw [h] at is
    simp only [kept, floor_eq, is.2]
    cases s <;> rfl
  | .infinity _ | .notANumber => rw [h] at is; exact is.elim

theorem ceilWithin_eq (is : Is x v) (low high : Int) :
    FloatText.ceilWithin low high x = min high (max low ⌈v⌉) := by
  rw [FloatText.ceilWithin, is.neg.floorWithin_eq, Int.floor_neg]
  omega

end Is

theorem Writes.value (writes : Writes m e n) : (m * 2 ^ e : ℚ) = n := by
  have whole : (m : ℚ) * 2 ^ e.toNat = n * 2 ^ (-e).toNat := by exact_mod_cast writes
  rw [two_pow_toNat, ← mul_assoc] at whole
  exact mul_right_cancel₀ (by positivity) whole

theorem exists_is_ofNat (small : (n : ℚ) < 2 ^ 1023) : ∃ w, Rounds n w ∧ Is (Float.ofNat n) w := by
  rcases Nat.eq_zero_or_pos n with rfl | positive
  · exact ⟨0, by simpa using rounds_zero, rfl⟩
  rcases Nat.lt_or_ge n (2 ^ 53) with short | long
  · obtain ⟨m, e, canonical, writes⟩ := exists_canonical positive short
    refine ⟨n, writes.value ▸ .self canonical.representable, ?_⟩
    rw [Is, unpack_ofNat canonical writes]
    exact ⟨canonical, by rw [factor, one_mul, writes.value]⟩
  · -- A long number is converted by the product of itself, with zeros behind it, and one.
    have product : (Float.ofNat n).toModel.unpack = unpack Format.binary64
        (pack Format.binary64 (UnpackedFloat.ofScientific Format.binary64 n 0)) := by
      show (Float.ofScientific n false 0).toModel.unpack = _
      rw [Float.ofScientific, dif_neg (by omega)]
      rfl
    have large : ¬ (2048 : Int) < -n.log2 := by omega
    have conversion : UnpackedFloat.ofScientific Format.binary64 n 0 = UnpackedFloat.mul
        Format.binary64 (.finite .positive (n * 2 ^ 53) (-53) (by positivity))
        (.finite .positive 1 0 one_pos) := by
      simp [UnpackedFloat.ofScientific, positive.ne', large, Format.mantissaBits, Nat.shiftLeft_eq]
    have value : ((n * 2 ^ 53 : Nat) : ℚ) * 2 ^ (-53 : Int) * ((1 : Nat) * 2 ^ (0 : Int)) = n := by
      push_cast
      norm_num [mul_assoc]
    have log : (n * 2 ^ 53 * 1).log2 = n.log2 + 53 := by rw [mul_one, log2_mul_two_pow positive]
    have fine : (-53 : Int) + 0 ≤ Format.binary64.targetExponent
        (totalExponent (n * 2 ^ 53 * 1) (-53 + 0)) := by
      rw [targetExponent_binary64, totalExponent, log]
      omega
    obtain ⟨w, rounds, holds⟩ := mul_holds_finite (s := .positive) (t := .positive)
      (by positivity) one_pos fine (value.trans_lt small)
    rw [factor, one_mul, one_mul, value] at rounds
    exact ⟨w, rounds, Is.of_pack (conversion ▸ holds) product⟩

theorem exists_is_ofInt {k : Int} (small : |(k : ℚ)| < 2 ^ 1023) :
    ∃ w, Rounds k w ∧ Is (Float.ofInt k) w := by
  cases k with
  | ofNat n => exact exists_is_ofNat (by simpa using small)
  | negSucc n =>
    have value : ((Int.negSucc n : Int) : ℚ) = -((n + 1 : Nat) : ℚ) := by
      rw [Int.cast_negSucc]
    rw [value, abs_neg] at small
    obtain ⟨w, rounds, is⟩ := exists_is_ofNat (lt_of_abs_lt small)
    exact ⟨-w, value ▸ rounds.neg, is.neg⟩

/-- Integers of 53 bits stay as they are. -/
theorem is_ofInt {k : Int} (short : |k| ≤ 2 ^ 53) : Is (Float.ofInt k) k := by
  have small : |(k : ℚ)| ≤ 2 ^ 65 := by exact_mod_cast short.trans (by decide)
  obtain ⟨w, rounds, is⟩ := exists_is_ofInt (below_overflow small)
  rwa [rounds.eq_of_representable (representable_intCast short)] at is

/-! ### Constants -/

theorem is_zero : Is 0.0 0 := rfl

theorem is_half : Is 0.5 (1 / 2) := by
  have half : (0.5 : Float).toModel.unpack = .finite .positive (2 ^ 52) (-53) (by decide) := rfl
  rw [Is, half]
  exact ⟨⟨by decide, by decide, .inl le_rfl, by decide, by decide⟩, by norm_num [factor]⟩

theorem is_quarter : Is 0.25 (1 / 4) := by
  have quarter : (0.25 : Float).toModel.unpack = .finite .positive (2 ^ 52) (-54) (by decide) := rfl
  rw [Is, quarter]
  exact ⟨⟨by decide, by decide, .inl le_rfl, by decide, by decide⟩, by norm_num [factor]⟩

theorem is_one : Is 1.0 1 := by
  have one : (1.0 : Float).toModel.unpack = .finite .positive (2 ^ 52) (-52) (by decide) := rfl
  rw [Is, one]
  exact ⟨⟨by decide, by decide, .inl le_rfl, by decide, by decide⟩, by norm_num [factor]⟩

end StrategySearch.Double
