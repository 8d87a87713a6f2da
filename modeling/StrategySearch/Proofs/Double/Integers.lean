import StrategySearch.FloatText.Exact
import StrategySearch.Proofs.Double.Canonical

/-!
Integers among the doubles: reading the value of a double off its bits agrees with the arithmetic,
and the double of an integer is the one whose value is that integer, where there is one.
-/

set_option autoImplicit false

namespace StrategySearch.Double

open Float.Model (Format UnpackedFloat)
open Float.Model.UnpackedFloat

variable {m n : Nat} {e : Int} {s : Sign} {x y : Float}

theorem toNat_packComponents (exponent : BitVec 11) (fraction : BitVec 52) :
    (packComponents Format.binary64 s exponent fraction).toNat =
      s.toBitVec.toNat * 2 ^ 63 + exponent.toNat * 2 ^ 52 + fraction.toNat := by
  have inner := exponent.isLt
  have last := fraction.isLt
  simp only [packComponents, BitVec.toNat_append]
  rw [← Nat.shiftLeft_add_eq_or_of_lt last, ← Nat.shiftLeft_add_eq_or_of_lt inner]
  simp only [Nat.shiftLeft_eq]
  ring

def kept : UnpackedFloat → FloatText.Value
  | .infinity s => .infinite (s == .negative)
  | .notANumber => .nan
  | .zero s => .finite ⟨s == .negative, 0, -1074⟩
  | .finite s m e _ => .finite ⟨s == .negative, m, e⟩

theorem value_eq (x : Float) : FloatText.value x = kept x.toModel.unpack := by
  obtain ⟨s, exponent, fraction, bits, shape⟩ := components_cases x.toModel.toBits.toBitVec
  have word : x.toBits.toNat = s.toBitVec.toNat * 2 ^ 63 + exponent.toNat * 2 ^ 52 + fraction.toNat :=
    (congrArg BitVec.toNat bits).trans (toNat_packComponents exponent fraction)
  have unpacked : x.toModel.unpack =
      unpack Format.binary64 (packComponents Format.binary64 s exponent fraction) := by
    rw [← bits]; rfl
  have exponentFits := exponent.isLt
  have fractionFits := fraction.isLt
  -- The fields can be read off whichever sign stands in front of them.
  have exponentBits : FloatText.exponentBits x = exponent.toNat := by
    cases s <;> simp [FloatText.exponentBits, word, twoTo, Sign.toBitVec] <;> omega
  have fractionBits : FloatText.fractionBits x = fraction.toNat := by
    cases s <;> simp [FloatText.fractionBits, word, twoTo, Sign.toBitVec] <;> omega
  have signBit : FloatText.signBit x = (s == .negative) := by
    cases s <;> simp [FloatText.signBit, word, twoTo, Sign.toBitVec] <;> omega
  simp only [FloatText.value, exponentBits, fractionBits, signBit, unpacked]
  obtain rfl | ⟨rfl, rfl⟩ | ⟨rfl, subnormal⟩ | ⟨notZero, notOnes⟩ := shape
  · have empty : fraction.toNat = 0 ↔ fraction = 0#52 := BitVec.toNat_inj (y := 0#52)
    rw [unpack_special]
    by_cases zero : fraction = 0#52 <;> simp [zero, empty, kept]
  · have zero : unpack Format.binary64 (packComponents Format.binary64 s 0#11 0#52) = .zero s :=
      unpack_packedZero
    simp [zero, kept]
  · rw [unpack_subnormal subnormal]
    simp [kept]
  · have low : exponent.toNat ≠ 0 := fun h => notZero (BitVec.eq_of_toNat_eq h)
    have high : exponent.toNat ≠ 2047 := fun h => notOnes (BitVec.eq_of_toNat_eq h)
    rw [unpack_normal notZero notOnes]
    simp [kept, low, high, twoTo, Nat.add_comm]

theorem normalize_natural (canonical : Canonical m e) (writes : Writes m e n) :
    normalize Format.binary64 n 0 .positive = .finite .positive m e canonical.pos := by
  have positive : compare (n : Int) 0 = .gt := by
    have := writes.pos canonical
    rw [compare_gt_iff_gt]
    omega
  simp only [UnpackedFloat.normalize, positive, Int.toNat_natCast]
  exact round_natural canonical writes

/-- Short integers become a double by a conversion and a product with one, -/
theorem unpack_ofNat_short (canonical : Canonical m e) (writes : Writes m e n) (short : n < 2 ^ 53) :
    (Float.ofScientific n false 0).toModel.unpack = .finite .positive m e canonical.pos := by
  have word : n.toUInt64.toFloat.toModel.unpack = .finite .positive m e canonical.pos := by
    have fits : n.toUInt64.toNat = n := UInt64.toNat_ofNat_of_lt' (short.trans (by decide))
    have converted : n.toUInt64.toFloat.toModel.unpack = unpack Format.binary64
      (pack Format.binary64 (normalize Format.binary64 n.toUInt64.toNat 0 .positive)) := rfl
    rw [converted, fits, normalize_natural canonical writes, unpack_pack canonical]
  have one : (Float.ofBits 0x3FF0000000000000).toModel.unpack =
    .finite .positive (1 * 2 ^ 52) (0 - 52) (by decide) := rfl
  have product : (n.toUInt64.toFloat * Float.ofBits 0x3FF0000000000000).toModel.unpack =
    unpack Format.binary64 (pack Format.binary64 (mul Format.binary64
      n.toUInt64.toFloat.toModel.unpack (Float.ofBits 0x3FF0000000000000).toModel.unpack)) := rfl
  have scaled := roundWithAccuracy_scaled (s := .positive) canonical 52
  rw [Float.ofScientific, dif_pos ⟨short, by decide⟩]
  show (n.toUInt64.toFloat * Float.ofBits 0x3FF0000000000000).toModel.unpack = _
  rw [product, word, one]
  show unpack Format.binary64 (pack Format.binary64 (roundWithAccuracy Format.binary64 .positive
    (m * (1 * 2 ^ 52)) (e + (0 - 52)) .exact)) = _
  rw [Nat.one_mul, Int.zero_sub, ← Int.sub_eq_add_neg]
  rw [show (52 : Int) = ((52 : Nat) : Int) from rfl, scaled, unpack_pack canonical]

/-- longer ones by the arithmetic on mantissas alone. -/
theorem unpack_ofNat_long (canonical : Canonical m e) (writes : Writes m e n) (long : 2 ^ 53 ≤ n) :
    (Float.ofScientific n false 0).toModel.unpack = .finite .positive m e canonical.pos := by
  have product : (Float.ofScientific n false 0).toModel.unpack = unpack Format.binary64
      (pack Format.binary64 (UnpackedFloat.ofScientific Format.binary64 n 0)) := by
    rw [Float.ofScientific, dif_neg (by omega)]
    rfl
  -- With a negative exponent the number would be no longer than its mantissa.
  have exponent : 0 ≤ e := by
    by_contra negative
    rw [Writes, Int.toNat_of_nonpos (by omega), Nat.pow_zero, Nat.mul_one] at writes
    have short := canonical.short
    have : n ≤ n * 2 ^ (-e).toNat := Nat.le_mul_of_pos_right n (by positivity)
    omega
  have scaled := roundWithAccuracy_scaled (s := .positive) canonical (e.toNat + 53)
  have shifted : m * 2 ^ (e.toNat + 53) = n <<< 53 := by
    rw [Writes, show (-e).toNat = 0 by omega, Nat.pow_zero, Nat.mul_one] at writes
    rw [Nat.pow_add, ← Nat.mul_assoc, writes, Nat.shiftLeft_eq]
  have nonzero : n ≠ 0 := by omega
  have large : ¬ (2048 : Int) < -n.log2 := by omega
  have positive : Sign.positive * Sign.positive = .positive := rfl
  have width : (e - (e.toNat + 53 : Nat) : Int) = -53 := by omega
  rw [width, shifted] at scaled
  rw [product]
  simp [UnpackedFloat.ofScientific, nonzero, mul, large, positive, Format.mantissaBits, scaled,
    unpack_pack canonical]

theorem unpack_ofNat (canonical : Canonical m e) (writes : Writes m e n) :
    (Float.ofNat n).toModel.unpack = .finite .positive m e canonical.pos := by
  rcases Nat.lt_or_ge n (2 ^ 53) with short | long
  · exact unpack_ofNat_short canonical writes short
  · exact unpack_ofNat_long canonical writes long

theorem unpack_ofInt (canonical : Canonical m e) (writes : Writes m e n) :
    (Float.ofInt (s.apply n)).toModel.unpack = .finite s m e canonical.pos := by
  have positive := writes.pos canonical
  cases s with
  | positive => exact unpack_ofNat canonical writes
  | negative =>
    obtain ⟨k, rfl⟩ : ∃ k, n = k + 1 := ⟨n - 1, by omega⟩
    show unpack Format.binary64 (pack Format.binary64
      (Float.ofNat (k + 1)).toModel.unpack.neg) = _
    rw [unpack_ofNat canonical writes]
    exact unpack_pack canonical

theorem unpack_ofInt_zero : (Float.ofInt 0).toModel.unpack = .zero .positive := by
  rfl

theorem whole?_eq_some {d : FloatText.Dyadic} (value : FloatText.value x = .finite d) {k : Int} :
    FloatText.whole? x = some k ↔
      ∃ n : Nat, d.numerator = n * d.denominator ∧ k = if d.negative then -(n : Int) else n := by
  have positive : 0 < d.denominator := twoTo_pos _
  simp only [FloatText.whole?, value, FloatText.Dyadic.isWhole, beq_iff_eq,
    FloatText.Dyadic.floor]
  constructor
  · intro whole
    split at whole
    · next divides =>
      obtain ⟨n, multiple⟩ := Nat.dvd_of_mod_eq_zero divides
      cases whole
      refine ⟨n, by rw [multiple, Nat.mul_comm], ?_⟩
      have up : (d.denominator * n + d.denominator - 1) / d.denominator = n := by
        rw [Nat.add_sub_assoc positive, Nat.mul_add_div positive, Nat.div_eq_of_lt (by omega),
          Nat.add_zero]
      rw [multiple, up, Nat.mul_div_cancel_left n positive]
    · cases whole
  · rintro ⟨n, multiple, rfl⟩
    have up : (n * d.denominator + d.denominator - 1) / d.denominator = n := by
      rw [Nat.add_sub_assoc positive, Nat.mul_comm, Nat.mul_add_div positive,
        Nat.div_eq_of_lt (by omega), Nat.add_zero]
    rw [multiple, if_pos (Nat.mul_mod_left n d.denominator), up, Nat.mul_div_cancel n positive]

theorem whole?_zero (h : x.toModel.unpack = .zero s) : FloatText.whole? x = some 0 := by
  rw [whole?_eq_some (by rw [value_eq, h]; rfl)]
  refine ⟨0, ?_, by simp⟩
  rw [Nat.zero_mul, FloatText.Dyadic.numerator, Nat.zero_mul]

theorem whole?_finite {pos : 0 < m} (h : x.toModel.unpack = .finite s m e pos) {k : Int} :
    FloatText.whole? x = some k ↔ ∃ n : Nat, Writes m e n ∧ k = s.apply n := by
  rw [whole?_eq_some (by rw [value_eq, h]; rfl)]
  cases s <;> rfl

/-- The double of an integer that some double is equals this double. -/
theorem ofInt_beq_of_whole? {k : Int} (whole : FloatText.whole? x = some k) :
    (Float.ofInt k == x) = true := by
  show UnpackedFloat.beq (Float.ofInt k).toModel.unpack x.toModel.unpack = true
  rw [beq_iff_ne_notANumber_and_eq]
  match h : x.toModel.unpack with
  | .infinity s | .notANumber =>
    simp [FloatText.whole?, value_eq, h, kept] at whole
  | .zero s =>
    obtain rfl : k = 0 := Option.some.inj (whole.symm.trans (whole?_zero h))
    rw [unpack_ofInt_zero]
    cases s <;> simp
  | .finite s m e pos =>
    obtain ⟨n, writes, rfl⟩ := (whole?_finite h).mp whole
    rw [unpack_ofInt (canonical_of_unpack h) writes]
    simp

theorem exists_canonical (positive : 0 < n) (short : n < 2 ^ 53) :
    ∃ m e, Canonical m e ∧ Writes m e n := by
  have log : n.log2 < 53 := (Nat.log2_lt positive.ne').mpr short
  obtain ⟨k, room⟩ : ∃ k, n.log2 + k = 52 := ⟨52 - n.log2, by omega⟩
  have full : (n * 2 ^ k).log2 = 52 := by rw [log2_mul_two_pow positive, room]
  obtain ⟨low, high⟩ := (Nat.log2_eq_iff (by positivity)).mp full
  refine ⟨n * 2 ^ k, -k, ⟨by positivity, high, .inl low, by omega, by omega⟩, ?_⟩
  rw [Writes, Int.toNat_of_nonpos (by omega), Nat.pow_zero, Nat.mul_one, Int.neg_neg,
    Int.toNat_natCast]

theorem whole?_ofInt {k : Int} (short : k.natAbs < 2 ^ 53) :
    FloatText.whole? (Float.ofInt k) = some k := by
  obtain ⟨s, n, rfl⟩ : ∃ (s : Sign) (n : Nat), k = s.apply n := by
    rcases Int.natAbs_eq k with h | h
    · exact ⟨.positive, k.natAbs, h⟩
    · exact ⟨.negative, k.natAbs, h⟩
  rcases Nat.eq_zero_or_pos n with rfl | positive
  · have zero : s.apply ((0 : Nat) : Int) = 0 := by cases s <;> rfl
    rw [zero]
    exact whole?_zero unpack_ofInt_zero
  · have size : (s.apply (n : Int)).natAbs = n := by cases s <;> simp [Sign.apply]
    obtain ⟨m, e, canonical, writes⟩ := exists_canonical positive (by omega)
    exact (whole?_finite (unpack_ofInt canonical writes)).mpr ⟨n, writes, rfl⟩

theorem whole?_congr (equal : (x == y) = true) : FloatText.whole? x = FloatText.whole? y := by
  have same : UnpackedFloat.beq x.toModel.unpack y.toModel.unpack = true := equal
  rw [beq_iff_ne_notANumber_and_eq] at same
  obtain ⟨-, -, same | ⟨left, right⟩ | ⟨left, right⟩⟩ := same
  · rw [FloatText.whole?, FloatText.whole?, value_eq, value_eq, same]
  · rw [whole?_zero left, whole?_zero right]
  · rw [whole?_zero left, whole?_zero right]

theorem toBits_eq (x : Float) : x.toBits.toNat = (if FloatText.signBit x then 2 ^ 63 else 0) +
    FloatText.exponentBits x * 2 ^ 52 + FloatText.fractionBits x := by
  have word := x.toBits.toNat_lt
  simp only [FloatText.signBit, FloatText.exponentBits, FloatText.fractionBits, twoTo, Nat.pow_eq, beq_iff_eq]
  split <;> omega

theorem fields_bounds (x : Float) : FloatText.exponentBits x < 2048 ∧ FloatText.fractionBits x < 2 ^ 52 :=
  ⟨Nat.mod_lt _ (by decide), Nat.mod_lt _ (by decide)⟩

/-- A double is known by its value: there is one that is no number, and the others are their bits. -/
theorem value_injective (same : FloatText.value x = FloatText.value y) : x = y := by
  by_cases nan : FloatText.value x = .nan
  · -- There is one double that is no number.
    have only (z : Float) (nan : FloatText.value z = .nan) : z = Float.nan := by
      by_contra other
      have known := Float.beq_self_iff.mpr other
      have unpacked : z.toModel.unpack = .notANumber := by
        rw [value_eq] at nan
        cases h : z.toModel.unpack <;> simp [h, kept] at nan
        rfl
      have equal : UnpackedFloat.beq z.toModel.unpack z.toModel.unpack = true := known
      rw [beq_iff_ne_notANumber_and_eq] at equal
      exact equal.1 unpacked
    rw [only x nan, only y (same ▸ nan)]
  · have bits : FloatText.signBit x = FloatText.signBit y ∧
        FloatText.exponentBits x = FloatText.exponentBits y ∧
        FloatText.fractionBits x = FloatText.fractionBits y := by
      have left := fields_bounds x
      have right := fields_bounds y
      have hidden : twoTo 52 = 2 ^ 52 := rfl
      unfold FloatText.value at same nan
      simp only [hidden] at same nan
      generalize FloatText.exponentBits x = e at *
      generalize FloatText.exponentBits y = e' at *
      generalize FloatText.fractionBits x = f at *
      generalize FloatText.fractionBits y = f' at *
      generalize FloatText.signBit x = s at *
      generalize FloatText.signBit y = s' at *
      -- The greatest exponent stands for infinity, all others for finite numbers.
      by_cases top : e = 2047 <;> by_cases top' : e' = 2047 <;>
        simp only [top, top', if_true, if_false] at same nan ⊢
      · split at same <;> split at same <;> simp_all
      · split at same <;> split at same <;> simp at same
      · split at same <;> split at same <;> simp at same
      · split at same <;> split at same <;>
          simp only [FloatText.Value.finite.injEq, FloatText.Dyadic.mk.injEq] at same <;>
          exact ⟨same.1, by omega, by omega⟩
    rw [← Float.toBits_inj, ← UInt64.toNat_inj, toBits_eq, toBits_eq, bits.1, bits.2.1, bits.2.2]

theorem whole?_eq_some_iff {k : Int} (short : k.natAbs < 2 ^ 53) :
    FloatText.whole? x = some k ↔ (Float.ofInt k == x) = true :=
  ⟨ofInt_beq_of_whole?, fun equal => (whole?_congr equal).symm.trans (whole?_ofInt short)⟩

theorem isFinite_of_whole? {k : Int} (whole : FloatText.whole? x = some k) : x.isFinite = true := by
  show UnpackedFloat.isFinite x.toModel.unpack = true
  match h : x.toModel.unpack with
  | .infinity s | .notANumber => simp [FloatText.whole?, value_eq, h, kept] at whole
  | .zero s | .finite s m e pos => rfl

end StrategySearch.Double
