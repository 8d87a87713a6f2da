import Mathlib

/-!
Doubles as they are kept: a mantissa of 53 bits under the exponent that the format asks for.
Packing such a pair loses nothing, and rounding any other writing of its value leads back to it.
-/

set_option autoImplicit false

namespace StrategySearch.Double

open Float.Model (Format UnpackedFloat totalExponent)
open Float.Model.UnpackedFloat

/-- Normal numbers have their 53rd bit; subnormal ones share the least exponent. -/
structure Canonical (m : Nat) (e : Int) : Prop where
  pos : 0 < m
  short : m < 2 ^ 53
  full : 2 ^ 52 ≤ m ∨ e = -1074
  low : -1074 ≤ e
  high : e ≤ 971

variable {m n : Nat} {e : Int} {s : Sign}

theorem log2_mul_two_pow (pos : 0 < m) (k : Nat) : (m * 2 ^ k).log2 = m.log2 + k := by
  have nonzero : m * 2 ^ k ≠ 0 := by positivity
  rw [Nat.log2_eq_iff nonzero, show m.log2 + k + 1 = m.log2 + 1 + k by omega, Nat.pow_add,
    Nat.pow_add]
  constructor
  · exact Nat.mul_le_mul_right _ (Nat.log2_self_le pos.ne')
  · exact Nat.mul_lt_mul_of_pos_right Nat.lt_log2_self (by positivity)

theorem totalExponent_scaled (pos : 0 < m) (k : Nat) :
    totalExponent (m * 2 ^ k) (e - k) = totalExponent m e := by
  rw [totalExponent, log2_mul_two_pow pos, totalExponent]
  omega

theorem targetExponent_binary64 (total : Int) :
    Format.binary64.targetExponent total = max (total - 53) (-1074) := by
  norm_num [Format.targetExponent, Format.mantissaBits, Format.minExponent]

namespace Canonical

theorem log2_lt (canonical : Canonical m e) : m.log2 < 53 :=
  (Nat.log2_lt canonical.pos.ne').mpr canonical.short

theorem log2_eq (canonical : Canonical m e) (normal : 2 ^ 52 ≤ m) : m.log2 = 52 :=
  (Nat.log2_eq_iff canonical.pos.ne').mpr ⟨normal, canonical.short⟩

theorem targetExponent_eq (canonical : Canonical m e) :
    Format.binary64.targetExponent (totalExponent m e) = e := by
  have low := canonical.low
  have below := canonical.log2_lt
  rw [targetExponent_binary64, totalExponent]
  rcases canonical.full with normal | least
  · rw [canonical.log2_eq normal]
    omega
  · omega

end Canonical

theorem shiftRight_exact (k : Nat) :
    (⟨m * 2 ^ k, false, false⟩ : ExtendedMantissa) >>> k = ⟨m, false, false⟩ := by
  show k.repeat ExtendedMantissa.shiftRightOne _ = _
  induction k generalizing m with
  | zero => simp [Nat.repeat]
  | succ k ih =>
    rw [Nat.repeat, show m * 2 ^ (k + 1) = m * 2 * 2 ^ k by rw [Nat.pow_succ]; ring, ih]
    simp [ExtendedMantissa.shiftRightOne]

theorem shiftToTargetExponent_scaled (canonical : Canonical m e) (k : Nat) :
    shiftToTargetExponent Format.binary64 (m * 2 ^ k) (e - k) .exact =
      (⟨m, false, false⟩, e) := by
  have shift : (e - (e - k)).toNat = k := by omega
  rw [shiftToTargetExponent, totalExponent_scaled canonical.pos, canonical.targetExponent_eq,
    shiftToExponent, shift]
  simp only [ExtendedMantissa.ofMantissaAndAccuracy, shiftRight_exact, Int.sub_add_cancel]

/-- The mantissa may carry any number of zero bits; rounding takes off just these. -/
theorem roundWithAccuracy_scaled (canonical : Canonical m e) (k : Nat) :
    roundWithAccuracy Format.binary64 s (m * 2 ^ k) (e - k) .exact =
      .finite s m e canonical.pos := by
  have second := shiftToTargetExponent_scaled canonical 0
  simp only [Nat.pow_zero, Nat.mul_one, Nat.cast_zero, Int.sub_zero] at second
  simp [roundWithAccuracy, shiftToTargetExponent_scaled canonical k, ExtendedMantissa.accuracy,
    ExtendedMantissa.roundedMantissa, Accuracy.roundToNearestEven, second, canonical.pos.ne']

def Writes (m : Nat) (e : Int) (n : Nat) : Prop := m * 2 ^ e.toNat = n * 2 ^ (-e).toNat

theorem Writes.pos (writes : Writes m e n) (canonical : Canonical m e) : 0 < n := by
  have product : 0 < n * 2 ^ (-e).toNat := by
    rw [← writes]
    exact Nat.mul_pos canonical.pos (by positivity)
  exact Nat.pos_of_mul_pos_right product

theorem round_natural (canonical : Canonical m e) (writes : Writes m e n) :
    UnpackedFloat.round Format.binary64 s n 0 = .finite s m e canonical.pos := by
  have total : totalExponent n 0 = totalExponent m e := by
    have logs := congrArg Nat.log2 writes
    rw [log2_mul_two_pow canonical.pos, log2_mul_two_pow (writes.pos canonical)] at logs
    simp only [totalExponent]
    omega
  have exponent : (0 : Int) - ((-e).toNat : Int) = e - (e.toNat : Int) := by omega
  have mantissa : n <<< (-e).toNat = m * 2 ^ e.toNat := by rw [Nat.shiftLeft_eq, writes]
  simp only [UnpackedFloat.round, total, canonical.targetExponent_eq, decreaseExponent]
  rw [Int.zero_sub, mantissa, exponent]
  exact roundWithAccuracy_scaled canonical e.toNat

theorem toNat_hidden_append (fraction : BitVec 52) :
    (1#1 ++ fraction).toNat = 2 ^ 52 + fraction.toNat := by
  have bits := Nat.two_pow_add_eq_or_of_lt fraction.isLt 1
  rw [Nat.mul_one] at bits
  rw [BitVec.toNat_append, BitVec.toNat_one (by decide), Nat.one_shiftLeft, bits]

theorem unpack_normal {exponent : BitVec 11} {fraction : BitVec 52}
    (notZero : exponent ≠ 0#11) (notOnes : exponent ≠ -1#11) :
    unpack Format.binary64 (packComponents Format.binary64 s exponent fraction) =
      .finite s (2 ^ 52 + fraction.toNat) (exponent.toNat - 1075) (by omega) := by
  simp only [unpack, unpackExponent_packComponents, unpackMantissa_packComponents,
    unpackSign_packComponents, Sign.ofBitVec_toBitVec, notZero, notOnes, if_false,
    toNat_hidden_append, Format.exponentBias]
  norm_num

theorem unpack_subnormal {fraction : BitVec 52} (pos : 0 < fraction.toNat) :
    unpack Format.binary64 (packComponents Format.binary64 s 0#11 fraction) =
      .finite s fraction.toNat (-1074) pos := by
  have notZero : fraction ≠ 0#52 := by
    rintro rfl
    exact absurd pos (by decide)
  simp [unpack, notZero, Format.exponentBias]

theorem unpack_special (fraction : BitVec 52) :
    unpack Format.binary64 (packComponents Format.binary64 s (-1#11) fraction) =
      if fraction = 0#52 then .infinity s else .notANumber := by
  simp [unpack]

/-- The bits of a double: infinity or nothing, zero, a subnormal number, a normal one. -/
theorem components_cases (bits : BitVec 64) :
    ∃ (s : Sign) (exponent : BitVec 11) (fraction : BitVec 52),
      bits = packComponents Format.binary64 s exponent fraction ∧
        (exponent = -1#11 ∨ exponent = 0#11 ∧ fraction = 0#52 ∨
          exponent = 0#11 ∧ 0 < fraction.toNat ∨ exponent ≠ 0#11 ∧ exponent ≠ -1#11) := by
  refine ⟨_, _, _, (@packComponents_unpackSign_unpackExponent_unpackMantissa
    Format.binary64 bits).symm, ?_⟩
  generalize @unpackExponent Format.binary64 bits = exponent
  generalize @unpackMantissa Format.binary64 bits = fraction
  have zero : fraction = 0#52 ∨ 0 < fraction.toNat :=
    (Nat.eq_zero_or_pos fraction.toNat).imp_left BitVec.eq_of_toNat_eq
  tauto

theorem unpack_pack_normal (canonical : Canonical m e) (normal : 2 ^ 52 ≤ m) :
    unpack Format.binary64 (pack Format.binary64 (.finite s m e canonical.pos)) =
      .finite s m e canonical.pos := by
  have short := canonical.short
  have low := canonical.low
  have high := canonical.high
  obtain ⟨biased, rfl, positive, fits⟩ : ∃ biased : Nat, e = biased - 1075 ∧ 0 < biased ∧
      biased < 2047 := ⟨(e + 1075).toNat, by omega, by omega, by omega⟩
  have field : ((biased : Int) - 1075 + 1023 + 52).toNat = biased := by omega
  have packed : pack Format.binary64 (.finite s m (biased - 1075) canonical.pos) =
      packComponents Format.binary64 s (BitVec.ofNat 11 biased) (BitVec.ofNat 52 m) := by
    have room : ¬ 2047 ≤ biased := by omega
    simp [pack, Format.exponentBias, Format.mantissaBits, canonical.log2_eq normal, field, room]
  have notZero : BitVec.ofNat 11 biased ≠ 0#11 := by
    simp [← BitVec.toNat_inj]
    omega
  have notOnes : BitVec.ofNat 11 biased ≠ -1#11 := by
    simp [← BitVec.toNat_inj]
    omega
  rw [packed, unpack_normal notZero notOnes]
  simp only [BitVec.toNat_ofNat, UnpackedFloat.finite.injEq, true_and]
  omega

theorem unpack_pack_subnormal (canonical : Canonical m e) (subnormal : m < 2 ^ 52) :
    unpack Format.binary64 (pack Format.binary64 (.finite s m e canonical.pos)) =
      .finite s m e canonical.pos := by
  have positive := canonical.pos
  have least : e = -1074 := by have := canonical.full; omega
  have log : m.log2 ≠ 52 := by
    have := (Nat.log2_lt canonical.pos.ne').mpr subnormal
    omega
  subst least
  have fraction : (BitVec.ofNat 52 m).toNat = m := by
    rw [BitVec.toNat_ofNat]
    omega
  have packed : pack Format.binary64 (.finite s m (-1074) canonical.pos) =
      packComponents Format.binary64 s 0#11 (BitVec.ofNat 52 m) := by
    simp [pack, Format.exponentBias, Format.mantissaBits, log]
  rw [packed, unpack_subnormal (by omega)]
  simp only [fraction]

theorem unpack_pack (canonical : Canonical m e) :
    unpack Format.binary64 (pack Format.binary64 (.finite s m e canonical.pos)) =
      .finite s m e canonical.pos := by
  by_cases normal : 2 ^ 52 ≤ m
  · exact unpack_pack_normal canonical normal
  · exact unpack_pack_subnormal canonical (by omega)

/-- Every double that is a number other than zero is kept in canonical form. -/
theorem canonical_of_unpack {bits : BitVec 64} {pos : 0 < m}
    (h : unpack Format.binary64 bits = .finite s m e pos) : Canonical m e := by
  obtain ⟨_, exponent, fraction, rfl, special | ⟨rfl, rfl⟩ | ⟨rfl, subnormal⟩ | normal⟩ :=
    components_cases bits
  · rw [special, unpack_special] at h
    split at h <;> cases h
  · have zero := h.symm.trans unpack_packedZero
    cases zero
  · rw [unpack_subnormal subnormal] at h
    cases h
    exact ⟨pos, by omega, .inr rfl, by omega, by omega⟩
  · obtain ⟨notZero, notOnes⟩ := normal
    rw [unpack_normal notZero notOnes] at h
    cases h
    have low : exponent.toNat ≠ 0 := fun h => notZero (BitVec.eq_of_toNat_eq h)
    have high : exponent.toNat ≠ 2047 := fun h => notOnes (BitVec.eq_of_toNat_eq h)
    exact ⟨pos, by omega, .inl (by omega), by omega, by omega⟩

end StrategySearch.Double
