import Mathlib
import StrategySearch.FloatText.Exact
import StrategySearch.Proofs.Double.Canonical
import StrategySearch.Proofs.Double.Integers
import StrategySearch.Proofs.Double.Order

/-!
Signs and order of doubles: operations on numbers above zero stay there, doubles that are numbers can
be compared, and nothing turns what is no number into one.
-/

set_option autoImplicit false

namespace StrategySearch.Double

open Float.Model (Format UnpackedFloat)
open Float.Model.UnpackedFloat

variable {m n : Nat} {e : Int} {s t : Sign} {u v : UnpackedFloat} {x y : Float}

def sign? : UnpackedFloat → Option Sign
  | .notANumber => none
  | .infinity s | .zero s | .finite s _ _ _ => some s

theorem sign?_eq_none_iff : sign? u = none ↔ u = .notANumber := by
  cases u <;> simp [sign?]

theorem sign?_roundWithAccuracy (accuracy : Accuracy) :
    sign? (roundWithAccuracy Format.binary64 s m e accuracy) = some s := by
  unfold roundWithAccuracy
  simp only
  split <;> rfl

theorem sign?_unpack (exponent : BitVec 11) (fraction : BitVec 52)
    (number : exponent ≠ -1#11 ∨ fraction = 0#52) :
    sign? (unpack Format.binary64 (packComponents Format.binary64 s exponent fraction)) =
      some s := by
  simp only [unpack, unpackExponent_packComponents, unpackMantissa_packComponents,
    unpackSign_packComponents, Sign.ofBitVec_toBitVec]
  split
  · next ones =>
    rw [if_pos (number.resolve_left (not_not_intro ones))]
    rfl
  · split
    · split <;> rfl
    · rfl

/-- Packing keeps the sign, also where it ends in zero or infinity. -/
theorem sign?_unpack_pack (u : UnpackedFloat) :
    sign? (unpack Format.binary64 (pack Format.binary64 u)) = sign? u := by
  cases u with
  | notANumber => rfl
  | infinity s => cases s <;> rfl
  | zero s => cases s <;> rfl
  | finite s m e pos =>
    simp only [pack]
    -- An exponent that is too large packs to infinity; any other is not all ones.
    split
    · exact sign?_unpack _ _ (.inr rfl)
    · next inside =>
      have short : (e + Format.binary64.exponentBias +
          Format.binary64.mantissaBitsWithoutImplicit).toNat < 2047 := by
        have : ¬ 2 ^ 11 ≤ (e + Format.binary64.exponentBias +
          Format.binary64.mantissaBitsWithoutImplicit).toNat + 1 := inside
        omega
      split
      · refine sign?_unpack _ _ (.inl fun ones => ?_)
        have := congrArg BitVec.toNat ones
        rw [BitVec.toNat_ofNat, Nat.mod_eq_of_lt (Nat.lt_trans short (by decide))] at this
        exact absurd this (Nat.ne_of_lt short)
      · exact sign?_unpack _ _ (.inl (by decide))

theorem sign?_mul_finite {pos : 0 < m} (signed : sign? u = some s) :
    sign? (mul Format.binary64 u (.finite t m e pos)) = some (s * t) := by
  cases u with
  | notANumber => cases signed
  | infinity | zero => cases signed; rfl
  | finite => cases signed; exact sign?_roundWithAccuracy _

theorem sign?_normalize (n : Nat) :
    sign? (normalize Format.binary64 n 0 .positive) = some .positive := by
  simp only [UnpackedFloat.normalize]
  split
  · next negative => exact absurd (Int.compare_eq_lt.mp negative) (by omega)
  · rfl
  · exact sign?_roundWithAccuracy _

def signOf (x : Float) : Option Sign := sign? x.toModel.unpack

theorem signOf_eq_none_iff : signOf x = none ↔ x.isNaN = true := by
  rw [signOf, sign?_eq_none_iff, isNaN_iff]

theorem isNaN_of_pack (packed : x.toModel.unpack = unpack Format.binary64 (pack Format.binary64 u))
    (none : u = .notANumber) : x.isNaN = true := by
  rw [← signOf_eq_none_iff, signOf, packed, sign?_unpack_pack]
  exact sign?_eq_none_iff.mpr none

theorem isNaN_add (none : x.isNaN = true) (y : Float) : (x + y).isNaN = true := by
  refine isNaN_of_pack (x := x + y) rfl ?_
  rw [isNaN_iff.mp none]
  cases y.toModel.unpack <;> rfl

theorem isNaN_sub (none : x.isNaN = true) (y : Float) : (x - y).isNaN = true := by
  refine isNaN_of_pack (x := x - y) rfl ?_
  rw [isNaN_iff.mp none]
  cases y.toModel.unpack <;> rfl

theorem isNaN_div (none : x.isNaN = true) (y : Float) : (x / y).isNaN = true := by
  refine isNaN_of_pack (x := x / y) rfl ?_
  rw [isNaN_iff.mp none]
  cases y.toModel.unpack <;> rfl

theorem signOf_ofNat (n : Nat) : signOf (Float.ofNat n) = some .positive := by
  have one : (Float.ofBits 0x3FF0000000000000).toModel.unpack =
    .finite .positive (2 ^ 52) (-52) (by decide) := rfl
  show signOf (Float.ofScientific n false 0) = _
  unfold Float.ofScientific
  split
  · have word : sign? n.toUInt64.toFloat.toModel.unpack = some .positive :=
      (sign?_unpack_pack _).trans (sign?_normalize _)
    show sign? (unpack Format.binary64 (pack Format.binary64 (mul Format.binary64
      n.toUInt64.toFloat.toModel.unpack (Float.ofBits 0x3FF0000000000000).toModel.unpack))) = _
    rw [sign?_unpack_pack, one]
    exact sign?_mul_finite word
  · refine (sign?_unpack_pack (UnpackedFloat.ofScientific Format.binary64 n 0)).trans ?_
    unfold UnpackedFloat.ofScientific
    split
    · rfl
    split
    · rfl
    split
    · rfl
    split
    · exact sign?_mul_finite (s := .positive) (t := .positive) rfl
    · next negative => exact absurd (Int.le_refl 0) negative

theorem signOf_sqrt (signed : signOf x = some .positive) : signOf x.sqrt = some .positive := by
  refine (sign?_unpack_pack (UnpackedFloat.sqrt Format.binary64 x.toModel.unpack)).trans ?_
  rw [signOf] at signed
  match h : x.toModel.unpack with
  | .notANumber => simp [h, sign?] at signed
  | .infinity .positive | .zero .positive => rfl
  | .infinity .negative | .zero .negative | .finite .negative m e pos => simp [h, sign?] at signed
  | .finite .positive m e pos => exact sign?_roundWithAccuracy _

theorem signOf_div {pos : 0 < m} (dividend : x.toModel.unpack = .finite s m e pos)
    (divisor : signOf y = some t) : signOf (x / y) = some (s / t) := by
  refine (sign?_unpack_pack
    (UnpackedFloat.div Format.binary64 x.toModel.unpack y.toModel.unpack)).trans ?_
  rw [signOf] at divisor
  rw [dividend]
  match h : y.toModel.unpack with
  | .notANumber => simp [h, sign?] at divisor
  | .infinity _ | .zero _ => rw [h] at divisor; cases divisor; rfl
  | .finite _ _ _ _ => rw [h] at divisor; cases divisor; exact sign?_roundWithAccuracy _

theorem zero_of_le_zero (signed : signOf x = some .positive) (le : x ≤ 0.0) :
    x.toModel.unpack = .zero .positive := by
  have none : (0.0 : Float).toModel.unpack = .zero .positive := rfl
  obtain ⟨o, compared, isLE⟩ := le_iff.mp le
  rw [none] at compared
  rw [signOf] at signed
  match h : x.toModel.unpack with
  | .zero .positive => rfl
  | .notANumber => simp [h, sign?] at signed
  | .infinity .negative | .zero .negative | .finite .negative _ _ _ => simp [h, sign?] at signed
  | .infinity .positive | .finite .positive _ _ _ =>
    rw [h] at compared
    cases compared
    cases isLE

def NotBelowZero : UnpackedFloat → Prop
  | .notANumber | .zero _ => True
  | .infinity s | .finite s _ _ _ => s = .positive

theorem notBelowZero_of_sign? (notNegative : sign? u ≠ some .negative) : NotBelowZero u := by
  match u with
  | .notANumber | .zero _ => trivial
  | .infinity .positive | .finite .positive _ _ _ => rfl
  | .infinity .negative | .finite .negative _ _ _ => exact absurd rfl notNegative

namespace NotBelowZero

theorem unpack_pack (above : NotBelowZero u) :
    NotBelowZero (unpack Format.binary64 (pack Format.binary64 u)) := by
  match u with
  | .zero .positive | .zero .negative => trivial
  | .notANumber => exact notBelowZero_of_sign? (by rw [sign?_unpack_pack]; simp [sign?])
  | .infinity s | .finite s _ _ _ =>
    obtain rfl := above
    exact notBelowZero_of_sign? (by rw [sign?_unpack_pack]; simp [sign?])

theorem mul (first : NotBelowZero u) (second : NotBelowZero v) :
    NotBelowZero (UnpackedFloat.mul Format.binary64 u v) := by
  match u, v with
  | .notANumber, _ | .infinity _, .notANumber | .zero _, .notANumber
  | .finite _ _ _ _, .notANumber => trivial
  | .infinity _, .zero _ | .zero _, .infinity _ | .zero _, .zero _ | .zero _, .finite _ _ _ _
  | .finite _ _ _ _, .zero _ => trivial
  | .infinity _, .infinity _ | .infinity _, .finite _ _ _ _ | .finite _ _ _ _, .infinity _ =>
    obtain rfl := first
    obtain rfl := second
    rfl
  | .finite _ m e pos, .finite _ m' e' pos' =>
    obtain rfl := first
    obtain rfl := second
    have product : sign? (UnpackedFloat.mul Format.binary64 (.finite .positive m e pos)
        (.finite .positive m' e' pos')) = some .positive :=
      sign?_mul_finite (s := .positive) (t := .positive) rfl
    exact notBelowZero_of_sign? (by rw [product]; simp)

theorem floorWithin_nonneg {low high : Int} (above : NotBelowZero x.toModel.unpack)
    (zero : 0 ≤ high) : 0 ≤ FloatText.floorWithin low high x := by
  rw [FloatText.floorWithin, value_eq]
  match h : x.toModel.unpack with
  | .notANumber => exact Int.le_refl 0
  | .infinity s =>
    rw [h] at above
    obtain rfl := above
    exact zero
  | .zero s =>
    -- Rounding a zero up gives no unit, whatever its sign.
    have whole : (⟨s == .negative, 0, -1074⟩ : FloatText.Dyadic).floor = 0 := by
      have none := Nat.div_eq_of_lt (Nat.sub_one_lt (twoTo_pos 1074).ne')
      simp [FloatText.Dyadic.floor, FloatText.Dyadic.numerator, FloatText.Dyadic.denominator, none]
    simp only [kept, whole]
    omega
  | .finite s m e pos =>
    rw [h] at above
    obtain rfl := above
    have natural : 0 ≤ (⟨false, m, e⟩ : FloatText.Dyadic).floor := Int.natCast_nonneg _
    show 0 ≤ max low (min high (⟨false, m, e⟩ : FloatText.Dyadic).floor)
    omega

end NotBelowZero

theorem notBelowZero_share (above : ¬ x < 0.0) (count : signOf y = some .positive) :
    NotBelowZero (x * y).toModel.unpack := by
  have second : NotBelowZero y.toModel.unpack :=
    notBelowZero_of_sign? (by rw [← signOf, count]; simp)
  refine NotBelowZero.unpack_pack (NotBelowZero.mul ?_ second)
  have none : (0.0 : Float).toModel.unpack = .zero .positive := rfl
  rw [lt_iff, none] at above
  match h : x.toModel.unpack with
  | .notANumber | .zero _ => trivial
  | .infinity .positive | .finite .positive _ _ _ => rfl
  | .infinity .negative | .finite .negative _ _ _ => exact absurd (by rw [h]; rfl) above

end StrategySearch.Double
