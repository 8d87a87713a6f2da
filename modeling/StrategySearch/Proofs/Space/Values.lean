import Mathlib
import StrategySearch.Space.Dimension
import StrategySearch.Proofs.Double.Sign
import StrategySearch.Proofs.Random.Draws

/-!
The values that a dimension gives. One that can be searched gives values of its own range or list,
and breaks down only where its integers cannot be counted with 64 bits.
-/

set_option autoImplicit false

namespace StrategySearch.Dimension

/-- A real that is no number lies nowhere, so it is not outside either. -/
def Gives : Dimension → ParameterValue → Prop
  | .integer low high, .integer n => low ≤ n ∧ n ≤ high
  | .real low high _, .real x => ¬ x < low ∧ ¬ high < x
  | .categorical categories, .category name => name ∈ categories
  | _, _ => False

def Countable : Dimension → Prop
  | .integer low high => high - low < Int64.maxValue.toInt
  | _ => True

def Fits : Dimension → Prop
  | .integer low high => Int64.minValue.toInt ≤ low ∧ high ≤ Int64.maxValue.toInt ∧
      (integer low high).Countable
  | _ => True

/-- The one way in which a dimension breaks down. -/
def Overflows (dimension : Dimension) (stop : Stop) : Prop := stop = .fault ∧ ¬ dimension.Fits

variable {dimension : Dimension} {name : String} {low high : Int} {x y z : Float}

theorem toUnitInterval_nonneg (x : Float) : ¬ toUnitInterval x < 0.0 := by
  have ordered : ¬ (0.5 : Float) < 0.0 ∧ ¬ (0.0 : Float) < 0.0 ∧ ¬ (1.0 : Float) < 0.0 := by
    decide
  unfold toUnitInterval
  split
  · split
    · exact ordered.2.1
    · next above =>
      split
      · exact ordered.2.2
      · exact above
  · exact ordered.1

theorem span_ends (le : low ≤ high) :
    Answer.Ends (Overflows (.integer low high)) (· = high - low + 1) (span low high) := by
  unfold span checked
  split
  · next first =>
    simp only [bind, Except.bind]
    split
    · rfl
    · next large =>
      refine ⟨rfl, fun fits => large ⟨?_, ?_⟩⟩
      · exact Int.le_trans first.1 (by omega)
      · exact fits.2.2
  · next large =>
    refine ⟨rfl, fun fits => large ⟨?_, Int.le_of_lt fits.2.2⟩⟩
    exact Int.le_trans (by decide) (Int.sub_nonneg_of_le le)

theorem span_countable (low high : Int) :
    Answer.Ends (fun _ => True) (fun _ => (integer low high).Countable) (span low high) := by
  unfold span checked
  split
  · simp only [bind, Except.bind]
    split
    · next within => exact within.2
    · trivial
  · trivial

theorem signOf_ofInt (nonneg : 0 ≤ low) : Double.signOf (Float.ofInt low) = some .positive := by
  obtain ⟨n, rfl⟩ := Int.eq_ofNat_of_zero_le nonneg
  exact Double.signOf_ofNat n

theorem int64Floor_nonneg (unit : Float) (nonneg : 0 ≤ low) :
    0 ≤ int64Floor (toUnitInterval unit * Float.ofInt low) :=
  (Double.notBelowZero_share (toUnitInterval_nonneg unit) (signOf_ofInt nonneg)).floorWithin_nonneg
    (by decide)

theorem le_of_accepted (accepted : (integer low high).objection? name = none) : low ≤ high := by
  simp only [objection?] at accepted
  split at accepted
  · cases accepted
  · omega

theorem le_of_accepted_real {prior : Prior} (accepted : (real x y prior).objection? name = none) :
    x ≤ y := by
  simp only [objection?] at accepted
  split at accepted
  · cases accepted
  · next finite =>
    split at accepted
    · cases accepted
    · next above =>
      simp only [Bool.or_eq_true, Bool.not_eq_true', not_or, Bool.not_eq_false] at finite
      exact Double.le_of_not_le (Double.isNaN_of_isFinite finite.1)
        (Double.isNaN_of_isFinite finite.2) above

theorem clamp_ends (prior : Prior) (le : x ≤ y) (z : Float) :
    Answer.Ends (fun _ => False) (fun z => (real x y prior).Gives (.real z)) (clamp x y z) := by
  have ordered := Double.not_lt_of_le le
  rw [clamp, if_pos le]
  split
  · exact ⟨Double.not_lt_self x, ordered⟩
  · next notBelow =>
    split
    · exact ⟨ordered, Double.not_lt_self y⟩
    · next notAbove => exact ⟨notBelow, notAbove⟩

theorem fromUnit_ends (accepted : dimension.objection? name = none) (unit : Float) :
    Answer.Ends dimension.Overflows dimension.Gives (dimension.fromUnit unit) := by
  cases dimension with
  | integer low high =>
    refine (span_ends (le_of_accepted accepted)).bind fun count counted => ?_
    have le := le_of_accepted accepted
    -- The offset is a rounded share of the count, and the minimum holds it within the width.
    have nonneg := int64Floor_nonneg unit (show 0 ≤ count by omega)
    simp only [checked]
    split
    · show low ≤ _ ∧ _ ≤ high
      omega
    · next outside =>
      refine ⟨rfl, fun fits => outside ⟨?_, ?_⟩⟩
      · have := fits.1
        omega
      · have := fits.2.1
        omega
  | real low high prior =>
    have clamped := clamp_ends prior (le_of_accepted_real accepted)
    refine ((clamped _).mono (fun _ => False.elim) fun _ inside => inside).bind fun x inside => ?_
    exact inside
  | categorical categories =>
    have some : categories ≠ [] := by
      simp only [objection?] at accepted
      split at accepted
      · cases accepted
      · next filled => simpa using filled
    have positive := List.length_pos_iff.mpr some
    show _ ∈ categories
    rw [List.getD_eq_getElem _ _ (by omega)]
    exact List.getElem_mem _

theorem fromUnit_countable (dimension : Dimension) (unit : Float) :
    Answer.Ends (fun _ => True) (fun _ => dimension.Countable) (dimension.fromUnit unit) := by
  cases dimension with
  | integer low high =>
    refine (span_countable low high).bind fun count counted => ?_
    refine Answer.Ends.bind (P := fun _ => True) ?_ fun _ _ => counted
    unfold checked
    split <;> trivial
  | real low high prior =>
    refine Answer.Ends.bind (P := fun _ => True) ?_ fun _ _ => trivial
    unfold clamp
    split <;> trivial
  | categorical categories => trivial

theorem sample_ends {γ : Type} [WordSource γ] (accepted : dimension.objection? name = none) :
    Draw.Ends γ dimension.Overflows dimension.Gives dimension.sample :=
  Draw.unit_ends.bind fun unit _ => Draw.Ends.ofAnswer (fromUnit_ends accepted unit)

theorem toUnit_ends (accepted : dimension.objection? name = none) (value : ParameterValue) :
    Answer.Ends dimension.Overflows (fun _ => True) (dimension.toUnit value) := by
  cases dimension with
  | integer low high =>
    simp only [toUnit]
    split
    · trivial
    · split
      · trivial
      · exact (span_ends (le_of_accepted accepted)).bind fun _ _ => trivial
  | real low high prior =>
    simp only [toUnit]
    split
    · trivial
    · split <;> trivial
  | categorical categories =>
    simp only [toUnit]
    split <;> trivial

theorem unitStep_ends (accepted : dimension.objection? name = none) (realSteps : Nat) :
    Answer.Ends dimension.Overflows (fun _ => True) (dimension.unitStep realSteps) := by
  cases dimension with
  | integer low high => exact (span_ends (le_of_accepted accepted)).bind fun _ _ => trivial
  | real | categorical => trivial

end StrategySearch.Dimension
