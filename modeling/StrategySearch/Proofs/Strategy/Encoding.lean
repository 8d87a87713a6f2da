import StrategySearch.Proofs.Double.Integers
import StrategySearch.Proofs.Strategy.Places

/-!
How a parameter travels: which fields take a value, and what they read from the document that stands
for it.
-/

set_option autoImplicit false

namespace StrategySearch

namespace Content

def Equals : Content Int32 Float → ParameterValue → Prop
  | .whole k, .integer n => k.toInt = n
  | .whole k, .real x => (Float.ofInt k.toInt == x) = true
  | .real y, .integer n => y = Float.ofInt n
  | .real y, .real x => (y == x) = true
  | _, .category _ => False

/-- A field that holds this may be set to the value: a whole number of 32 bits, or any finite
number. -/
def Admits : Content Int32 Float → ParameterValue → Prop
  | .whole _, .integer n => ∃ k : Int32, k.toInt = n
  | .whole _, .real x => ∃ k : Int32, (Float.ofInt k.toInt == x) = true
  | .real _, .integer _ => True
  | .real _, .real x => x.isFinite = true
  | _, .category _ => False

theorem admits_whole {k : Int32} {value : ParameterValue} :
    (whole k : Content Int32 Float).Admits value ↔
      ∃ n, (whole n : Content Int32 Float).Equals value := by
  cases value <;> simp [Admits, Equals]

end Content

theorem Json.int32?_eq_some {j : Json} {k : Int32} :
    j.int32? = some k ↔ j = .integer k.toInt := by
  cases j with
  | integer n =>
    simp only [Json.int32?, Json.integerWithin?, Json.integer.injEq]
    constructor
    · intro settled
      split at settled
      · next fits =>
        have same : Int32.ofInt n = k := by simpa using settled
        have high : n ≤ 2147483647 := fits.2
        rw [← same, Int32.toInt_ofInt_of_le fits.1 (by omega)]
      · cases settled
    · rintro rfl
      rw [if_pos ⟨k.minValue_le_toInt, k.toInt_le⟩, Option.map_some, Int32.ofInt_toInt]
  | _ => simp [Json.int32?, Json.integerWithin?]

theorem Json.float?_ofFloat {x y : Float} :
    (Json.ofFloat x).float? = some y ↔ x.isFinite = true ∧ x = y := by
  unfold Json.ofFloat
  split
  · next finite => simp [Json.float?, finite]
  · next other => simp [Json.float?, other]

namespace Bundle

variable {value : ParameterValue} {x y : Float} {k : Int32}

theorem natAbs_toInt_lt (k : Int32) : k.toInt.natAbs < 2 ^ 53 := by
  have low := k.le_toInt
  have high := k.toInt_lt
  omega

theorem integral_real (x : Float) :
    (∃ n, FloatText.whole? x = some n ∧ integral (.real x) = .integer n) ∨
      (∀ n, FloatText.whole? x = some n → 2 ^ 63 ≤ n.natAbs) ∧ integral (.real x) = Json.ofFloat x := by
  cases h : FloatText.whole? x with
  | none => exact .inr ⟨by simp, by simp [integral, h, ParameterValue.toJson]⟩
  | some n =>
    by_cases short : n.natAbs < 0x8000000000000000
    · exact .inl ⟨n, rfl, by simp [integral, h, Option.filter_some, short]⟩
    · refine .inr ⟨?_, by simp [integral, h, Option.filter_some, short, ParameterValue.toJson]⟩
      rintro _ ⟨⟩
      omega

theorem int32?_integral :
    (integral value).int32? = some k ↔ (Content.whole k : Content Int32 Float).Equals value := by
  rw [Json.int32?_eq_some]
  cases value with
  | integer n => simp [integral, ParameterValue.toJson, Content.Equals, eq_comm]
  | category name => simp [integral, ParameterValue.toJson, Content.Equals]
  | real x =>
    rw [Content.Equals, ← Double.whole?_eq_some_iff (natAbs_toInt_lt k)]
    rcases integral_real x with ⟨n, whole, encoded⟩ | ⟨long, encoded⟩
    · rw [encoded, whole]
      simp
    · have short := natAbs_toInt_lt k
      rw [encoded]
      constructor
      · unfold Json.ofFloat
        split <;> intro h <;> cases h
      · intro whole
        have := long _ whole
        omega

theorem beq_self_of_isFinite (finite : x.isFinite = true) : (x == x) = true := by
  rw [Float.beq_self_iff]
  rintro rfl
  cases finite

theorem float?_ofFloat_isSome : (Json.ofFloat x).float?.isSome ↔ x.isFinite = true := by
  simp [Option.isSome_iff_exists, Json.float?_ofFloat]

structure Carries (j : Json) (value : ParameterValue) : Prop where
  equals : ∀ y, j.float? = some y → (Content.real y : Content Int32 Float).Equals value
  admits : ∀ old, j.float?.isSome ↔ (Content.real old : Content Int32 Float).Admits value

theorem carries_ofFloat (x : Float) : Carries (Json.ofFloat x) (.real x) where
  equals y h := by
    obtain ⟨finite, rfl⟩ := Json.float?_ofFloat.mp h
    exact beq_self_of_isFinite finite
  admits old := float?_ofFloat_isSome

theorem carries_toJson (value : ParameterValue) : Carries value.toJson value := by
  cases value with
  | integer n =>
    constructor
    · intro y h
      exact (Option.some.inj h).symm
    · intro old
      exact ⟨fun _ => trivial, fun _ => rfl⟩
  | category name =>
    constructor
    · intro y h
      cases h
    · intro old
      simp [ParameterValue.toJson, Json.float?, Content.Admits]
  | real x => exact carries_ofFloat x

theorem carries_integral (value : ParameterValue) : Carries (integral value) value := by
  cases value with
  | integer n => exact carries_toJson (.integer n)
  | category name => exact carries_toJson (.category name)
  | real x =>
    rcases integral_real x with ⟨n, whole, encoded⟩ | ⟨-, encoded⟩
    · rw [encoded]
      constructor
      · intro y h
        cases h
        exact Double.ofInt_beq_of_whole? whole
      · intro old
        exact ⟨fun _ => Double.isFinite_of_whole? whole, fun _ => rfl⟩
    · rw [encoded]
      exact carries_ofFloat x

def encoded (name : String) (value : ParameterValue) : Json :=
  if name = dampingName then value.toJson else integral value

theorem carries_encoded (name : String) (value : ParameterValue) :
    Carries (encoded name value) value := by
  unfold encoded
  split
  · exact carries_toJson value
  · exact carries_integral value

end Bundle
end StrategySearch
