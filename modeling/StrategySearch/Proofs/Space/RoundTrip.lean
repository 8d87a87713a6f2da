import Mathlib
import StrategySearch.Proofs.Double.Arithmetic
import StrategySearch.Proofs.Space.Candidates

/-!
From a candidate to a point of the unit cube and back. A value stands in the middle of its cell, and
two roundings move it by less than half a cell as long as it has fewer than 2^51 cells below it.
-/

set_option autoImplicit false

namespace StrategySearch

namespace Dimension

open Double (Is Rounds below_overflow is_half is_one is_zero representable_intCast)

variable {dimension : Dimension} {value : ParameterValue} {name : String} {low high n : Int}
  {x y : Float} {v w : ℚ} {below count : Nat}

/-! ### A cell of the unit interval -/

theorem toUnitInterval_eq (is : Is x v) (nonneg : 0 ≤ v) (le : v ≤ 1) : toUnitInterval x = x := by
  have notBelow : ¬ x < 0.0 := fun lt => absurd ((is.lt_iff is_zero).mp lt) (by linarith)
  have notAbove : ¬ 1.0 < x := fun lt => absurd ((is_one.lt_iff is).mp lt) (by linarith)
  rw [toUnitInterval, if_pos is.isFinite, if_neg notBelow, if_neg notAbove]

/-- A quotient of numbers of 64 bits is far above the least normal number, so rounding moves it by
little. -/
theorem abs_sub_le_of_rounds (rounds : Rounds v w) (large : 1 / 2 / 2 ^ 64 ≤ v) :
    |w - v| ≤ v / 2 ^ 53 := by
  have positive : 0 < v := lt_of_lt_of_le (by norm_num) large
  have tiny : (2 : ℚ) ^ (-1022 : Int) ≤ 2 ^ (-65 : Int) :=
    zpow_le_zpow_right₀ one_le_two (by decide)
  have size : (2 : ℚ) ^ (-65 : Int) = 1 / 2 / 2 ^ 64 := by norm_num
  rw [size] at tiny
  have error := rounds.abs_sub_le (by rw [abs_of_pos positive]; exact tiny.trans large)
  rwa [abs_of_pos positive] at error

/-- The share that a part has of a whole is in the unit interval, and it tells the part closely. -/
theorem exists_is_share (part : Is x v) (whole : Is y w) (half : 1 / 2 ≤ v) (le : v ≤ w)
    (top : w ≤ 2 ^ 64) : ∃ u, Is (x / y) u ∧ 0 ≤ u ∧ u ≤ 1 ∧ |u * w - v| ≤ v / 2 ^ 53 := by
  have positive : 0 < w := by linarith
  have share : v / w * w = v := div_mul_cancel₀ v positive.ne'
  have share_le : v / w ≤ 1 := (div_le_one positive).mpr le
  have share_ge : 1 / 2 / 2 ^ 64 ≤ v / w := div_le_div₀ (by linarith) half positive top
  have size : |v / w| ≤ 2 ^ 65 := by
    rw [abs_of_nonneg (div_nonneg (by linarith) positive.le)]
    linarith
  obtain ⟨u, rounds, unit⟩ := part.div whole positive.ne' (below_overflow size)
  have error := abs_sub_le_of_rounds rounds share_ge
  refine ⟨u, unit, ?_, rounds.le_of_le share_le (representable_intCast (k := 1) (by decide)), ?_⟩
  · linarith [(abs_le.mp error).1]
  · calc |u * w - v|
      _ = |(u - v / w) * w| := by rw [sub_mul, share]
      _ = |u - v / w| * w := by rw [abs_mul, abs_of_pos positive]
      _ ≤ v / w / 2 ^ 53 * w := by gcongr
      _ = v / 2 ^ 53 := by rw [div_mul_eq_mul_div, share]

/-- The middle of a cell, as a share of all cells and back, is still in the cell. -/
theorem share_floor (middle : Is x (below + 1 / 2)) (inside : below < count) (few : below < 2 ^ 51)
    (fits : count ≤ 2 ^ 64) (all : Is y w) (rounded : Rounds count w) (least greatest : Int) :
    toUnitInterval (x / y) = x / y ∧
      FloatText.floorWithin least greatest (x / y * y) = max least (min greatest below) := by
  have few' : (below : ℚ) + 1 ≤ 2 ^ 51 := by exact_mod_cast few
  have nonneg : (0 : ℚ) ≤ below := by positivity
  -- Rounding the count leaves it above the cell.
  have next : (below : ℚ) + 1 ≤ w := by
    have := rounded.le_of_ge (z := ((below + 1 : Nat) : Int)) (by exact_mod_cast inside)
      (representable_intCast (by rw [Nat.abs_cast]; omega))
    exact_mod_cast this
  have top : w ≤ 2 ^ 64 :=
    rounded.le_of_le (by exact_mod_cast fits) ⟨1, 64, by decide, by decide, by norm_num⟩
  obtain ⟨u, unit, unit_nonneg, unit_le, moved⟩ :=
    exists_is_share middle all (by linarith) (by linarith) top
  obtain ⟨lower, upper⟩ := abs_le.mp moved
  have size : |u * w| ≤ 2 ^ 65 := by
    rw [abs_of_nonneg (mul_nonneg unit_nonneg (by linarith))]
    linarith
  obtain ⟨p, rounds, product⟩ := unit.mul all (below_overflow size)
  obtain ⟨lower', upper'⟩ := abs_le.mp (abs_sub_le_of_rounds rounds (by linarith))
  -- Two errors of one part in 2^53 are less than the half cell to either side.
  have floor : ⌊p⌋ = below := by
    rw [Int.floor_eq_iff]
    push_cast
    constructor <;> linarith
  exact ⟨toUnitInterval_eq unit unit_nonneg unit_le, by rw [product.floorWithin_eq, floor]⟩

/-! ### Values of a dimension -/

def Admits : Dimension → ParameterValue → Prop
  | .integer low high, .integer n => low ≤ n ∧ n ≤ high
  | .real low high _, value => ∃ raw, value.float? = some raw ∧ ¬ raw < low ∧ ¬ high < raw
  | .categorical categories, .category name => name ∈ categories
  | _, _ => False

/-- The value has a double of its own, and fewer than 2^51 values stand before it. -/
def Resolves : Dimension → ParameterValue → Prop
  | .integer low _, .integer n => |low| ≤ 2 ^ 53 ∧ |n| ≤ 2 ^ 53 ∧ n - low < 2 ^ 51
  | .categorical categories, .category name =>
    categories.idxOf name < 2 ^ 51 ∧ categories.length ≤ 2 ^ 64
  | _, _ => False

theorem ofInt_not_lt {a b : Int} (le : a ≤ b) (low : -2 ^ 63 ≤ a) (high : b ≤ 2 ^ 63) :
    ¬ Float.ofInt b < Float.ofInt a := by
  have small {k : Int} (low : -2 ^ 63 ≤ k) (high : k ≤ 2 ^ 63) : |(k : ℚ)| < 2 ^ 1023 :=
    below_overflow (by exact_mod_cast (abs_le.mpr ⟨low, high⟩).trans (by decide))
  rcases le.eq_or_lt with rfl | lt
  · exact Double.not_lt_self _
  · obtain ⟨v, rounds, is⟩ := Double.exists_is_ofInt (small low (by omega))
    obtain ⟨w, rounds', is'⟩ := Double.exists_is_ofInt (small (by omega) high)
    have ordered : v ≤ w := rounds.mono rounds' (by exact_mod_cast lt)
    rw [is'.lt_iff is]
    exact not_lt.mpr ordered

theorem span_eq (le : low ≤ high) (fits : (integer low high).Fits) :
    span low high = .ok (high - low + 1) := by
  obtain ⟨count, counted, rfl⟩ :=
    ((span_ends le).mono (fun _ overflows => overflows.2 fits) fun _ => id).isOk
  exact counted

theorem toUnit_integer (fits : (integer low high).Fits) (lower : low ≤ n) (upper : n ≤ high) :
    (integer low high).toUnit (.integer n) = .ok (some
      ((Float.ofInt n - Float.ofInt low + 0.5) / Float.ofInt (high - low + 1))) := by
  have least : Int64.minValue.toInt = -2 ^ 63 := by decide
  have greatest : Int64.maxValue.toInt = 2 ^ 63 - 1 := by decide
  have bounds := fits
  rw [Fits, least, greatest] at bounds
  have notBelow := ofInt_not_lt lower (by omega) (by omega)
  have notAbove := ofInt_not_lt upper (by omega) (by omega)
  simp only [toUnit, ParameterValue.float?, notBelow, notAbove, decide_false, Bool.or_self,
    Bool.false_eq_true, if_false, span_eq (lower.trans upper) fits]
  rfl

theorem toUnit_categorical {categories : List String} (member : name ∈ categories) :
    (categorical categories).toUnit (.category name) = .ok (some
      ((Float.ofNat (categories.idxOf name) + 0.5) / Float.ofNat categories.length)) := by
  have found : categories.findIdx? (· == name) = some (categories.idxOf name) := by
    have inside : categories.findIdx (· == name) < categories.length :=
      List.idxOf_lt_length_of_mem member
    rw [List.findIdx?_eq_guard_findIdx_lt, Option.guard_eq_some_iff]
    exact ⟨rfl, by simpa using inside⟩
  rw [toUnit, found]
  rfl

theorem toUnit_ok (fits : dimension.Fits) (admits : dimension.Admits value) :
    ∃ unit, dimension.toUnit value = .ok (some unit) := by
  match dimension, value, admits with
  | .integer low high, .integer n, ⟨lower, upper⟩ => exact ⟨_, toUnit_integer fits lower upper⟩
  | .real low high prior, value, ⟨raw, number, notBelow, notAbove⟩ =>
    simp only [toUnit, number, notBelow, notAbove, decide_false, Bool.or_self, Bool.false_eq_true,
      if_false]
    exact ⟨_, rfl⟩
  | .categorical categories, .category name, member => exact ⟨_, toUnit_categorical member⟩

theorem exists_is_count (fits : count ≤ 2 ^ 64) :
    ∃ w, Rounds count w ∧ Is (Float.ofNat count) w := by
  have small : |(count : ℚ)| ≤ 2 ^ 65 := by
    rw [Nat.abs_cast]
    exact_mod_cast fits.trans (by decide)
  exact Double.exists_is_ofNat (lt_of_abs_lt (below_overflow small))

theorem is_middle (is : Is x below) (few : below < 2 ^ 51) : Is (x + 0.5) (below + 1 / 2) := by
  refine is.add_of_representable is_half ?_
    ⟨2 * below + 1, -1, abs_le.mpr ⟨by omega, by omega⟩, by decide, ?_⟩
  · have : (below : ℚ) < 2 ^ 51 := by exact_mod_cast few
    rw [abs_of_nonneg (by positivity)]
    linarith
  · rw [zpow_neg_one]
    push_cast
    ring

theorem fromUnit_integer (fits : (integer low high).Fits) (lower : low ≤ n) (upper : n ≤ high)
    (lowShort : |low| ≤ 2 ^ 53) (short : |n| ≤ 2 ^ 53) (few : n - low < 2 ^ 51) :
    (integer low high).fromUnit
      ((Float.ofInt n - Float.ofInt low + 0.5) / Float.ofInt (high - low + 1)) =
        .ok (.integer n) := by
  have least : Int64.minValue.toInt = -2 ^ 63 := by decide
  have greatest : Int64.maxValue.toInt = 2 ^ 63 - 1 := by decide
  have bounds := fits
  rw [Fits, Countable, least, greatest] at bounds
  obtain ⟨below, offset⟩ : ∃ below : Nat, n - low = below := ⟨(n - low).toNat, by omega⟩
  obtain ⟨count, counted⟩ : ∃ count : Nat, high - low + 1 = count :=
    ⟨(high - low + 1).toNat, by omega⟩
  -- The bounds are exact, and so is the difference.
  have difference : Is (Float.ofInt n - Float.ofInt low) below := by
    have exact : (n - low : ℚ) = (below : Int) := by rw [← offset, Int.cast_sub]
    have is := (Double.is_ofInt short).sub_of_representable (Double.is_ofInt lowShort)
    rw [exact, ← Int.cast_abs, Nat.abs_cast] at is
    refine is ?_ (representable_intCast ?_)
    · exact_mod_cast (show below ≤ 2 ^ 65 by omega)
    · rw [Nat.abs_cast]
      omega
  obtain ⟨w, rounds, all⟩ := exists_is_count (show count ≤ 2 ^ 64 by omega)
  obtain ⟨stays, floor⟩ := share_floor (is_middle difference (by omega)) (by omega) (by omega)
    (by omega) all rounds Int64.minValue.toInt Int64.maxValue.toInt
  have double : Float.ofInt (high - low + 1) = Float.ofNat count := by
    rw [counted]
    rfl
  have place : min (max Int64.minValue.toInt (min Int64.maxValue.toInt below)) (high - low) =
      below := by omega
  have kept : checked (low + below) = .ok n := by
    rw [checked, if_pos (by omega), ← offset, add_sub_cancel]
  simp only [fromUnit, double, stays, span_eq (lower.trans upper) fits, bind, Except.bind,
    int64Floor, floor, place, kept]
  rfl

theorem fromUnit_categorical {categories : List String} (member : name ∈ categories)
    (few : categories.idxOf name < 2 ^ 51) (countable : categories.length ≤ 2 ^ 64) :
    (categorical categories).fromUnit
      ((Float.ofNat (categories.idxOf name) + 0.5) / Float.ofNat categories.length) =
        .ok (.category name) := by
  have inside : categories.idxOf name < categories.length := List.idxOf_lt_length_of_mem member
  have found : categories[categories.idxOf name] = name := List.getElem_idxOf inside
  generalize categories.idxOf name = below at few inside found
  have index : Is (Float.ofNat below) below :=
    Double.is_ofInt (k := below) (by rw [Nat.abs_cast]; omega)
  obtain ⟨w, rounds, all⟩ := exists_is_count countable
  obtain ⟨stays, floor⟩ := share_floor (is_middle index few) inside few countable all rounds
    0 UInt64.size
  have place : min (max 0 (min (UInt64.size : Int) below)).toNat (categories.length - 1) = below := by
    have : UInt64.size = 2 ^ 64 := rfl
    omega
  simp only [fromUnit, stays, floor, place]
  rw [List.getD_eq_getElem _ _ inside, found]

theorem fromUnit_toUnit {unit : Float} (fits : dimension.Fits) (admits : dimension.Admits value)
    (resolves : dimension.Resolves value) (encoded : dimension.toUnit value = .ok (some unit)) :
    dimension.fromUnit unit = .ok value := by
  match dimension, value, admits, resolves with
  | .integer low high, .integer n, ⟨lower, upper⟩, ⟨lowShort, short, few⟩ =>
    rw [toUnit_integer fits lower upper] at encoded
    cases encoded
    exact fromUnit_integer fits lower upper lowShort short few
  | .categorical categories, .category name, member, ⟨few, countable⟩ =>
    rw [toUnit_categorical member] at encoded
    cases encoded
    exact fromUnit_categorical member few countable

end Dimension

namespace SearchSpace

variable {space : SearchSpace} {parameters : ParameterSet} {entries : List (String × Dimension)}
  {point : List Float}

def Encodes (parameters : ParameterSet) (entry : String × Dimension) (unit : Float) : Prop :=
  ∃ value, parameters.get? entry.1 = some value ∧ entry.2.Admits value ∧
    entry.2.toUnit value = .ok (some unit)

theorem coordinates_ok (fits : ∀ entry ∈ entries, entry.2.Fits)
    (given : ∀ entry ∈ entries, ∃ value, parameters.get? entry.1 = some value ∧
      entry.2.Admits value) :
    ∃ point, coordinates parameters entries = .ok (some point) ∧
      List.Forall₂ (Encodes parameters) entries point := by
  induction entries with
  | nil => exact ⟨[], rfl, .nil⟩
  | cons entry rest ih =>
    obtain ⟨value, present, admits⟩ := given entry List.mem_cons_self
    obtain ⟨unit, encoded⟩ := Dimension.toUnit_ok (fits entry List.mem_cons_self) admits
    obtain ⟨point, others, each⟩ := ih (fun entry member => fits entry (List.mem_cons_of_mem _ member))
      fun entry member => given entry (List.mem_cons_of_mem _ member)
    refine ⟨unit :: point, ?_, .cons ⟨value, present, admits, encoded⟩ each⟩
    simp only [coordinates, present, encoded, others, bind, Except.bind]
    rfl

def Rebuilds (parameters : ParameterSet) (entry : String × Dimension)
    (parameter : String × ParameterValue) : Prop :=
  Fills entry parameter ∧ ∀ value, parameters.get? entry.1 = some value →
    entry.2.Resolves value → parameter.2 = value

theorem exists_fromUnitPoint (fits : space.Fits)
    (each : List.Forall₂ (Encodes parameters) space.dimensions.entries point) :
    ∃ values, space.fromUnitPoint point = .ok (ByName.ofList values) ∧
      List.Forall₂ (Rebuilds parameters) space.dimensions.entries values := by
  have step : ∀ entry ∈ space.dimensions.entries, ∀ unit, Encodes parameters entry unit →
      ∃ parameter, (do return (entry.1, ← entry.2.fromUnit unit) : Answer _) = .ok parameter ∧
        Rebuilds parameters entry parameter := by
    rintro ⟨name, dimension⟩ member unit ⟨given, present, admits, encoded⟩
    have ends := Dimension.fromUnit_ends (objection?_eq_none member) unit
    obtain ⟨value, decoded, gives⟩ :=
      (ends.mono (fun _ overflows => overflows.2 (fits _ member)) fun _ => id).isOk
    refine ⟨(name, value), by rw [decoded]; rfl, ⟨rfl, gives⟩, fun value' present' resolves => ?_⟩
    obtain rfl : given = value' := Option.some.inj (present.symm.trans present')
    exact Except.ok.inj
      (decoded.symm.trans (Dimension.fromUnit_toUnit (fits _ member) admits resolves encoded))
  obtain ⟨values, decoded, rebuilt⟩ := exists_mapM_zip
    (f := fun pair => do return (pair.1.1, ← pair.1.2.fromUnit pair.2)) each step
  exact ⟨values, congrArg (Except.map ByName.ofList) decoded, rebuilt⟩

/-- A candidate with a value for each dimension becomes a point, and the point a candidate again. Each
value that is resolved comes back as it was. -/
theorem fromUnitPoint_toUnitPoint (fits : space.Fits)
    (given : ∀ entry ∈ space.dimensions.entries, ∃ value, parameters.get? entry.1 = some value ∧
      entry.2.Admits value) :
    ∃ point rebuilt, space.toUnitPoint parameters = .ok (some point) ∧
      space.fromUnitPoint point = .ok rebuilt ∧ space.Has rebuilt ∧
      ∀ entry ∈ space.dimensions.entries, ∀ value, parameters.get? entry.1 = some value →
        entry.2.Resolves value → rebuilt.get? entry.1 = some value := by
  obtain ⟨point, encoded, each⟩ := coordinates_ok fits given
  obtain ⟨values, decoded, rebuilt⟩ := exists_fromUnitPoint fits each
  have fills : List.Forall₂ Fills space.dimensions.entries values := rebuilt.imp fun _ _ => And.left
  refine ⟨point, _, encoded, decoded, has_ofList fills, ?_⟩
  have within := (List.forall₂_and_left (p := (· ∈ values)) values space.dimensions.entries).mpr
    ⟨fun _ => id, rebuilt.flip⟩
  refine forall_mem_of_forall₂ (within.flip.imp fun entry parameter ⟨member, rebuilds⟩ => ?_)
  intro value present resolves
  refine ByName.lookup_of_mem (ByName.ofList values).ordered ?_
  rw [entries_ofList fills, ← rebuilds.2 value present resolves, ← rebuilds.1.1]
  exact member

/-- The integers up to one that has no double of its own. -/
def beyondDoubles : SearchSpace := ⟨.ofList [("x", .integer 0 9007199254740993)], by rfl⟩

theorem fromUnitPoint_toUnitPoint_beyondDoubles : ∃ point rebuilt,
    beyondDoubles.toUnitPoint (.ofList [("x", .integer 3)]) = .ok (some point) ∧
      beyondDoubles.fromUnitPoint point = .ok rebuilt ∧ rebuilt.get? "x" = some (.integer 3) := by
  have fits : beyondDoubles.Fits := by
    intro entry member
    obtain rfl := List.mem_singleton.mp member
    exact ⟨by decide, by decide, show (9007199254740993 : Int) - 0 < _ by decide⟩
  have given : ∀ entry ∈ beyondDoubles.dimensions.entries, ∃ value,
      (ByName.ofList [("x", ParameterValue.integer 3)]).get? entry.1 = some value ∧
        entry.2.Admits value := by
    intro entry member
    obtain rfl := List.mem_singleton.mp member
    exact ⟨.integer 3, rfl, show (0 : Int) ≤ 3 ∧ (3 : Int) ≤ 9007199254740993 by decide⟩
  obtain ⟨point, rebuilt, encoded, decoded, -, same⟩ := fromUnitPoint_toUnitPoint fits given
  refine ⟨point, rebuilt, encoded, decoded, same _ (List.mem_singleton.mpr rfl) _ rfl ?_⟩
  exact ⟨by decide, by decide, by decide⟩

end SearchSpace
end StrategySearch
