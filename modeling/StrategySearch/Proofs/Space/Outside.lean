import StrategySearch.Proofs.Space.Candidates

/-!
What lies outside a dimension or a space. It has no coordinate there, and nothing else lacks one.
-/

set_option autoImplicit false

namespace StrategySearch

namespace Dimension

variable {dimension : Dimension} {value : ParameterValue}

/-- Another kind of value, a number on the far side of a bound, or a text that is not listed. Numbers
are compared as doubles. -/
def Excludes : Dimension → ParameterValue → Prop
  | .integer low high, value =>
    ∀ raw ∈ value.float?, raw < Float.ofInt low ∨ Float.ofInt high < raw
  | .real low high _, value => ∀ raw ∈ value.float?, raw < low ∨ high < raw
  | .categorical categories, value => ∀ name, value = .category name → name ∉ categories

theorem toUnit_eq_none_iff : dimension.toUnit value = .ok none ↔ dimension.Excludes value := by
  cases dimension with
  | integer low high =>
    simp only [toUnit, Excludes]
    cases value.float? with
    | none => simp
    | some raw =>
      by_cases outside : raw < Float.ofInt low ∨ Float.ofInt high < raw
      · simp [outside]
      · simp only [Bool.or_eq_true, decide_eq_true_eq, outside, if_false]
        cases span low high <;> simp [outside, bind, Except.bind, pure, Except.pure]
  | real low high prior =>
    simp only [toUnit, Excludes]
    cases value.float? with
    | none => simp
    | some raw => by_cases outside : raw < low ∨ high < raw <;> simp [outside]
  | categorical categories =>
    cases value with
    | category name =>
      have absent : categories.findIdx? (· == name) = none ↔ name ∉ categories := by
        rw [List.findIdx?_eq_none_iff]
        exact ⟨fun each member => absurd (each name member) (by simp),
          fun absent other member => beq_eq_false_iff_ne.mpr fun same => absent (same ▸ member)⟩
      simp [toUnit, Excludes, absent]
    | integer _ | real _ => simp [toUnit, Excludes]

end Dimension

namespace SearchSpace

variable {space : SearchSpace} {parameters : ParameterSet} {entries : List (String × Dimension)}

/-- A name of the space is missing or has a value outside its dimension. Names that the space does
not know do not matter. -/
def Excludes (space : SearchSpace) (parameters : ParameterSet) : Prop :=
  ∃ entry ∈ space.dimensions.entries, ∀ value ∈ parameters.get? entry.1, entry.2.Excludes value

theorem toUnitPoint_ok (fits : space.Fits) (parameters : ParameterSet) :
    ∃ point?, space.toUnitPoint parameters = .ok point? :=
  ((toUnitPoint_ends space parameters).mono (fun _ overflows => overflows.2 fits) fun _ => id).isOk.imp
    fun _ => And.left

theorem coordinates_eq_none_iff
    (measured : ∀ entry ∈ entries, ∀ value, ∃ unit?, entry.2.toUnit value = .ok unit?) :
    coordinates parameters entries = .ok none ↔
      ∃ entry ∈ entries, ∀ value ∈ parameters.get? entry.1, entry.2.Excludes value := by
  induction entries with
  | nil => simp [coordinates]
  | cons entry rest ih =>
    obtain ⟨name, dimension⟩ := entry
    have later := ih fun entry member => measured entry (List.mem_cons_of_mem _ member)
    rw [List.exists_mem_cons_iff, ← later, coordinates]
    cases parameters.get? name with
    | none => simp
    | some value =>
      obtain ⟨unit?, found⟩ := measured _ List.mem_cons_self value
      have outside : dimension.toUnit value = .ok none ↔ dimension.Excludes value :=
        Dimension.toUnit_eq_none_iff
      simp only [Option.mem_some_iff, forall_eq', ← outside, found]
      cases unit? with
      | none => simp [bind, Except.bind, pure, Except.pure]
      | some unit =>
        cases coordinates parameters rest <;> simp [bind, Except.bind, pure, Except.pure]

theorem toUnitPoint_eq_none_iff (fits : space.Fits) :
    space.toUnitPoint parameters = .ok none ↔ space.Excludes parameters := by
  refine coordinates_eq_none_iff fun entry member value => ?_
  have ends := Dimension.toUnit_ends (objection?_eq_none member) value
  exact (ends.mono (fun _ overflows => overflows.2 (fits entry member)) fun _ => id).isOk.imp
    fun _ => And.left

end SearchSpace
end StrategySearch
