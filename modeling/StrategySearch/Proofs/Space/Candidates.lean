import Mathlib
import StrategySearch.Proofs.ByName
import StrategySearch.Proofs.Pointwise
import StrategySearch.Proofs.Space.Neighbours
import StrategySearch.Proofs.Space.Values

/-!
Candidates of a space. Samples and points of the unit cube become candidates with the names of the
space and values of its dimensions; neighbours keep the names of the candidate they vary, and with
them its place in the space.
-/

set_option autoImplicit false

namespace StrategySearch.SearchSpace

def Fills (entry : String × Dimension) (parameter : String × ParameterValue) : Prop :=
  parameter.1 = entry.1 ∧ entry.2.Gives parameter.2

def Has (space : SearchSpace) (parameters : ParameterSet) : Prop :=
  List.Forall₂ Fills space.dimensions.entries parameters.entries

def Fits (space : SearchSpace) : Prop := ∀ entry ∈ space.dimensions.entries, entry.2.Fits

def Overflows (space : SearchSpace) (stop : Stop) : Prop := stop = .fault ∧ ¬ space.Fits

variable {space : SearchSpace} {parameters current : ParameterSet} {name : String}
  {dimension : Dimension} {stop : Stop} {γ : Type}

theorem names_of_fills {entries : List (String × Dimension)}
    {values : List (String × ParameterValue)} (each : List.Forall₂ Fills entries values) :
    values.map Prod.fst = entries.map Prod.fst := by
  have same : List.Forall₂ (· = ·) (values.map Prod.fst) (entries.map Prod.fst) := by
    rw [List.forall₂_map_left_iff, List.forall₂_map_right_iff]
    exact each.flip.imp fun _ _ fills => fills.1
  exact List.forall₂_eq_eq_eq ▸ same

theorem Has.names_eq (has : space.Has parameters) : parameters.names = space.names :=
  names_of_fills has

theorem objection?_eq_none (mem : (name, dimension) ∈ space.dimensions.entries) :
    dimension.objection? name = none := by
  have accepted := space.accepted
  unfold spaceObjection? at accepted
  split at accepted
  · cases accepted
  · exact List.findSome?_eq_none_iff.mp accepted _ mem

theorem Overflows.of_dimension (mem : (name, dimension) ∈ space.dimensions.entries)
    (overflows : dimension.Overflows stop) : space.Overflows stop :=
  ⟨overflows.1, fun fits => overflows.2 (fits _ mem)⟩

theorem ends_of_dimension {α : Type} {answers : α → Prop} {answer : Answer α}
    (mem : (name, dimension) ∈ space.dimensions.entries)
    (ends : Answer.Ends dimension.Overflows answers answer) :
    Answer.Ends space.Overflows answers answer :=
  ends.mono (fun _ => Overflows.of_dimension mem) fun _ => id

theorem entries_ofList {values : List (String × ParameterValue)}
    (each : List.Forall₂ Fills space.dimensions.entries values) :
    (ByName.ofList values).entries = values := by
  refine ByName.entries_ofList ?_
  rw [← List.pairwise_map (f := Prod.fst) (R := (· < ·)), names_of_fills each, List.pairwise_map]
  exact space.dimensions.ordered

theorem has_ofList {values : List (String × ParameterValue)}
    (each : List.Forall₂ Fills space.dimensions.entries values) :
    space.Has (ByName.ofList values) := by
  rw [Has, entries_ofList each]
  exact each

theorem sample_ends [WordSource γ] (space : SearchSpace) :
    Draw.Ends γ space.Overflows space.Has space.sample := by
  unfold sample assemble
  refine (Draw.Ends.mapM (R := Fills) fun entry mem => ?_).bind fun values each =>
    Draw.Ends.pure (has_ofList each)
  have drawn : Draw.Ends γ _ _ _ := Dimension.sample_ends (objection?_eq_none mem)
  exact (drawn.mono (fun _ => Overflows.of_dimension mem) fun _ => id).bind fun value gives =>
    Draw.Ends.pure ⟨rfl, gives⟩

theorem fromUnitPoint_ends (space : SearchSpace) (point : List Float) :
    Answer.Ends space.Overflows (fun parameters => space.size ≤ point.length → space.Has parameters)
      (space.fromUnitPoint point) := by
  unfold fromUnitPoint
  refine (Answer.Ends.mapM (R := fun coordinate => Fills coordinate.1) fun coordinate mem => ?_).bind
    fun values each enough => ?_
  · obtain ⟨⟨name, dimension⟩, unit⟩ := coordinate
    have inside := (List.of_mem_zip mem).1
    have given := Dimension.fromUnit_ends (objection?_eq_none inside) unit
    exact (ends_of_dimension inside given).bind fun value gives => ⟨rfl, gives⟩
  · have entries : (space.dimensions.entries.zip point).map Prod.fst = space.dimensions.entries :=
      List.map_fst_zip enough
    refine has_ofList ?_
    rw [← entries, List.forall₂_map_left_iff]
    exact each

theorem coordinates_ends (parameters : ParameterSet) {entries : List (String × Dimension)}
    (inside : ∀ entry ∈ entries, entry ∈ space.dimensions.entries) :
    Answer.Ends space.Overflows (fun point? => ∀ point ∈ point?, point.length = entries.length)
      (coordinates parameters entries) := by
  induction entries with
  | nil => rintro point ⟨⟩; rfl
  | cons entry rest ih =>
    obtain ⟨name, dimension⟩ := entry
    simp only [coordinates]
    split
    · nofun
    · next value found =>
      have mem := inside _ List.mem_cons_self
      have given := Dimension.toUnit_ends (objection?_eq_none mem) value
      refine (ends_of_dimension mem given).bind fun unit? _ => ?_
      split
      · nofun
      · next unit =>
        refine (ih fun entry mem => inside entry (List.mem_cons_of_mem _ mem)).bind
          fun point? lengths => ?_
        rintro point (same : point?.map (unit :: ·) = some point)
        obtain ⟨others, found, rfl⟩ := Option.map_eq_some_iff.mp same
        simp [lengths others found]

theorem toUnitPoint_ends (space : SearchSpace) (parameters : ParameterSet) :
    Answer.Ends space.Overflows (fun point? => ∀ point ∈ point?, point.length = space.size)
      (space.toUnitPoint parameters) :=
  coordinates_ends parameters fun _ => id

/-! Neighbours: the candidate with one of its values replaced. -/

/-- A candidate in which a name of the space, which it has, got another value of the dimension. -/
def Varies (space : SearchSpace) (current candidate : ParameterSet) : Prop :=
  ∃ entry ∈ space.dimensions.entries, ∃ old new, current.get? entry.1 = some old ∧
    entry.2.Gives new ∧ candidate = current.insert entry.1 new

theorem Varies.names_eq {candidate : ParameterSet} (varies : space.Varies current candidate) :
    candidate.names = current.names := by
  obtain ⟨entry, _, old, new, found, _, rfl⟩ := varies
  exact ByName.names_insert found new

theorem Varies.has {candidate : ParameterSet} (varies : space.Varies current candidate)
    (has : space.Has current) : space.Has candidate := by
  obtain ⟨⟨name, dimension⟩, mem, old, new, found, gives, rfl⟩ := varies
  have within := (List.forall₂_and_left (R := Fills) space.dimensions.entries _).mpr
    ⟨fun _ => id, has⟩
  rw [Has, ByName.entries_insert found, List.forall₂_map_right_iff]
  refine within.imp fun entry parameter ⟨inside, same, kept⟩ => ⟨same, ?_⟩
  -- The name stands once in the space, so the new value is one of the dimension it names.
  show entry.2.Gives (if parameter.1 = name then new else parameter.2)
  split
  · next here =>
    have inside' : (name, entry.2) ∈ space.dimensions.entries := by
      rw [← here, same]
      exact inside
    rw [ByName.eq_of_mem space.dimensions.ordered inside' mem]
    exact gives
  · exact kept

theorem moves_ends (mem : (name, dimension) ∈ space.dimensions.entries) (value : ParameterValue)
    (unit step : Float) (multipliers : List Float) :
    Answer.Ends space.Overflows (fun values => ∀ new ∈ values, dimension.Gives new)
      (moves dimension value unit step multipliers) := by
  induction multipliers with
  | nil => nofun
  | cons multiplier rest ih =>
    simp only [moves]
    split
    · exact ih
    · have given := Dimension.fromUnit_ends (objection?_eq_none mem) (unit + multiplier * step)
      refine (ends_of_dimension mem given).bind fun new gives => ?_
      refine ih.bind fun others each other inside => ?_
      have inside' : other ∈ if new == value then others else new :: others := inside
      split at inside'
      · exact each other inside'
      · rcases List.mem_cons.mp inside' with rfl | inOthers
        · exact gives
        · exact each other inOthers

theorem variationsAlong_ends (mem : (name, dimension) ∈ space.dimensions.entries)
    (multipliers : List Float) (realSteps : Nat) (current : ParameterSet) :
    Answer.Ends space.Overflows (fun candidates => ∀ c ∈ candidates, space.Varies current c)
      (variationsAlong multipliers realSteps current name dimension) := by
  have accepted := objection?_eq_none mem
  unfold variationsAlong
  split
  · nofun
  · next old found =>
    refine (ends_of_dimension mem (Dimension.toUnit_ends accepted old)).bind fun unit? _ => ?_
    split
    · nofun
    · next unit =>
      have measured := Dimension.unitStep_ends accepted realSteps
      refine (ends_of_dimension mem measured).bind fun step _ => ?_
      refine (moves_ends mem old unit step multipliers).bind fun values each c inside => ?_
      obtain ⟨new, moved, rfl⟩ := List.mem_map.mp inside
      exact ⟨_, mem, old, new, found, each new moved, rfl⟩

theorem variations_ends (space : SearchSpace) (multipliers : List Float) (realSteps : Nat)
    (current : ParameterSet) :
    Answer.Ends space.Overflows (fun candidates => ∀ c ∈ candidates, space.Varies current c)
      (space.variations multipliers realSteps current) := by
  unfold variations
  refine (Answer.Ends.mapM (R := fun _ candidates => ∀ c ∈ candidates, space.Varies current c)
    fun entry mem => variationsAlong_ends mem multipliers realSteps current).bind
      fun all each c inside => ?_
  obtain ⟨candidates, mem, inside⟩ := List.mem_flatten.mp inside
  exact forall_mem_of_forall₂ each.flip candidates mem c inside

theorem neighbours_ends (space : SearchSpace) (multipliers : List Float) (realSteps : Nat)
    (current : ParameterSet) (seen : List String) :
    Answer.Ends space.Overflows (fun found => ∀ c ∈ found.1, space.Varies current c)
      (space.neighbours multipliers realSteps current seen) := by
  unfold neighbours admitNeighbours
  rw [bind_assoc]
  refine (variations_ends space multipliers realSteps current).bind fun all each c mem => ?_
  obtain ⟨added, admits⟩ := Admits.of_foldl ⟨seen, []⟩ all
  have output : (all.foldl Admitted.admit ⟨seen, []⟩).candidates.reverse = added := admits.output
  have inside : c ∈ (all.foldl Admitted.admit ⟨seen, []⟩).candidates.reverse := mem
  rw [output] at inside
  exact each c (admits.chosen c inside)

/-! What the bounds decide. -/

theorem neighbours_ok (fits : space.Fits) (multipliers : List Float) (realSteps : Nat)
    (current : ParameterSet) (seen : List String) :
    ∃ found, space.neighbours multipliers realSteps current seen = .ok found := by
  have ends := neighbours_ends space multipliers realSteps current seen
  exact (ends.mono (fun _ overflows => overflows.2 fits) fun _ => id).isOk.imp fun _ => And.left

/-- Whatever is asked of a space is answered, if its integers can be counted. -/
theorem answers [WordSource γ] (fits : space.Fits) :
    (∀ source : γ, ∃ parameters, (space.sample.run.run source).1 = .ok parameters ∧
        space.Has parameters) ∧
      (∀ point, ∃ parameters, space.fromUnitPoint point = .ok parameters) ∧
      (∀ parameters, ∃ point?, space.toUnitPoint parameters = .ok point?) ∧
      ∀ multipliers realSteps current seen, ∃ found,
        space.neighbours multipliers realSteps current seen = .ok found := by
  have never : ∀ stop, space.Overflows stop → False := fun _ overflows => overflows.2 fits
  refine ⟨fun source => ?_, fun point => ?_, fun parameters => ?_, neighbours_ok fits⟩
  · exact ((sample_ends space source).mono never fun _ => id).isOk
  · exact ((fromUnitPoint_ends space point).mono never fun _ => id).isOk.imp fun _ => And.left
  · exact ((toUnitPoint_ends space parameters).mono never fun _ => id).isOk.imp fun _ => And.left

/-- A space of which the integers cannot be counted is accepted, and no sample of it is drawn. -/
theorem sample_overflows [WordSource γ] (source : γ)
    (mem : (name, dimension) ∈ space.dimensions.entries) (uncountable : ¬ dimension.Countable) :
    (space.sample.run.run source).1 = .error .fault := by
  have counted : Draw.Ends γ (fun _ => True) (fun _ => dimension.Countable) space.sample := by
    unfold sample assemble
    refine (Draw.Ends.mapM (R := fun entry _ => entry.2.Countable) fun entry _ => ?_).bind
      fun values each => Draw.Ends.pure ?_
    · refine (Draw.unit_ends.bind fun unit _ => ?_).bind fun value counted => Draw.Ends.pure counted
      exact Draw.Ends.ofAnswer (Dimension.fromUnit_countable entry.2 unit)
    · exact forall_mem_of_forall₂ each _ mem
  have stops := sample_ends space source
  match drawn : (space.sample.run.run source).1 with
  | .ok parameters =>
    have answered := counted source
    rw [drawn] at answered
    exact absurd answered uncountable
  | .error stop =>
    rw [drawn] at stops
    rw [stops.1]

def allIntegers : SearchSpace where
  dimensions := .ofList [("x", .integer Int64.minValue.toInt Int64.maxValue.toInt)]
  accepted := by rfl

theorem sample_overflows_allIntegers :
    (allIntegers.sample.run.run (⟨[0]⟩ : WordList)).1 = .error .fault :=
  sample_overflows _ (List.mem_singleton.mpr rfl) (show ¬ (_ - _ < _) by decide)

end StrategySearch.SearchSpace
