import StrategySearch.Proofs.ByName
import StrategySearch.Proofs.Double.Sign
import StrategySearch.Proofs.Space.Neighbours
import StrategySearch.Proofs.Space.Outside

/-!
What a search for neighbours adds to an output that has some already, with signatures taken before.
The candidates of that output are never looked at, so a search that was made once finds nothing when
it is made again.
-/

set_option autoImplicit false

namespace StrategySearch

/-- What is no number has no logarithm. -/
def NoLogOfNaN : Prop := ∀ x : Float, x.isNaN = true → x.log.isNaN = true

theorem ParameterValue.isNaN_of_beq_self {value : ParameterValue} (differs : (value == value) = false) :
    ∃ x, value = .real x ∧ x.isNaN = true := by
  cases value with
  | integer n => exact absurd differs (ne_false_of_eq_true (beq_self_eq_true n))
  | real x => exact ⟨x, rfl, Double.isNaN_of_beq_self differs⟩
  | category name => exact absurd differs (ne_false_of_eq_true (beq_self_eq_true name))

theorem Dimension.isNaN_of_toUnit {dimension : Dimension} {x unit : Float} (logs : NoLogOfNaN)
    (none : x.isNaN = true) (measured : dimension.toUnit (.real x) = .ok (some unit)) :
    unit.isNaN = true := by
  cases dimension with
  | integer low high =>
    simp only [toUnit, ParameterValue.float?] at measured
    split at measured
    · cases measured
    · obtain ⟨count, -, measured⟩ := bind_eq_ok_iff.mp measured
      cases measured
      exact Double.isNaN_div (Double.isNaN_add (Double.isNaN_sub none _) _) _
  | real low high prior =>
    simp only [toUnit, ParameterValue.float?] at measured
    split at measured
    · cases measured
    · cases prior with
      | uniform =>
        cases measured
        exact Double.isNaN_div (Double.isNaN_sub none _) _
      | logUniform =>
        cases measured
        exact Double.isNaN_div (Double.isNaN_sub (logs x none) _) _
  | categorical categories => cases measured

namespace SearchSpace

variable {space : SearchSpace} {current candidate : ParameterSet} {dimension : Dimension}
  {multipliers : List Float} {realSteps : Nat} {old new : ParameterValue} {seen : List String}
  {all added candidates : List ParameterSet} {before after : Admitted}

theorem Leads.inside (leads : Leads multipliers realSteps dimension old new) :
    ¬ dimension.Excludes old := by
  obtain ⟨unit, step, measured, -⟩ := leads.steps
  rw [← Dimension.toUnit_eq_none_iff, measured]
  nofun

/-- No step starts from what is no number, so the new value is another one and does not only compare
as such. -/
theorem Leads.ne (logs : NoLogOfNaN) (leads : Leads multipliers realSteps dimension old new) :
    new ≠ old := by
  rintro rfl
  obtain ⟨x, rfl, none⟩ := ParameterValue.isNaN_of_beq_self leads.differs
  obtain ⟨unit, step, measured, -, multiplier, -, reaches⟩ := leads.steps
  -- The step would end in no number either, which is within no bounds.
  have nowhere := Double.isNaN_add (Dimension.isNaN_of_toUnit logs none measured) (multiplier * step)
  exact Double.not_le_of_isNaN nowhere _ reaches.within.1

/-- One value, inside its dimension, is replaced by a different one. Every other entry is as it was,
also one that the space does not know. -/
def Alters (space : SearchSpace) (current candidate : ParameterSet) : Prop :=
  ∃ entry ∈ space.dimensions.entries, ∃ old new,
    current.get? entry.1 = some old ∧ ¬ entry.2.Excludes old ∧
      candidate.get? entry.1 = some new ∧ (new == old) = false ∧ (NoLogOfNaN → new ≠ old) ∧
        ∀ name, name ≠ entry.1 → candidate.get? name = current.get? name

theorem variations_alter (varied : space.variations multipliers realSteps current = .ok all) :
    ∀ c ∈ all, space.Alters current c := by
  intro c member
  obtain ⟨entry, there, old, new, present, leads, rfl⟩ := (mem_variations varied).mp member
  refine ⟨entry, there, old, new, present, leads.inside, ?_, leads.differs, (leads.ne ·), ?_⟩
  · rw [ByName.get?_insert, if_pos rfl]
  · intro name other
    rw [ByName.get?_insert, if_neg other]

theorem foldl_admit_of_seen (each : ∀ c ∈ all, c.signature ∈ seen) :
    all.foldl Admitted.admit ⟨seen, candidates⟩ = ⟨seen, candidates⟩ := by
  induction all with
  | nil => rfl
  | cons c rest ih =>
    have known : Admitted.admit ⟨seen, candidates⟩ c = ⟨seen, candidates⟩ :=
      if_pos (List.contains_iff_mem.mpr (each c List.mem_cons_self))
    rw [List.foldl_cons, known, ih fun d member => each d (List.mem_cons_of_mem _ member)]

/-- What is appended to the output, in the order in which it is found. -/
structure Appends (space : SearchSpace) (current : ParameterSet) (before : Admitted)
    (added : List ParameterSet) (after : Admitted) : Prop where
  output : after.candidates.reverse = before.candidates.reverse ++ added
  alters : ∀ c ∈ added, space.Alters current c
  distinct : (added.map ByName.signature).Nodup
  new : ∀ c ∈ added, c.signature ∉ before.seen
  seen_iff : ∀ signature, signature ∈ after.seen ↔
    signature ∈ before.seen ∨ signature ∈ added.map ByName.signature

theorem Admits.appends (admits : Admits before all added after)
    (varied : space.variations multipliers realSteps current = .ok all) :
    Appends space current before added after where
  output := admits.output
  alters c member := variations_alter varied c (admits.chosen c member)
  distinct := admits.distinct
  new := admits.new
  seen_iff := admits.seen_iff

/-- A search that is answered appends variations with new signatures and no others, has seen all that a
step leads to, and appends nothing, to whatever output, when it is made again. -/
theorem admitNeighbours_appends
    (ok : space.admitNeighbours multipliers realSteps current before = .ok after) :
    (∃ added, Appends space current before added after) ∧
      (∀ entry ∈ space.dimensions.entries, ∀ old new, current.get? entry.1 = some old →
        Leads multipliers realSteps entry.2 old new →
          (current.insert entry.1 new).signature ∈ after.seen) ∧
        ∀ output, space.admitNeighbours multipliers realSteps current ⟨after.seen, output⟩ =
          .ok ⟨after.seen, output⟩ := by
  obtain ⟨all, added, varied, admits⟩ := admitNeighbours_admits ok
  refine ⟨⟨added, admits.appends varied⟩, fun entry there old new present leads => ?_,
    fun output => ?_⟩
  · exact admits.covers _ ((mem_variations varied).mpr ⟨entry, there, old, new, present, leads, rfl⟩)
  · -- Variations do not depend on what was seen, so the second search has the same ones.
    unfold admitNeighbours
    rw [varied]
    exact congrArg Except.ok (foldl_admit_of_seen admits.covers)

def days : SearchSpace := ⟨.ofList [("days", .integer 1 5)], by rfl⟩

def third : ParameterSet := .ofList [("days", .integer 3), ("other", .category "kept")]

def second : Admitted := ⟨[(third.insert "days" (.integer 2)).signature], [third]⟩

theorem admitNeighbours_appends_third : ∃ after,
    days.admitNeighbours [-1.0, 1.0, 2.0, 1.0] 10 third second = .ok after ∧
      after.candidates.length = 3 ∧
      (∃ added, Appends days third second added after) ∧
      ∀ output, days.admitNeighbours [-1.0, 1.0, 2.0, 1.0] 10 third ⟨after.seen, output⟩ =
        .ok ⟨after.seen, output⟩ := by
  have counted : (days.admitNeighbours [-1.0, 1.0, 2.0, 1.0] 10 third second).toOption.map
      (·.candidates.length) = some 3 := by
    decide +kernel
  match ok : days.admitNeighbours [-1.0, 1.0, 2.0, 1.0] 10 third second with
  | .error _ => rw [ok] at counted; cases counted
  | .ok after =>
    rw [ok] at counted
    have appends := admitNeighbours_appends ok
    exact ⟨after, rfl, Option.some.inj counted, appends.1, appends.2.2⟩

end SearchSpace
end StrategySearch
