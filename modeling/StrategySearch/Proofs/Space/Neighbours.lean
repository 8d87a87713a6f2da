import Mathlib.Data.List.Nodup
import StrategySearch.Proofs.Ends
import StrategySearch.Proofs.Pointwise
import StrategySearch.Space.Neighbours

/-! What the neighbours of a candidate are: each has one value replaced by a different one, no two
have one signature, and none has a signature that was taken. -/

set_option autoImplicit false

namespace StrategySearch.SearchSpace

variable {space : SearchSpace} {current candidate : ParameterSet} {name : String}
  {dimension : Dimension} {multipliers : List Float} {realSteps : Nat}
  {seen taken : List String} {all added found : List ParameterSet} {before after : Admitted}

def Replaces (space : SearchSpace) (current candidate : ParameterSet) : Prop :=
  ∃ name ∈ space.names, ∃ old new, current.get? name = some old ∧ (new == old) = false ∧
    candidate = current.insert name new

/-- In the unit interval up to a rounding error, with a value there. -/
structure Reaches (dimension : Dimension) (target : Float) (new : ParameterValue) : Prop where
  within : -tolerance ≤ target ∧ target ≤ 1.0 + tolerance
  value : dimension.fromUnit target = .ok new

structure Leads (multipliers : List Float) (realSteps : Nat) (dimension : Dimension)
    (old new : ParameterValue) : Prop where
  steps : ∃ unit step, dimension.toUnit old = .ok (some unit) ∧
    dimension.unitStep realSteps = .ok step ∧
      ∃ multiplier ∈ multipliers, Reaches dimension (unit + multiplier * step) new
  differs : (new == old) = false

theorem mem_moves {old new : ParameterValue} {unit step : Float} {values : List ParameterValue}
    (moved : moves dimension old unit step multipliers = .ok values) :
    new ∈ values ↔ (∃ multiplier ∈ multipliers,
      Reaches dimension (unit + multiplier * step) new) ∧ (new == old) = false := by
  induction multipliers generalizing values with
  | nil =>
    cases moved
    simp
  | cons multiplier rest ih =>
    simp only [moves] at moved
    rw [List.exists_mem_cons_iff]
    split at moved
    · next outside =>
      have far : ¬ Reaches dimension (unit + multiplier * step) new := fun reaches => by
        simp [reaches.within] at outside
      rw [or_iff_right far, ih moved]
    · next inside =>
      obtain ⟨value, given, moved⟩ := bind_eq_ok_iff.mp moved
      obtain ⟨others, rested, moved⟩ := bind_eq_ok_iff.mp moved
      obtain rfl : (if value == old then others else value :: others) = values :=
        Except.ok.inj moved
      have reached : Reaches dimension (unit + multiplier * step) new ↔ new = value := by
        refine ⟨fun reaches => Except.ok.inj (reaches.value.symm.trans given), fun same => ?_⟩
        exact ⟨by simpa using inside, same ▸ given⟩
      rw [reached, or_and_right, ← ih rested]
      split
      · next same =>
        -- A step that leads back to the old value is left out on both sides.
        have unmoved : ¬ (new = value ∧ (new == old) = false) := by
          rintro ⟨rfl, differs⟩
          exact Bool.false_ne_true (differs.symm.trans same)
        rw [or_iff_right unmoved]
      · next differs =>
        have moved : (new = value ∧ (new == old) = false) ↔ new = value :=
          and_iff_left_of_imp fun same => same ▸ Bool.eq_false_iff.mpr differs
        rw [moved, List.mem_cons]

theorem mem_variationsAlong
    (varied : variationsAlong multipliers realSteps current name dimension = .ok all) :
    candidate ∈ all ↔ ∃ old new, current.get? name = some old ∧
      Leads multipliers realSteps dimension old new ∧ candidate = current.insert name new := by
  unfold variationsAlong at varied
  split at varied
  · next missing =>
    cases varied
    simp [missing]
  · next old present =>
    obtain ⟨unit?, measured, varied⟩ := bind_eq_ok_iff.mp varied
    cases unit? with
    | none =>
      cases varied
      -- A value outside its dimension has no coordinate to step from.
      refine ⟨nofun, ?_⟩
      rintro ⟨other, new, found, leads, -⟩
      cases present.symm.trans found
      obtain ⟨unit, -, inside, -⟩ := leads.steps
      cases measured.symm.trans inside
    | some unit =>
      obtain ⟨step, stepped, varied⟩ := bind_eq_ok_iff.mp varied
      obtain ⟨values, moved, varied⟩ := bind_eq_ok_iff.mp varied
      cases varied
      rw [List.mem_map]
      constructor
      · rintro ⟨new, member, rfl⟩
        obtain ⟨reached, differs⟩ := (mem_moves moved).mp member
        exact ⟨old, new, present, ⟨⟨unit, step, measured, stepped, reached⟩, differs⟩, rfl⟩
      · rintro ⟨other, new, found, ⟨⟨unit', step', measured', stepped', reached⟩, differs⟩, rfl⟩
        cases present.symm.trans found
        cases measured.symm.trans measured'
        cases stepped.symm.trans stepped'
        exact ⟨new, (mem_moves moved).mpr ⟨reached, differs⟩, rfl⟩

theorem mem_variations (varied : space.variations multipliers realSteps current = .ok all) :
    candidate ∈ all ↔ ∃ entry ∈ space.dimensions.entries, ∃ old new,
      current.get? entry.1 = some old ∧ Leads multipliers realSteps entry.2 old new ∧
        candidate = current.insert entry.1 new := by
  obtain ⟨parts, each, varied⟩ := bind_eq_ok_iff.mp varied
  cases varied
  have along := mapM_eq_ok_iff.mp each
  rw [List.mem_flatten]
  constructor
  · rintro ⟨part, member, inside⟩
    obtain ⟨entry, there, ok⟩ := exists_partner along.flip member
    exact ⟨entry, there, (mem_variationsAlong ok).mp inside⟩
  · rintro ⟨entry, there, led⟩
    obtain ⟨part, member, ok⟩ := exists_partner along there
    exact ⟨part, member, (mem_variationsAlong ok).mpr led⟩

theorem variations_replace (varied : space.variations multipliers realSteps current = .ok all) :
    ∀ c ∈ all, space.Replaces current c := by
  intro c member
  obtain ⟨entry, there, old, new, present, leads, rfl⟩ := (mem_variations varied).mp member
  exact ⟨entry.1, List.mem_map_of_mem there, old, new, present, leads.differs, rfl⟩

/-- What is admitted besides what was before, in the order in which it is found: candidates told apart
by signatures that were free. -/
structure Admits (before : Admitted) (all added : List ParameterSet) (after : Admitted) : Prop where
  output : after.candidates.reverse = before.candidates.reverse ++ added
  chosen : ∀ c ∈ added, c ∈ all
  distinct : (added.map ByName.signature).Nodup
  new : ∀ c ∈ added, c.signature ∉ before.seen
  covers : ∀ c ∈ all, c.signature ∈ after.seen
  seen_iff : ∀ signature, signature ∈ after.seen ↔
    signature ∈ before.seen ∨ signature ∈ added.map ByName.signature

namespace Admits

theorem start (before : Admitted) : Admits before [] [] before :=
  ⟨(List.append_nil _).symm, nofun, .nil, nofun, nofun, by simp⟩

theorem step (admits : Admits before all added after) (c : ParameterSet) :
    ∃ added', Admits before (all ++ [c]) added' <| Admitted.admit after c := by
  unfold Admitted.admit
  simp only [List.contains_iff_mem]
  split
  · next known =>
    -- What is left out is covered by what took its signature.
    refine ⟨added, admits.output, fun d member => List.mem_append_left _ (admits.chosen d member),
      admits.distinct, admits.new, ?_, admits.seen_iff⟩
    rw [List.forall_mem_append, List.forall_mem_singleton]
    exact ⟨admits.covers, known⟩
  · next unknown =>
    have free := mt (admits.seen_iff c.signature).mpr unknown
    rw [not_or] at free
    refine ⟨added ++ [c], ?_, ?_, ?_, ?_, ?_, fun signature => ?_⟩
    · rw [List.reverse_cons, admits.output, List.append_assoc]
    · rw [List.forall_mem_append, List.forall_mem_singleton]
      exact ⟨fun d member => List.mem_append_left _ (admits.chosen d member), by simp⟩
    · rw [List.map_append, List.map_singleton, ← List.concat_eq_append]
      exact admits.distinct.concat free.2
    · rw [List.forall_mem_append, List.forall_mem_singleton]
      exact ⟨admits.new, free.1⟩
    · rw [List.forall_mem_append, List.forall_mem_singleton]
      exact ⟨fun d member => List.mem_cons_of_mem _ (admits.covers d member), List.mem_cons_self⟩
    · rw [List.mem_cons, admits.seen_iff, List.map_append, List.mem_append, List.map_singleton,
        List.mem_singleton, or_comm, or_assoc]

theorem foldl {rest : List ParameterSet} (admits : Admits before all added after) :
    ∃ added', Admits before (all ++ rest) added' (rest.foldl Admitted.admit after) := by
  induction rest generalizing all added after with
  | nil => exact ⟨added, by simpa using admits⟩
  | cons c rest ih =>
    obtain ⟨_, next⟩ := admits.step c
    obtain ⟨added', admits'⟩ := ih next
    exact ⟨added', by simpa using admits'⟩

theorem of_foldl (before : Admitted) (all : List ParameterSet) :
    ∃ added, Admits before all added (all.foldl Admitted.admit before) :=
  (start before).foldl

end Admits

theorem admitNeighbours_admits
    (ok : space.admitNeighbours multipliers realSteps current before = .ok after) :
    ∃ all added, space.variations multipliers realSteps current = .ok all ∧
      Admits before all added after := by
  obtain ⟨all, varied, collected⟩ := bind_eq_ok_iff.mp ok
  obtain ⟨added, admits⟩ := Admits.of_foldl before all
  cases collected
  exact ⟨all, added, varied, admits⟩

theorem neighbours_admits
    (ok : space.neighbours multipliers realSteps current seen = .ok (found, taken)) :
    ∃ all, space.variations multipliers realSteps current = .ok all ∧
      Admits ⟨seen, []⟩ all found ⟨taken, found.reverse⟩ := by
  obtain ⟨after, ok, collected⟩ := bind_eq_ok_iff.mp ok
  obtain ⟨all, added, varied, admits⟩ := admitNeighbours_admits ok
  cases collected
  have output : after.candidates.reverse = added := admits.output
  refine ⟨all, varied, ?_⟩
  rw [List.reverse_reverse, output]
  exact admits

/-- The neighbours replace one value each, are told apart by signatures that were free, and leave no
variation that is not taken. -/
theorem neighbours_spec
    (ok : space.neighbours multipliers realSteps current seen = .ok (found, taken)) :
    (∀ c ∈ found, space.Replaces current c) ∧ (found.map ByName.signature).Nodup ∧
      (∀ c ∈ found, c.signature ∉ seen) ∧
      (∀ signature, signature ∈ taken ↔ signature ∈ seen ∨ signature ∈ found.map ByName.signature) ∧
      ∃ all, space.variations multipliers realSteps current = .ok all ∧
        ∀ c ∈ all, c.signature ∈ taken := by
  obtain ⟨all, varied, admits⟩ := neighbours_admits ok
  exact ⟨fun c member => variations_replace varied c (admits.chosen c member), admits.distinct,
    admits.new, admits.seen_iff, all, varied, admits.covers⟩

end StrategySearch.SearchSpace
