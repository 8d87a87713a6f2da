import Mathlib
import StrategySearch.Propose.Parzen
import StrategySearch.Proofs.Random.Draws
import StrategySearch.Proofs.Space.Candidates

/-!
Parzen estimation stays in the space, and stops for one more reason than the space does: a usable
trial with a coordinate that is no number.
-/

set_option autoImplicit false

namespace StrategySearch.Parzen

variable {γ : Type} {space : SearchSpace} {history : List Trial} {stops : Stop → Prop}
  {size count : Nat} {center width : Float} {good bad : List Observation}

theorem signOf_kernelWidth (count : Nat) : Double.signOf (kernelWidth count) = some .positive := by
  have half : (0.5 : Float).toModel.unpack = .finite .positive (2 ^ 52) (-53) (by decide) := rfl
  unfold kernelWidth
  simp only
  split
  · rfl
  · exact Double.signOf_div half (Double.signOf_sqrt (Double.signOf_ofNat _))

theorem not_kernelWidth_lt_leastWidth (count : Nat) : ¬ kernelWidth count < leastWidth := by
  unfold kernelWidth
  simp only
  split
  · exact Double.not_lt_self leastWidth
  · next wide => exact wide

theorem kernelWidth_pos (count : Nat) : ¬ kernelWidth count ≤ 0.0 := by
  intro le
  have zero := Double.zero_of_le_zero (signOf_kernelWidth count) le
  refine not_kernelWidth_lt_leastWidth count (Double.lt_iff.mpr ?_)
  rw [zero]
  rfl

theorem kernel_ends (center : Float) (count : Nat) :
    Answer.Ends (fun stop => center.isNaN = true ∧ kernel center (kernelWidth count) = .error stop)
      (fun _ => True) (kernel center (kernelWidth count)) := by
  have number : (kernelWidth count).isNaN = false := by
    rw [← Bool.not_eq_true, ← Double.signOf_eq_none_iff, signOf_kernelWidth]
    exact Option.some_ne_none _
  have positive := kernelWidth_pos count
  match found : kernel center (kernelWidth count) with
  | .ok _ => trivial
  | .error stop =>
    refine ⟨?_, rfl⟩
    by_contra some
    have made : Normal.make? center (kernelWidth count) = .some ⟨center, kernelWidth count⟩ :=
      if_neg (by rw [Bool.eq_false_iff.mpr some, number, decide_eq_false positive]; decide)
    rw [kernel, made] at found
    cases found

structure Usable (stops : Stop → Prop) (size : Nat) (o : Observation) : Prop where
  length : o.point.length = size
  kernel : ∀ center ∈ o.point, ∀ count,
    Answer.Ends stops (fun _ => True) (kernel center (kernelWidth count))

theorem logKernel_ends {o : Observation} (usable : Usable stops size o) (x : List Float)
    (count : Nat) :
    Answer.Ends stops (fun _ => True) (logKernel o.point x (kernelWidth count)) := by
  refine Answer.Ends.foldlM trivial fun total _ coordinate mem => ?_
  have inside : coordinate.1 ∈ o.point := (List.of_mem_zip mem).1
  exact (usable.kernel coordinate.1 inside count).bind fun _ _ => trivial

theorem logDensity_ends {observed : List Observation} (usable : ∀ o ∈ observed, Usable stops size o)
    (x : List Float) (count : Nat) :
    Answer.Ends stops (fun _ => True) (logDensity observed x (kernelWidth count)) :=
  (Answer.Ends.mapM (R := fun _ _ => True) fun o mem => logKernel_ends (usable o mem) x count).bind
    fun _ _ => trivial

variable [WordSource γ]

theorem drawNear_ends {center : Float} (count : Nat)
    (kernel : Answer.Ends stops (fun _ => True) (kernel center (kernelWidth count))) :
    Draw.Ends γ stops (fun _ => True) (drawNear (kernelWidth count) center) := by
  refine (Draw.Ends.ofAnswer kernel).bind fun d _ => ?_
  exact d.draw_ends.bind fun x _ => Draw.Ends.pure trivial

theorem drawCandidate_ends (some : good ≠ []) (usable : ∀ o ∈ good ++ bad, Usable stops size o) :
    Draw.Ends γ stops (fun drawn => drawn.1.length = size) (drawCandidate good bad) := by
  have good' : ∀ o ∈ good, Usable stops size o := fun o mem =>
    usable o (List.mem_append_left bad mem)
  have bad' : ∀ o ∈ bad, Usable stops size o := fun o mem =>
    usable o (List.mem_append_right good mem)
  unfold drawCandidate
  refine (Draw.below_ends (List.length_pos_iff.mpr some)).bind fun index inside => ?_
  have center := good' _ (List.getElem_mem inside)
  rw [List.getElem?_eq_getElem inside, Option.map_some, Option.getD_some]
  refine (Draw.Ends.mapM (R := fun _ _ => True) fun c mem =>
    drawNear_ends good.length (center.kernel c mem good.length)).bind fun x each => ?_
  refine (Draw.Ends.ofAnswer (logDensity_ends good' x good.length)).bind fun _ _ => ?_
  refine (Draw.Ends.ofAnswer (logDensity_ends bad' x bad.length)).bind fun _ _ => ?_
  exact Draw.Ends.pure (each.length_eq.symm.trans center.length)

theorem drawBest_ends (some : good ≠ []) (usable : ∀ o ∈ good ++ bad, Usable stops size o)
    (fuel : Nat) {best : List Float × Float} (length : best.1.length = size) :
    Draw.Ends γ stops (fun point => point.length = size) (drawBest good bad fuel best) := by
  induction fuel generalizing best with
  | zero => exact Draw.Ends.pure length
  | succ fuel ih =>
    refine (drawCandidate_ends some usable).bind fun next nextLength => ih ?_
    split
    · exact nextLength
    · exact length

theorem observe_ends (space : SearchSpace) (history : List Trial) :
    Answer.Ends space.Overflows (fun observed => ∀ o ∈ observed, ∃ trial ∈ history,
      space.toUnitPoint trial.parameters = .ok (some o.point)) (observe space history) := by
  induction history with
  | nil => nofun
  | cons trial rest ih =>
    have later : Answer.Ends space.Overflows (fun observed => ∀ o ∈ observed,
        ∃ other ∈ trial :: rest, space.toUnitPoint other.parameters = .ok (some o.point))
        (observe space rest) :=
      ih.mono (fun _ => id) fun observed each o mem =>
        (each o mem).imp fun _ found => ⟨List.mem_cons_of_mem trial found.1, found.2⟩
    rw [observe]
    split
    · refine (SearchSpace.toUnitPoint_ends space trial.parameters).known.bind fun point? found => ?_
      split
      · next point =>
        refine later.bind fun observed each => ?_
        rintro o (_ | ⟨_, mem⟩)
        · exact ⟨trial, List.mem_cons_self, found.1⟩
        · exact each o mem
      · exact later
    · exact later

theorem split_mem {observed : List Observation} {o : Observation}
    (mem : o ∈ (split observed).1 ++ (split observed).2) : o ∈ observed := by
  rw [split, List.take_append_drop] at mem
  exact (List.mergeSort_perm observed better).mem_iff.mp mem

theorem one_le_goodCount (n : Nat) : 1 ≤ goodCount n :=
  Nat.le_max_left _ _

theorem good_ne_nil {observed : List Observation} (some : observed ≠ []) :
    (split observed).1 ≠ [] := by
  have positive := one_le_goodCount observed.length
  have length := List.length_pos_iff.mpr some
  rw [← List.length_pos_iff, split, List.length_take, List.length_mergeSort]
  omega

/-- Why a proposal may stop: the integers of a dimension cannot be counted, or a usable trial has a
coordinate that is no number. -/
def Refuses (space : SearchSpace) (history : List Trial) (stop : Stop) : Prop :=
  space.Overflows stop ∨ ∃ trial ∈ history, ∃ point,
    space.toUnitPoint trial.parameters = .ok (some point) ∧ ∃ center ∈ point,
      center.isNaN = true ∧ ∃ count, kernel center (kernelWidth count) = .error stop

theorem draw_ends (space : SearchSpace) (history : List Trial) (startup : Nat) :
    Draw.Ends γ (Refuses space history) space.Has (draw space history startup) := by
  have overflows : ∀ stop, space.Overflows stop → Refuses space history stop := fun _ => .inl
  unfold draw
  refine (Draw.Ends.ofAnswer ((observe_ends space history).mono overflows fun _ => id)).bind
    fun observed each => ?_
  split
  · exact (SearchSpace.sample_ends space).mono overflows fun _ => id
  · next enough =>
    have some : observed ≠ [] := by
      rintro rfl
      exact enough (Nat.lt_of_lt_of_le Nat.two_pos (Nat.le_max_right _ _))
    -- Centres are coordinates of usable trials, so only these can lack a kernel.
    have usable : ∀ o ∈ (split observed).1 ++ (split observed).2,
        Usable (Refuses space history) space.size o := fun o mem => by
      obtain ⟨trial, inside, found⟩ := each o (split_mem mem)
      have lengths := SearchSpace.toUnitPoint_ends space trial.parameters
      rw [found] at lengths
      exact ⟨lengths o.point rfl, fun center coordinate count =>
        (kernel_ends center count).mono (fun stop refused =>
          .inr ⟨trial, inside, o.point, found, center, coordinate, refused.1, count, refused.2⟩)
          fun _ => id⟩
    refine (drawCandidate_ends (good_ne_nil some) usable).bind fun first length => ?_
    refine (drawBest_ends (good_ne_nil some) usable _ length).bind fun point length => ?_
    exact Draw.Ends.ofAnswer ((SearchSpace.fromUnitPoint_ends space point).mono overflows
      fun parameters has => has length.ge)

theorem propose_has (space : SearchSpace) (history : List Trial) (s : Parzen γ) :
    Answer.Ends (Refuses space history) space.Has (s.propose space history).1 :=
  draw_ends space history s.startup s.source

end StrategySearch.Parzen
