import StrategySearch.Random.Normal
import StrategySearch.Proofs.Ends

/-! What is drawn from a source alone is always drawn: words, units, normal numbers. -/

set_option autoImplicit false

namespace StrategySearch

variable {γ : Type} [WordSource γ] {stops : Stop → Prop}

namespace Draw

theorem word_ends : Ends γ stops (fun _ => True) word :=
  fun _ => trivial

theorem unit_ends : Ends γ stops (fun _ => True) unit :=
  fun _ => trivial

theorem openUnit_ends : Ends γ stops (fun _ => True) openUnit :=
  fun _ => trivial

theorem below_ends {n : Nat} (positive : 0 < n) : Ends γ stops (· < n) (below n) := by
  unfold below
  induction patience with
  | zero => exact Ends.pure positive
  | succ fuel ih =>
    unfold below.attempt
    refine word_ends.bind fun w _ => ?_
    simp only
    split
    · refine Ends.pure (Nat.div_lt_of_lt_mul ?_)
      exact Nat.mul_lt_mul_of_pos_right w.toNat_lt positive
    · exact ih

end Draw

namespace Normal

open Draw (Ends)

theorem tail_ends (fuel : Nat) : Ends γ stops (fun _ => True) (tail fuel) := by
  induction fuel with
  | zero => exact Ends.pure trivial
  | succ fuel ih =>
    unfold tail
    refine Draw.openUnit_ends.bind fun _ _ => ?_
    refine Draw.openUnit_ends.bind fun _ _ => ?_
    simp only
    split
    · exact ih
    · exact Ends.pure trivial

theorem standard_ends (fuel : Nat) : Ends γ stops (fun _ => True) (standard fuel) := by
  induction fuel with
  | zero => exact Ends.pure trivial
  | succ fuel ih =>
    unfold standard
    refine Draw.word_ends.bind fun w _ => ?_
    simp only
    split
    · exact Ends.pure trivial
    split
    · refine (tail_ends Draw.patience).bind fun t _ => ?_
      split <;> exact Ends.pure trivial
    · refine Draw.unit_ends.bind fun _ _ => ?_
      split
      · exact Ends.pure trivial
      · exact ih

theorem draw_ends (d : Normal) : Ends γ stops (fun _ => True) d.draw :=
  (standard_ends Draw.patience).bind fun _ _ => Ends.pure trivial

end Normal
end StrategySearch
