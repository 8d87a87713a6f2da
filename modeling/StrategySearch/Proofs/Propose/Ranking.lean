import Mathlib
import StrategySearch.Propose.Parzen
import StrategySearch.Proofs.Double.Sign
import StrategySearch.Proofs.StableSort

/-!
The order in which observations are ranked. It is total and follows the order of doubles; zero has two
places in it, the negative one below the other.
-/

set_option autoImplicit false

namespace StrategySearch.Parzen

open Double (Canonical canonical_of_unpack fields_bounds lt_iff toBits_eq value_eq)
open Float.Model (UnpackedFloat)
open Float.Model.UnpackedFloat (Sign)

variable {x y : Float} {u v : UnpackedFloat} {m n : Nat} {e f : Int} {a b c : Observation}
  {observed other : List Observation}

def extent (x : Float) : Nat := FloatText.exponentBits x * 2 ^ 52 + FloatText.fractionBits x

def signed : Sign → Int → Int
  | .positive, k => k
  | .negative, k => -1 - k

def place : UnpackedFloat → Int
  | .notANumber => 0
  | .zero s => signed s 0
  | .infinity s => signed s (2047 * 2 ^ 52)
  | .finite s m e _ => signed s ((e + 1074) * 2 ^ 52 + m)

theorem orderKey_eq_extent (x : Float) :
    orderKey x = if FloatText.signBit x then -1 - (extent x : Int) else extent x := by
  have bits := toBits_eq x
  obtain ⟨short, narrow⟩ := fields_bounds x
  unfold orderKey extent
  rw [bits]
  cases FloatText.signBit x
  · rw [if_neg Bool.false_ne_true, if_neg Bool.false_ne_true, if_pos (by omega)]
    omega
  · rw [if_pos rfl, if_pos rfl, if_neg (by omega)]
    omega

theorem extent_of_infinite {negative : Bool} (infinite : FloatText.value x = .infinite negative) :
    FloatText.signBit x = negative ∧ extent x = 2047 * 2 ^ 52 := by
  unfold FloatText.value at infinite
  unfold extent
  simp only at infinite
  split at infinite
  · next top =>
    split at infinite
    · next empty =>
      cases infinite
      exact ⟨rfl, by rw [top, empty, Nat.add_zero]⟩
    · cases infinite
  · split at infinite <;> cases infinite

theorem extent_of_finite {d : FloatText.Dyadic} (finite : FloatText.value x = .finite d) :
    FloatText.signBit x = d.negative ∧ (extent x : Int) = (d.exponent + 1074) * 2 ^ 52 + d.mantissa := by
  have hidden : twoTo 52 = 2 ^ 52 := rfl
  unfold FloatText.value at finite
  unfold extent
  simp only [hidden] at finite
  split at finite
  · split at finite <;> cases finite
  · split at finite
    · next least =>
      cases finite
      exact ⟨rfl, by simp [least]⟩
    · cases finite
      exact ⟨rfl, by push_cast; omega⟩

theorem orderKey_eq_place (number : x.isNaN = false) : orderKey x = place x.toModel.unpack := by
  have value := value_eq x
  rw [orderKey_eq_extent]
  match h : x.toModel.unpack with
  | .notANumber => exact absurd (Double.isNaN_iff.mpr h) (ne_true_of_eq_false number)
  | .infinity s =>
    rw [h] at value
    obtain ⟨sign, size⟩ := extent_of_infinite value
    cases s <;> simp [sign, size, place, signed]
  | .zero s =>
    rw [h] at value
    obtain ⟨sign, size⟩ := extent_of_finite value
    cases s <;> simp [sign, size, place, signed]
  | .finite s m e pos =>
    rw [h] at value
    obtain ⟨sign, size⟩ := extent_of_finite value
    cases s <;> simp [sign, size, place, signed]

theorem place_lt (first : Canonical m e) (second : Canonical n f)
    (below : (compare e f).then (compare m n) = .lt) :
    (e + 1074) * 2 ^ 52 + m < (f + 1074) * 2 ^ 52 + n := by
  have := first.short
  have := first.low
  have := second.full
  rw [Ordering.then_eq_lt, compare_lt_iff_lt, compare_eq_iff_eq, compare_lt_iff_lt] at below
  omega

def Kept : UnpackedFloat → Prop
  | .finite _ m e _ => Canonical m e
  | _ => True

theorem Kept.within (kept : Kept u) : match u with
    | .finite _ m e _ => 0 < (e + 1074) * 2 ^ 52 + m ∧ (e + 1074) * 2 ^ 52 + m < 2047 * 2 ^ 52
    | _ => True := by
  match u, kept with
  | .finite _ m e _, canonical =>
    have := canonical.pos
    have := canonical.short
    have := canonical.low
    have := canonical.high
    dsimp only
    omega
  | .notANumber, _ | .infinity _, _ | .zero _, _ => trivial

theorem place_lt_of_compare (first : Kept u) (second : Kept v) (below : u.compare v = some .lt) :
    place u < place v := by
  have size := first.within
  have size' := second.within
  rcases u with (_ | _) | _ | (_ | _) | ⟨_ | _, m, e, _⟩ <;>
    rcases v with (_ | _) | _ | (_ | _) | ⟨_ | _, n, f, _⟩ <;>
    simp only [UnpackedFloat.compare, Option.some.injEq, reduceCtorEq] at below size size' <;>
    simp only [place, signed]
  case finite.positive.finite.positive => exact place_lt first second below
  case finite.negative.finite.negative =>
    -- Below zero the order of the mantissas is turned round.
    rw [Ordering.swap_then, ← Std.OrientedCmp.eq_swap, ← Std.OrientedCmp.eq_swap] at below
    have turned := place_lt second first below
    omega
  all_goals omega

theorem kept_unpack (x : Float) : Kept x.toModel.unpack := by
  match h : x.toModel.unpack with
  | .finite s m e pos => exact canonical_of_unpack h
  | .notANumber | .infinity _ | .zero _ => trivial

/-- A smaller double has a smaller key. -/
theorem orderKey_lt_of_lt (lt : x < y) : orderKey x < orderKey y := by
  rw [lt_iff] at lt
  have known : ¬ (x.toModel.unpack = .notANumber ∨ y.toModel.unpack = .notANumber) := by
    rw [← Double.compare_eq_none_iff, lt]
    exact nofun
  rw [not_or, ← Double.isNaN_iff, ← Double.isNaN_iff, Bool.not_eq_true, Bool.not_eq_true] at known
  rw [orderKey_eq_place known.1, orderKey_eq_place known.2]
  exact place_lt_of_compare (kept_unpack x) (kept_unpack y) lt

/-! ### Observations -/

theorem better_iff : better a b = true ↔ orderKey b.objective ≤ orderKey a.objective :=
  decide_eq_true_iff

theorem better_trans (a b c : Observation) (first : better a b) (second : better b c) :
    better a c := by
  rw [better_iff] at *
  exact second.trans first

theorem better_total (a b : Observation) : better a b || better b a := by
  rw [Bool.or_eq_true, better_iff, better_iff]
  exact le_total _ _

theorem not_lt_of_better (ranked : better a b) : ¬ a.objective < b.objective := fun lt =>
  absurd (better_iff.mp ranked) (not_le.mpr (orderKey_lt_of_lt lt))

def Distinct (observed : List Observation) : Prop :=
  observed.Pairwise fun a b => orderKey a.objective ≠ orderKey b.objective

/-- Observations that differ in their objectives are ranked in one way only. -/
theorem mergeSort_eq_of_perm (same : observed.Perm other) (distinct : Distinct observed) :
    observed.mergeSort better = other.mergeSort better := by
  have before := List.mergeSort_perm observed better
  have after := List.mergeSort_perm other better
  have sorted := List.pairwise_mergeSort better_trans better_total observed
  have sorted' := List.pairwise_mergeSort better_trans better_total other
  refine (before.trans (same.trans after.symm)).eq_of_pairwise ?_ sorted sorted'
  intro a b inside inside' left right
  by_contra differ
  have member := before.mem_iff.mp inside
  have member' := same.mem_iff.mpr (after.mem_iff.mp inside')
  have symmetric : Std.Symm fun a b : Observation => orderKey a.objective ≠ orderKey b.objective :=
    ⟨fun _ _ => Ne.symm⟩
  exact distinct.forall member member' differ
    (le_antisymm (better_iff.mp right) (better_iff.mp left))

end StrategySearch.Parzen
