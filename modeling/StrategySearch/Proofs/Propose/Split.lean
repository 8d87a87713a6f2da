import StrategySearch.Proofs.Double.Arithmetic
import StrategySearch.Proofs.Propose.Parzen
import StrategySearch.Proofs.Propose.Ranking

/-!
Good observations and the others. Two observations are enough for both parts to have some, whatever
the objectives are, and a proposal made from fewer is a sample.
-/

set_option autoImplicit false

namespace StrategySearch.Parzen

open Double (Is below_overflow is_ofInt is_quarter)

variable {n : Nat} {observed : List Observation}

/-! ### The number of good ones -/

/-- Whatever the share is, the bounds leave one observation out. -/
theorem goodCount_le (two : 2 ≤ n) : goodCount n ≤ n - 1 := by
  unfold goodCount
  simp only
  omega

/-- A quarter of a number of 53 bits is exact, so it is rounded up as a fraction. -/
theorem goodCount_eq (short : n ≤ 2 ^ 53) :
    goodCount n = max 1 (min ((n + 3) / 4) (max (n - 1) 1)) := by
  have whole : Is (Float.ofNat n) n := by
    exact_mod_cast is_ofInt (k := n) (by rw [Nat.abs_cast]; exact_mod_cast short)
  have size : |(1 / 4 * n : ℚ)| < 2 ^ 1023 := by
    refine below_overflow ?_
    rw [abs_of_nonneg (by positivity)]
    have : (n : ℚ) ≤ 2 ^ 53 := by exact_mod_cast short
    linarith
  obtain ⟨w, rounds, product⟩ := is_quarter.mul whole size
  -- A quarter only lowers the exponent, so the product is not rounded.
  have exact' : Double.Representable (1 / 4 * n : ℚ) :=
    ⟨n, -2, by rw [Nat.abs_cast]; exact_mod_cast short, by decide, by push_cast; ring⟩
  rw [rounds.eq_of_representable exact'] at product
  have up : ⌈(1 / 4 * n : ℚ)⌉ = ((n + 3) / 4 : Nat) := by
    have below : ((n : Int) : ℚ) ≤ (4 * ((n + 3) / 4 : Nat) : Int) := by exact_mod_cast (by omega)
    have above : ((4 * ((n + 3) / 4 : Nat) : Int) : ℚ) ≤ (n + 3 : Int) := by exact_mod_cast (by omega)
    push_cast at below above
    rw [Int.ceil_eq_iff]
    push_cast
    constructor <;> linarith
  have few : ((n + 3) / 4 : Nat) ≤ (UInt64.size - 1 : Int) := by
    simp only [UInt64.size]
    omega
  unfold goodCount
  rw [goodShare, product.ceilWithin_eq, up]
  simp only
  omega

/-! ### The parts -/

/-- Two parts of which the first has the better observations, each in the order of its ranks and those
of one rank in the order in which they were made. -/
structure Divides (observed good bad : List Observation) : Prop where
  within : goodCount observed.length ≤ observed.length
  count : good.length = goodCount observed.length
  some : 1 ≤ good.length
  others : good.length ≤ observed.length - 1
  quarter : observed.length ≤ 2 ^ 53 → good.length = (observed.length + 3) / 4
  same : (good ++ bad).Perm observed
  ranked : ∀ g ∈ good, ∀ b ∈ bad, orderKey b.objective ≤ orderKey g.objective ∧
    ¬ g.objective < b.objective
  stable : ∀ rank, (good ++ bad).filter (fun o => orderKey o.objective == rank) =
    observed.filter fun o => orderKey o.objective == rank

theorem split_append (observed : List Observation) :
    (split observed).1 ++ (split observed).2 = observed.mergeSort better :=
  List.take_append_drop _ _

theorem divides_split (two : 2 ≤ observed.length) :
    Divides observed (split observed).1 (split observed).2 := by
  have few := goodCount_le two
  have count : (split observed).1.length = goodCount observed.length := by
    rw [split, List.length_take, List.length_mergeSort]
    omega
  have sorted := List.pairwise_mergeSort better_trans better_total observed
  rw [← split_append, List.pairwise_append] at sorted
  refine ⟨by omega, count, count ▸ one_le_goodCount _, count ▸ few, fun short => ?_, ?_,
    fun g good b bad => ?_, fun rank => ?_⟩
  · rw [count, goodCount_eq short]
    omega
  · rw [split_append]
    exact List.mergeSort_perm observed better
  · have ranked := sorted.2.2 g good b bad
    exact ⟨better_iff.mp ranked, not_lt_of_better ranked⟩
  · rw [split_append]
    refine filter_mergeSort_of_ties better better_trans better_total (fun a b left right => ?_) observed
    rw [better_iff, eq_of_beq left, eq_of_beq right]

theorem propose_of_few {γ : Type} [WordSource γ] {space : SearchSpace} {history : List Trial}
    (found : observe space history = .ok observed) (few : observed.length < 2) (s : Parzen γ) :
    s.propose space history = ((space.sample.run.run s.source).1,
      { s with source := (space.sample.run.run s.source).2 }) := by
  have least : observed.length < max s.startup 2 := few.trans_le (Nat.le_max_right _ _)
  have sampled : draw space history s.startup = (space.sample : Draw γ ParameterSet) := by
    unfold draw
    rw [found]
    exact if_pos least
  unfold propose
  rw [sampled]
  rfl

/-- Every split has observations on both sides, the better ones on the first. -/
theorem split_divides :
    (∀ observed : List Observation, 2 ≤ observed.length →
      Divides observed (split observed).1 (split observed).2) ∧
    ∀ (γ : Type) [WordSource γ] (space : SearchSpace) (history : List Trial) (s : Parzen γ)
      (observed : List Observation), observe space history = .ok observed → observed.length < 2 →
        s.propose space history = ((space.sample.run.run s.source).1,
          { s with source := (space.sample.run.run s.source).2 }) :=
  ⟨fun _ => divides_split, fun _ _ _ _ s _ found few => propose_of_few found few s⟩

/-- The cut of three falls between two observations of one objective. -/
def tied : List Observation := [⟨[0.25], 1.0⟩, ⟨[0.5], 1.0⟩, ⟨[0.75], -1.0⟩]

theorem split_divides_tied : 2 ≤ tied.length ∧ Divides tied (split tied).1 (split tied).2 :=
  ⟨by decide, split_divides.1 tied (by decide)⟩

end StrategySearch.Parzen
