import StrategySearch.Proofs.Decimal.Product
import StrategySearch.Proofs.Decimal.Quotient

/-! When decimals have a sum.

A sum that is too long is rounded, never past an integer. So decimals of at most `n` in size have a
sum of at most the sum of their bounds, as long as that is a magnitude.
-/

set_option autoImplicit false

namespace StrategySearch.Decimal

variable {m s n k : Nat} {a b : Decimal}

theorem roundHalfEven_le {d : Nat} (pos : 0 < d) (le : m ≤ n * d) : roundHalfEven m d ≤ n := by
  have whole : d * (m / d) + m % d = m := Nat.div_add_mod m d
  have below : m / d ≤ n := Nat.div_le_of_le_mul (by rw [Nat.mul_comm]; exact le)
  unfold roundHalfEven
  simp only
  split
  · next up =>
    -- A quotient that is rounded up has a remainder, so it is not yet the bound.
    have rest : m % d ≠ 0 := by
      rintro none
      simp [none] at up
      omega
    refine Nat.lt_of_le_of_ne below ?_
    rintro rfl
    rw [Nat.mul_comm] at le
    omega
  · exact below

theorem fit?_atMost (le : m ≤ n * tenTo s) (small : n < magnitudeBound) :
    ∃ m' s', fit? m s = some (m', s') ∧ m' ≤ n * tenTo s' := by
  cases fits : fit? m s with
  | none =>
    have large := fit?_eq_none_iff.mp fits
    have positive := tenTo_pos s
    have step : (n + 1) * tenTo s ≤ magnitudeBound * tenTo s := Nat.mul_le_mul_right _ small
    rw [Nat.add_mul] at step
    rw [Nat.mul_assoc] at large
    omega
  | some pair =>
    obtain ⟨drop, found, rfl⟩ := Option.map_eq_some_iff.mp fits
    have inside := List.mem_of_find?_eq_some found
    simp only [List.mem_range] at inside
    refine ⟨_, _, rfl, roundHalfEven_le (tenTo_pos drop) ?_⟩
    rw [Nat.mul_assoc, ← tenTo_add, show s - drop + drop = s by omega]
    exact le

theorem fromExact?_eq_none_iff {c : Int} :
    fromExact? c s = none ↔ 2 * magnitudeBound * tenTo s ≤ 2 * c.natAbs + tenTo s := by
  rw [← fit?_eq_none_iff, fromExact?]
  cases fits : fit? c.natAbs s with
  | none => simp
  | some pair =>
    obtain ⟨d, made, -⟩ :=
      make?_signed (decide (c < 0)) (fit?_eq_some fits).1 (fit?_eq_some fits).2
    simp [made]

theorem fromExact?_atMost {c : Int} (le : c.natAbs ≤ n * tenTo s) (small : n < magnitudeBound) :
    ∃ d, fromExact? c s = some d ∧ AtMost n d := by
  obtain ⟨m', s', fits, atMost⟩ := fit?_atMost le small
  obtain ⟨d, made, magnitude, scale⟩ :=
    make?_signed (decide (c < 0)) (fit?_eq_some fits).1 (fit?_eq_some fits).2
  refine ⟨d, by simp [fromExact?, fits, made], ?_⟩
  rw [AtMost, magnitude, scale]
  exact atMost

theorem AtMost.mono (atMost : AtMost n a) (le : n ≤ k) : AtMost k a :=
  Nat.le_trans atMost (Nat.mul_le_mul_right _ le)

theorem AtMost.rescaled (atMost : AtMost n a) (within : a.scale ≤ s) :
    (a.coefficient * tenTo (s - a.scale)).natAbs ≤ n * tenTo s := by
  rw [Int.natAbs_mul, natAbs_coefficient, Int.natAbs_natCast]
  calc a.magnitude * tenTo (s - a.scale)
      ≤ n * tenTo a.scale * tenTo (s - a.scale) := Nat.mul_le_mul_right _ atMost
    _ = n * tenTo s := by
        rw [Nat.mul_assoc, ← tenTo_add, show a.scale + (s - a.scale) = s by omega]

theorem add?_atMost (first : AtMost n a) (second : AtMost k b) (small : n + k < magnitudeBound) :
    ∃ c, a.add? b = some c ∧ AtMost (n + k) c := by
  unfold add?
  split
  · exact ⟨b, rfl, second.mono (Nat.le_add_left k n)⟩
  split
  · exact ⟨a, rfl, first.mono (Nat.le_add_right n k)⟩
  refine fromExact?_atMost (Nat.le_trans (Int.natAbs_add_le _ _) ?_) small
  rw [Nat.add_mul]
  exact Nat.add_le_add (first.rescaled (Nat.le_max_left _ _)) (second.rescaled (Nat.le_max_right _ _))

theorem foldlM_add?_atMost {ds : List Decimal} (bounded : ∀ d ∈ ds, AtMost n d)
    (start : AtMost k a) (small : k + ds.length * n < magnitudeBound) :
    ∃ total, ds.foldlM add? a = some total := by
  induction ds generalizing a k with
  | nil => exact ⟨a, rfl⟩
  | cons d ds ih =>
    rw [List.length_cons, Nat.add_mul, Nat.one_mul] at small
    obtain ⟨next, added, atMost⟩ := add?_atMost start (bounded d List.mem_cons_self) (by omega)
    rw [List.foldlM_cons, added]
    exact ih (fun e mem => bounded e (List.mem_cons_of_mem d mem)) atMost (by omega)

theorem sum?_isSome {ds : List Decimal} (bounded : ∀ d ∈ ds, AtMost n d)
    (small : ds.length * n < magnitudeBound) : ∃ total, sum? ds = some total := by
  have nothing : AtMost 0 zero := Nat.zero_le _
  exact foldlM_add?_atMost bounded nothing (by omega)

def lowest : Decimal :=
  { zero with negative := true, magnitude := magnitudeBound - 1, magnitude_lt := by decide }

theorem eq_lowest_iff :
    a = lowest ↔ a.negative = true ∧ a.magnitude + 1 = magnitudeBound ∧ a.scale = 0 := by
  constructor
  · rintro rfl
    exact ⟨rfl, rfl, rfl⟩
  · obtain ⟨negative, magnitude, scale, lt, le⟩ := a
    rintro ⟨rfl, same, rfl⟩
    obtain rfl : magnitude = magnitudeBound - 1 := by simp only at same; omega
    rfl

/-- Only the least decimal has no predecessor. -/
theorem sub?_one_eq_none_iff : a.sub? one = none ↔ a = lowest := by
  have short := a.magnitude_lt
  rw [eq_lowest_iff]
  have stays : one.neg.isZero = false := rfl
  unfold sub? add?
  split
  · next zero =>
    simp only [isZero, beq_iff_eq] at zero
    refine iff_of_false (Option.some_ne_none _) ?_
    rintro ⟨-, last, -⟩
    rw [zero] at last
    exact absurd last (by decide)
  have scale : max a.scale one.neg.scale = a.scale := Nat.max_eq_left (Nat.zero_le _)
  rw [if_neg (by simp [stays]), fromExact?_eq_none_iff]
  simp only [scale, Nat.sub_self, tenTo_zero]
  have less : one.neg.coefficient = -1 := rfl
  have none : one.neg.scale = 0 := rfl
  rw [less, none, Nat.sub_zero]
  have weight : a.scale = 0 ∧ tenTo a.scale = 1 ∨ a.scale ≠ 0 ∧ 10 ≤ tenTo a.scale := by
    cases a.scale with
    | zero => exact .inl ⟨rfl, tenTo_zero⟩
    | succ s =>
      have := tenTo_pos s
      refine .inr ⟨Nat.succ_ne_zero s, ?_⟩
      rw [tenTo_succ]
      omega
  unfold coefficient
  unfold magnitudeBound at *
  -- With a place behind the point a tenth of the magnitude counts, which is too little.
  cases a.negative <;> simp <;> omega

end StrategySearch.Decimal
