import StrategySearch.Proofs.FloatText.Basin

/-! The digits chosen for a double lie in its basin.

Digits found on a grid were tried there. Where none were found, the nearest decimal of eighteen digits
is taken, and that is nearer to the double than any end of its basin.
-/

set_option autoImplicit false

namespace StrategySearch.FloatText

variable {d : Dyadic} {c : Digits} {tie : Tie} {m n q : Nat} {e place : Int} {s : Bool}

theorem Dyadic.size_eq (d : Dyadic) : d.size = (d.numerator : ℚ) / d.denominator := by
  rw [size, numerator, denominator, twoTo_eq, twoTo_eq, show (2 : ℚ) = (2 : Nat) from rfl,
    zpow_eq_div 2 (by decide)]
  push_cast
  ring

theorem scaled_eq (place : Int) :
    ((scaled n q place).1 : ℚ) / (scaled n q place).2 = n / q * 10 ^ (-place) := by
  rw [scaled, show (10 : ℚ) = (10 : Nat) from rfl, zpow_eq_div 10 (by decide), Int.neg_neg, tenTo_eq,
    tenTo_eq]
  push_cast
  exact mul_div_mul_comm ..

theorem roundDiv_spec (tie : Tie) (n : Nat) (positive : 0 < q) :
    2 * n ≤ 2 * (roundDiv tie n q * q) + q ∧ 2 * (roundDiv tie n q * q) ≤ 2 * n + q := by
  have whole : q * (n / q) + n % q = n := Nat.div_add_mod n q
  have part : n % q < q := Nat.mod_lt n positive
  have next : (n / q + 1) * q = q * (n / q) + q := by ring
  have same : n / q * q = q * (n / q) := Nat.mul_comm ..
  unfold roundDiv
  cases tie <;> simp only [decide_eq_true_eq, Bool.or_eq_true, Bool.and_eq_true, beq_iff_eq] <;>
    split <;> omega

theorem roundDiv_near (tie : Tie) (n : Nat) (positive : 0 < q) :
    |(roundDiv tie n q : ℚ) - n / q| ≤ 1 / 2 := by
  have weight : (0 : ℚ) < q := by exact_mod_cast positive
  have ⟨above, below⟩ := roundDiv_spec tie n positive
  have above : (2 * n : ℚ) ≤ 2 * (roundDiv tie n q * q) + q := by exact_mod_cast above
  have below : (2 * (roundDiv tie n q * q) : ℚ) ≤ 2 * n + q := by exact_mod_cast below
  rw [abs_le, sub_le_iff_le_add, neg_le_sub_iff_le_add, div_le_iff₀ weight, ← sub_le_iff_le_add',
    le_div_iff₀ weight]
  constructor <;> linarith

theorem lt_ten_pow_digits (n : Nat) : n < 10 ^ (Nat.toDigits 10 n).length :=
  (Nat.length_toDigits_le_iff (by decide) Nat.length_toDigits_pos).mp (Nat.le_refl _)

theorem ten_pow_digits_le (positive : 0 < n) : 10 ^ ((Nat.toDigits 10 n).length - 1) ≤ n := by
  rcases Nat.eq_zero_or_pos ((Nat.toDigits 10 n).length - 1) with none | some
  · rw [none]
    exact positive
  · refine Nat.not_lt.mp fun less => ?_
    have := (Nat.length_toDigits_le_iff (by decide) some).mpr less
    omega

theorem leadingPlace_le (positive : 0 < n) (proper : 0 < q) :
    (10 : ℚ) ^ leadingPlace n q ≤ n / q := by
  have weight : (0 : ℚ) < q := by exact_mod_cast proper
  unfold leadingPlace
  simp only
  generalize guessed : ((Nat.toDigits 10 n).length : Int) - (Nat.toDigits 10 q).length = guess
  split
  · next fits =>
    have one : (1 : ℚ) ≤ n / q * 10 ^ (-guess) := by
      rw [← scaled_eq, one_le_div₀ (by exact_mod_cast Nat.mul_pos proper (tenTo_pos _))]
      exact_mod_cast fits
    rw [zpow_neg, ← div_eq_mul_inv, one_le_div₀ (by positivity)] at one
    exact one
  · have size : ((Nat.toDigits 10 n).length - 1 : Nat) - ((Nat.toDigits 10 q).length : Int) =
        guess - 1 := by
      have := Nat.length_toDigits_pos (b := 10) (n := n)
      omega
    rw [← size, zpow_sub₀ (by norm_num), zpow_natCast, zpow_natCast]
    have top : (10 ^ ((Nat.toDigits 10 n).length - 1) : ℚ) ≤ n := by
      exact_mod_cast ten_pow_digits_le positive
    have bottom : (q : ℚ) ≤ 10 ^ (Nat.toDigits 10 q).length := by
      exact_mod_cast (lt_ten_pow_digits q).le
    exact div_le_div₀ (Nat.cast_nonneg n) top weight bottom

theorem holds_of_onGrid (found : onGrid tie d place = some c) :
    (basin d).Contains d.exponent c.value :=
  holds_iff.mp (List.find?_some found)

/-- Whatever is nearer than a quarter of the last place lies in the basin. -/
theorem contains_of_near (positive : 0 < m) {v : ℚ}
    (near : |v - (⟨s, m, e⟩ : Dyadic).size| < 2 ^ (e - 2)) : (basin ⟨s, m, e⟩).Contains e v := by
  have unit : (0 : ℚ) < 2 ^ (e - 2) := by positivity
  have size : (⟨s, m, e⟩ : Dyadic).size = 4 * m * 2 ^ (e - 2) := by
    rw [Dyadic.size, zpow_sub₀ two_ne_zero]
    norm_num
    ring
  have low : ((basin ⟨s, m, e⟩).low : ℚ) ≤ 4 * m - 1 := by
    have : (basin ⟨s, m, e⟩).low + 1 ≤ 4 * m := by
      simp only [basin]
      split <;> omega
    have : ((basin ⟨s, m, e⟩).low + 1 : ℚ) ≤ 4 * m := by exact_mod_cast this
    linarith
  have high : ((basin ⟨s, m, e⟩).high : ℚ) = 4 * m + 2 := by simp [basin]
  have below := mul_le_mul_of_nonneg_right low unit.le
  rw [size, abs_lt] at near
  have inside : (basin ⟨s, m, e⟩).low * 2 ^ (e - 2) < v ∧ v < (basin ⟨s, m, e⟩).high * 2 ^ (e - 2) := by
    rw [high]
    constructor <;> linarith [near.1, near.2]
  unfold Basin.Contains
  split
  · exact ⟨inside.1.le, inside.2.le⟩
  · exact inside

/-- Rounded in the eighteenth digit, the decimal is nearer than that. -/
theorem eighteen_near (canonical : Double.Canonical m e)
    (lead : place + 17 = leadingPlace (⟨s, m, e⟩ : Dyadic).numerator
      (⟨s, m, e⟩ : Dyadic).denominator) {n' q' : Nat}
    (grid : scaled (⟨s, m, e⟩ : Dyadic).numerator (⟨s, m, e⟩ : Dyadic).denominator place = (n', q')) :
    |(⟨roundDiv tie n' q', place⟩ : Digits).value - (⟨s, m, e⟩ : Dyadic).size| < 2 ^ (e - 2) := by
  have unit : (0 : ℚ) < 2 ^ (e - 2) := by positivity
  have step : (0 : ℚ) < 10 ^ place := by positivity
  have numerator : 0 < (⟨s, m, e⟩ : Dyadic).numerator := Nat.mul_pos canonical.pos (twoTo_pos _)
  have denominator : 0 < (⟨s, m, e⟩ : Dyadic).denominator := twoTo_pos _
  have proper : 0 < q' := by
    cases grid
    exact Nat.mul_pos denominator (tenTo_pos _)
  have onGrid : (⟨s, m, e⟩ : Dyadic).size = n' / q' * 10 ^ place := by
    have scaled := scaled_eq (n := (⟨s, m, e⟩ : Dyadic).numerator)
      (q := (⟨s, m, e⟩ : Dyadic).denominator) place
    rw [grid, ← Dyadic.size_eq, zpow_neg] at scaled
    rw [scaled, inv_mul_cancel_right₀ step.ne']
  have leads : (10 : ℚ) ^ place * 10 ^ 17 ≤ (⟨s, m, e⟩ : Dyadic).size := by
    have le := leadingPlace_le numerator denominator
    rw [← lead, zpow_add₀ (by norm_num), ← Dyadic.size_eq] at le
    exact_mod_cast le
  -- The double has fewer than 2^55 quarters, so a step of the grid is less than one of them.
  have size : (⟨s, m, e⟩ : Dyadic).size < 2 ^ 55 * 2 ^ (e - 2) := by
    have short : (m : ℚ) < 2 ^ 53 := by exact_mod_cast canonical.short
    have quarters : (2 : ℚ) ^ e = 4 * 2 ^ (e - 2) := by
      rw [zpow_sub₀ two_ne_zero]
      norm_num
      ring
    rw [Dyadic.size, quarters]
    nlinarith
  rw [onGrid, Digits.value, ← sub_mul, abs_mul, abs_of_pos step]
  calc |(roundDiv tie n' q' : ℚ) - n' / q'| * 10 ^ place ≤ 1 / 2 * 10 ^ place :=
        mul_le_mul_of_nonneg_right (roundDiv_near tie n' proper) step.le
    _ < 2 ^ (e - 2) := by linarith

theorem shortest_contains (canonical : Double.Canonical m e) :
    (basin ⟨s, m, e⟩).Contains e (shortest tie ⟨s, m, e⟩).value := by
  unfold shortest
  simp only
  generalize lead_eq : leadingPlace (⟨s, m, e⟩ : Dyadic).numerator
    (⟨s, m, e⟩ : Dyadic).denominator = lead
  cases found : ((List.range 17).map fun (k : Nat) => lead - k).findSome? (onGrid tie ⟨s, m, e⟩) with
  | some c =>
    obtain ⟨place, -, here⟩ := List.exists_of_findSome?_eq_some found
    exact holds_of_onGrid here
  | none =>
    exact contains_of_near canonical.pos (eighteen_near canonical (by omega) rfl)

/-! ## Zeros at the end -/

theorem eq_append_zeros (ds : List Char) :
    ∃ front, ds = front ++ List.replicate (ds.reverse.takeWhile (· == '0')).length '0' := by
  have zeros : ds.reverse.takeWhile (· == '0') =
      List.replicate (ds.reverse.takeWhile (· == '0')).length '0' :=
    List.eq_replicate_of_mem fun c member => by simpa using List.mem_takeWhile_imp member
  refine ⟨(ds.reverse.dropWhile (· == '0')).reverse, ?_⟩
  rw [← List.reverse_replicate, ← zeros, ← List.reverse_append, List.takeWhile_append_dropWhile,
    List.reverse_reverse]

theorem stripped_value (c : Digits) : c.stripped.value = c.value := by
  unfold Digits.stripped
  simp only
  split
  · rfl
  · obtain ⟨front, split⟩ := eq_append_zeros (Nat.toDigits 10 c.digits)
    generalize ((Nat.toDigits 10 c.digits).reverse.takeWhile (· == '0')).length = zeros at split
    have digits : c.digits = 10 ^ zeros * Nat.ofDigitChars 10 front 0 := by
      conv_lhs => rw [← Nat.ofDigitChars_ten_toDigits (n := c.digits), split]
      rw [Nat.ofDigitChars_append, Nat.ofDigitChars_replicate_zero]
    have quotient : c.digits / tenTo zeros = Nat.ofDigitChars 10 front 0 := by
      rw [digits, tenTo_eq, Nat.mul_div_cancel_left _ (by positivity)]
    rw [Digits.value, Digits.value, quotient, digits, zpow_add₀ (by norm_num), zpow_natCast]
    push_cast
    ring

end StrategySearch.FloatText
