import StrategySearch.Decimal.Arithmetic

/-! When two decimals have a quotient.

The digits of a quotient are produced from the front. They run out of room only in front of the
point, so a divisor that is no longer behind the point than the dividend always leaves one. It is
rounded, but never past an integer.
-/

set_option autoImplicit false

namespace StrategySearch.Decimal

variable {divisor q r digits n : Nat} {scale : Int} {sticky extended : Bool}

def AtMost (n : Nat) (d : Decimal) : Prop := d.magnitude ≤ n * tenTo d.scale

structure Quotient.Fits (n : Nat) (quotient : Quotient) : Prop where
  digits_lt : quotient.digits < magnitudeBound
  scale_nonneg : 0 ≤ quotient.scale
  scale_le : quotient.scale ≤ 28
  atMost : quotient.digits ≤ n * tenTo quotient.scale.toNat

theorem room_spec (q : Nat) (scale : Int) (fits : q < magnitudeBound) :
    q * tenTo (room q scale) < magnitudeBound ∧ room q scale ≤ 9 := by
  unfold room
  match found : (List.range (min 9 (28 - scale).toNat + 1)).reverse.find?
      fun k => decide (q * tenTo k < magnitudeBound) with
  | none => simpa [found, tenTo_zero] using fits
  | some k =>
    have inside := List.mem_of_find?_eq_some found
    have chosen := List.find?_some found
    simp only [List.mem_reverse, List.mem_range, decide_eq_true_eq] at inside chosen
    simp only [found, Option.getD_some]
    exact ⟨chosen, by omega⟩

theorem shrink?_fits (behind : 1 ≤ scale) (le : scale ≤ 28)
    (near : digits < magnitudeBound + tenTo 9) (atMost : digits ≤ n * tenTo scale.toNat) :
    ∃ quotient, shrink? digits scale sticky = some quotient ∧ quotient.Fits n := by
  have bound : digits / 10 + 1 < magnitudeBound := by
    have nine : tenTo 9 = 1000000000 := rfl
    unfold magnitudeBound at *
    omega
  have shorter : n * tenTo scale.toNat = n * tenTo (scale - 1).toNat * 10 := by
    rw [show scale.toNat = (scale - 1).toNat + 1 by omega, tenTo_succ, Nat.mul_assoc]
  rw [shrink?, if_neg (by omega)]
  refine ⟨_, rfl, ?_, by simp only; omega, by simp only; omega, ?_⟩
  · simp only
    split <;> omega
  · simp only
    -- Rounding up needs a last digit of five or more, so it does not pass a multiple of ten.
    split
    · next up =>
      have half : 5 ≤ digits % 10 := by
        simp only [Bool.or_eq_true, Bool.and_eq_true, decide_eq_true_eq, beq_iff_eq] at up
        omega
      omega
    · omega

def Bounded (n divisor q r : Nat) (scale : Int) : Prop :=
  q * divisor + r ≤ n * tenTo scale.toNat * divisor

theorem Bounded.extend (bounded : Bounded n divisor q r scale) (nonneg : 0 ≤ scale) (k : Nat) :
    Bounded n divisor (q * tenTo k + r * tenTo k / divisor) (r * tenTo k % divisor) (scale + k) := by
  have split : divisor * (r * tenTo k / divisor) + r * tenTo k % divisor = r * tenTo k :=
    Nat.div_add_mod _ _
  have scaled := Nat.mul_le_mul_right (tenTo k) bounded
  rw [Bounded, show (scale + k).toNat = scale.toNat + k by omega, tenTo_add]
  calc (q * tenTo k + r * tenTo k / divisor) * divisor + r * tenTo k % divisor
      = (q * divisor + r) * tenTo k := by
        rw [Nat.add_mul, Nat.mul_comm (r * tenTo k / divisor), Nat.add_assoc, split, Nat.add_mul,
          Nat.mul_right_comm]
    _ ≤ n * tenTo scale.toNat * divisor * tenTo k := scaled
    _ = n * (tenTo scale.toNat * tenTo k) * divisor := by
        rw [Nat.mul_right_comm, Nat.mul_assoc n]

theorem Bounded.digits_le (bounded : Bounded n divisor q r scale) (positive : 0 < divisor) :
    q ≤ n * tenTo scale.toNat ∧ (r ≠ 0 → q + 1 ≤ n * tenTo scale.toNat) := by
  constructor
  · exact Nat.le_of_mul_le_mul_right (Nat.le_trans (Nat.le_add_right _ r) bounded) positive
  · intro some
    refine Nat.lt_of_mul_lt_mul_right (a := divisor) (Nat.lt_of_lt_of_le ?_ bounded)
    omega

/-- From a scale that is not negative the digits never run out of room; in front of the point there
is only the rounding of the last digit to fear. -/
theorem divide?_fits (nonneg : 0 ≤ scale) (le : scale ≤ 28) (fits : q < magnitudeBound)
    (rest : r < divisor) (bounded : Bounded n divisor q r scale)
    (headroom : scale = 0 → r ≠ 0 → q + 1 < magnitudeBound) :
    ∃ quotient, divide? divisor q r scale extended = some quotient ∧ quotient.Fits n := by
  have positive : 0 < divisor := by omega
  fun_induction divide? divisor q r scale extended with
  | case1 q scale extended whole =>
    exact ⟨_, rfl, fits, whole, le, (bounded.digits_le positive).1⟩
  | case2 q scale extended before => exact absurd nonneg before
  | case3 q scale extended before => exact absurd nonneg before
  | case4 q r scale extended _ k short => omega
  | case5 q r scale extended some k _ last up full =>
    have up_le : up ≤ n * tenTo scale.toNat := by
      have ⟨below, above⟩ := bounded.digits_le positive
      simp only [up]
      split
      · exact above some
      · exact below
    -- In front of the point there was headroom, so digits that became full stand behind it.
    have behind : 1 ≤ scale := by
      refine Int.not_lt.mp fun front => ?_
      have space := headroom (by omega) some
      simp only [up] at full
      split at full <;> omega
    exact shrink?_fits behind le (by have := tenTo_pos 9; omega) up_le
  | case6 q r scale extended some k _ last up room =>
    have ⟨below, above⟩ := bounded.digits_le positive
    refine ⟨_, rfl, ?_, nonneg, le, ?_⟩
    · have reached : up ≤ magnitudeBound := by
        simp only [up]
        split <;> omega
      exact Nat.lt_of_le_of_ne reached room
    · simp only [up]
      split
      · exact above some
      · exact below
  | case7 q r scale extended some k _ more next rest' full =>
    obtain ⟨product, nine⟩ : q * tenTo k < magnitudeBound ∧ k ≤ 9 := room_spec q scale fits
    have enough := room_le q scale
    have digits : r * tenTo k / divisor < tenTo k :=
      Nat.div_lt_of_lt_mul (Nat.mul_lt_mul_of_pos_right rest (tenTo_pos k))
    have weight := tenTo_le nine
    exact shrink?_fits (by omega) (by omega) (by omega)
      ((bounded.extend nonneg k).digits_le positive).1
  | case8 q r scale extended some k _ more next rest' full ih =>
    have enough := room_le q scale
    exact ih (by omega) (by omega) (by omega) (Nat.mod_lt _ positive) (bounded.extend nonneg k)
      (by omega)

/-! ### Trailing zeros -/

def Strips (q s : Nat) (p : Nat × Nat) : Prop := p.2 ≤ s ∧ p.1 * tenTo (s - p.2) = q

theorem Strips.refl (q s : Nat) : Strips q s (q, s) :=
  ⟨Nat.le_refl s, by rw [Nat.sub_self, tenTo_zero, Nat.mul_one]⟩

theorem Strips.drop {p : Nat × Nat} {s zeros : Nat} (strips : Strips q s p) (room : zeros ≤ p.2)
    (divides : p.1 % tenTo zeros = 0) : Strips q s (p.1 / tenTo zeros, p.2 - zeros) := by
  obtain ⟨within, same⟩ := strips
  have whole : p.1 / tenTo zeros * tenTo zeros = p.1 :=
    Nat.div_mul_cancel (Nat.dvd_of_mod_eq_zero divides)
  refine ⟨by simp only; omega, ?_⟩
  simp only
  rw [show s - (p.2 - zeros) = zeros + (s - p.2) by omega, tenTo_add, ← Nat.mul_assoc, whole, same]

theorem strips_eights (fuel : Nat) {s : Nat} {p : Nat × Nat} (strips : Strips q s p) :
    Strips q s (stripZeros.eights fuel p.1 p.2) := by
  induction fuel generalizing p with
  | zero => exact strips
  | succ fuel ih =>
    rw [stripZeros.eights]
    split
    · next h => exact ih (strips.drop h.2.1 h.2.2)
    · exact strips

theorem strips_stripZeros (q s : Nat) : Strips q s (stripZeros q s) := by
  have group (low zeros : Nat) (p : Nat × Nat) (strips : Strips q s p) :
      Strips q s (if p.1 % low = 0 ∧ zeros ≤ p.2 ∧ p.1 % tenTo zeros = 0 then
        (p.1 / tenTo zeros, p.2 - zeros) else p) := by
    split
    · next h => exact strips.drop h.2.1 h.2.2
    · exact strips
  have start : Strips q s (q, s) := .refl q s
  exact group 2 1 _ (group 4 2 _ (group 16 4 _ (strips_eights s start)))

theorem Quotient.strips (quotient : Quotient) : Strips quotient.digits quotient.scale.toNat
    (if quotient.extended then stripZeros quotient.digits quotient.scale.toNat
      else (quotient.digits, quotient.scale.toNat)) := by
  split
  · exact strips_stripZeros _ _
  · exact .refl _ _

theorem Strips.le {s : Nat} {p : Nat × Nat} (strips : Strips q s p) : p.1 ≤ q := by
  rw [← strips.2]
  exact Nat.le_mul_of_pos_right _ (tenTo_pos _)

theorem Strips.atMost {s : Nat} {p : Nat × Nat} (strips : Strips q s p) (le : q ≤ n * tenTo s) :
    p.1 ≤ n * tenTo p.2 ∧ p.1 ≤ q := by
  have ⟨within, same⟩ := strips
  have positive := tenTo_pos (s - p.2)
  constructor
  · refine Nat.le_of_mul_le_mul_right ?_ positive
    rw [same, Nat.mul_assoc, ← tenTo_add, show p.2 + (s - p.2) = s by omega]
    exact le
  · exact strips.le

/-! ### Quotients of decimals -/

theorem make?_eq_some {c : Int} {s : Nat} (digits : c.natAbs < magnitudeBound)
    (places : s ≤ maxScale) :
    ∃ d, make? c s = some d ∧ d.magnitude = c.natAbs ∧ d.scale = s := by
  simp [make?, ofParts?, digits, places]

theorem parts_of_make? {c : Int} {s : Nat} {d : Decimal} (made : make? c s = some d) :
    d.magnitude = c.natAbs ∧ d.scale = s := by
  unfold make? ofParts? at made
  split at made
  · cases made
    exact ⟨rfl, rfl⟩
  · cases made

theorem make?_signed (negative : Bool) {m s : Nat} (digits : m < magnitudeBound)
    (places : s ≤ maxScale) :
    ∃ d, make? (signed negative m) s = some d ∧ d.magnitude = m ∧ d.scale = s := by
  have size : (signed negative m).natAbs = m := by cases negative <;> simp [signed]
  obtain ⟨d, made, magnitude, scale⟩ :=
    make?_eq_some (c := signed negative m) (size.symm ▸ digits) places
  exact ⟨d, made, magnitude.trans size, scale⟩

theorem magnitude_pos {d : Decimal} (nonzero : d.isZero = false) : 0 < d.magnitude := by
  simp only [isZero, beq_eq_false_iff_ne] at nonzero
  omega

/-- A quotient with a remainder has a divisor of two or more, which leaves room to round it. -/
theorem quotient_succ_lt {a b : Decimal} (rest : a.magnitude % b.magnitude ≠ 0)
    (positive : 0 < b.magnitude) : a.magnitude / b.magnitude + 1 < magnitudeBound := by
  have short := a.magnitude_lt
  have two : 2 ≤ b.magnitude := by
    rcases Nat.lt_or_ge b.magnitude 2 with one | two
    · exact absurd (by rw [show b.magnitude = 1 by omega, Nat.mod_one]) rest
    · exact two
  have half := Nat.div_le_div_left two (by decide) (a := a.magnitude)
  unfold magnitudeBound at *
  omega

/-- A divisor that has no more places than the dividend leaves a quotient. -/
theorem div?_atMost {a b : Decimal} (nonzero : b.isZero = false) (places : b.scale ≤ a.scale)
    (atMost : a.magnitude ≤ n * tenTo (a.scale - b.scale) * b.magnitude) :
    ∃ c, a.div? b = some c ∧ AtMost n c := by
  have positive := magnitude_pos nonzero
  have short := a.magnitude_lt
  have within := a.scale_le
  have whole : a.magnitude / b.magnitude ≤ a.magnitude := Nat.div_le_self _ _
  -- The divisor has no more places, so the division starts behind the point.
  have bounded : Bounded n b.magnitude (a.magnitude / b.magnitude) (a.magnitude % b.magnitude)
      (a.scale - b.scale) := by
    rw [Bounded, Nat.div_add_mod', show ((a.scale : Int) - b.scale).toNat = a.scale - b.scale by omega]
    exact atMost
  have divided : ∃ quotient, divide? b.magnitude (a.magnitude / b.magnitude)
      (a.magnitude % b.magnitude) (a.scale - b.scale) false = some quotient ∧ quotient.Fits n :=
    divide?_fits (by omega) (by unfold maxScale at within; omega) (Nat.lt_of_le_of_lt whole short)
      (Nat.mod_lt a.magnitude positive) bounded (fun _ rest => quotient_succ_lt rest positive)
  obtain ⟨quotient, divided, fits⟩ := divided
  have digits := fits.digits_lt
  have places : quotient.scale.toNat ≤ maxScale := by
    have := fits.scale_le
    unfold maxScale
    omega
  have strips := quotient.strips
  have ⟨small, shorter⟩ := strips.atMost fits.atMost
  rw [div?, if_neg (by simp [nonzero])]
  split
  · exact ⟨zero, rfl, Nat.zero_le _⟩
  · simp only [divided, Option.bind_eq_bind, Option.bind_some]
    obtain ⟨c, made, magnitude, scale⟩ := make?_signed (signOf a b)
      (Nat.lt_of_le_of_lt shorter digits) (Nat.le_trans strips.1 places)
    exact ⟨c, made, by rw [AtMost, magnitude, scale]; exact small⟩

theorem div?_isSome {a b : Decimal} (nonzero : b.isZero = false) (places : b.scale ≤ a.scale) :
    ∃ c, a.div? b = some c := by
  have positive := magnitude_pos nonzero
  obtain ⟨c, divided, -⟩ := div?_atMost (n := a.magnitude) nonzero places (by
    rw [Nat.mul_assoc]
    exact Nat.le_mul_of_pos_right _ (Nat.mul_pos (tenTo_pos _) positive))
  exact ⟨c, divided⟩

end StrategySearch.Decimal
