import Mathlib.Tactic.FieldSimp
import Mathlib.Tactic.Linarith
import Mathlib.Tactic.Ring
import StrategySearch.Proofs.Decimal.Product
import StrategySearch.Proofs.Decimal.Quotient

/-! The value of a quotient.

The division keeps the dividend, counted in units of the last place a decimal can have: what the
digits do not show is in the remainder. So a quotient is exact, or rounded in that last place, or far
above one, and it is missing only if it is too large for a decimal.
-/

set_option autoImplicit false

namespace StrategySearch.Decimal

variable {divisor q r digits n k : Nat} {scale : Int} {sticky extended : Bool}

def units (divisor q r : Nat) (scale : Int) : Nat := (q * divisor + r) * tenTo (28 - scale).toNat

/-- The exact quotient has no decimal next to it. -/
def Overflows (divisor n : Nat) : Prop := (2 * magnitudeBound - 1) * (divisor * tenTo 28) ≤ 2 * n

/-- How the digits of a quotient stand for `n / divisor`, counted in the last place. -/
inductive Renders (divisor n : Nat) (quotient : Quotient) : Prop where
  | exact : quotient.digits * divisor * tenTo (28 - quotient.scale).toNat = n →
      Renders divisor n quotient
  | rounded : quotient.scale = 28 → quotient.digits = roundHalfEven n divisor →
      Renders divisor n quotient
  | large : tenTo quotient.scale.toNat < quotient.digits → 2 * (divisor * tenTo 28) ≤ n →
      Renders divisor n quotient

theorem units_extend (q r : Nat) (le : scale + k ≤ 28) :
    units divisor (q * tenTo k + r * tenTo k / divisor) (r * tenTo k % divisor) (scale + k) =
      units divisor q r scale := by
  have split : divisor * (r * tenTo k / divisor) + r * tenTo k % divisor = r * tenTo k :=
    Nat.div_add_mod _ _
  have moved : (28 - scale).toNat = k + (28 - (scale + k)).toNat := by omega
  rw [units, units, moved, tenTo_add, ← Nat.mul_assoc]
  congr 1
  calc (q * tenTo k + r * tenTo k / divisor) * divisor + r * tenTo k % divisor
      = q * tenTo k * divisor + (divisor * (r * tenTo k / divisor) + r * tenTo k % divisor) := by
        ring
    _ = (q * divisor + r) * tenTo k := by rw [split]; ring

theorem not_find_succ {p : Nat → Bool} {limit : Nat}
    (below : ((List.range (limit + 1)).reverse.find? p).getD 0 < limit) :
    ¬ p (((List.range (limit + 1)).reverse.find? p).getD 0 + 1) := by
  induction limit with
  | zero => exact absurd below (Nat.not_lt_zero _)
  | succ limit ih =>
    have step : (List.range (limit + 1 + 1)).reverse.find? p =
        if p (limit + 1) then some (limit + 1) else (List.range (limit + 1)).reverse.find? p := by
      rw [List.range_succ, List.reverse_append]
      simp only [List.reverse_cons, List.reverse_nil, List.nil_append, List.singleton_append,
        List.find?_cons]
      cases p (limit + 1) <;> rfl
    rw [step] at below ⊢
    by_cases top : p (limit + 1)
    · simp [top] at below
    · rw [if_neg top] at below ⊢
      rcases Nat.lt_succ_iff_lt_or_eq.mp below with under | last
      · exact ih under
      · rwa [last]

theorem room_maximal (under : room q scale < min 9 (28 - scale).toNat) :
    magnitudeBound ≤ q * tenTo (room q scale + 1) := by
  unfold room at *
  simpa using not_find_succ under

theorem mul_tenTo_le {a b : Nat} (le : a ≤ q * tenTo b) (within : b ≤ k) : a ≤ q * tenTo k :=
  Nat.le_trans le (Nat.mul_le_mul_left q (tenTo_le within))

theorem overflows_of_digits (large : magnitudeBound ≤ q * tenTo (-scale).toNat)
    (before : scale ≤ 0) : Overflows divisor (units divisor q r scale) := by
  have weight : (28 - scale).toNat = (-scale).toNat + 28 := by omega
  have product : magnitudeBound * (divisor * tenTo 28) ≤ units divisor q r scale :=
    calc magnitudeBound * (divisor * tenTo 28)
        ≤ q * tenTo (-scale).toNat * (divisor * tenTo 28) := Nat.mul_le_mul_right _ large
      _ = q * divisor * tenTo (28 - scale).toNat := by rw [weight, tenTo_add]; ring
      _ ≤ units divisor q r scale := Nat.mul_le_mul_right _ (Nat.le_add_right _ r)
  calc (2 * magnitudeBound - 1) * (divisor * tenTo 28)
      ≤ 2 * magnitudeBound * (divisor * tenTo 28) := Nat.mul_le_mul_right _ (Nat.sub_le _ 1)
    _ = 2 * (magnitudeBound * (divisor * tenTo 28)) := Nat.mul_assoc ..
    _ ≤ 2 * units divisor q r scale := Nat.mul_le_mul_left 2 product

theorem not_overflows (nonneg : 0 ≤ scale)
    (small : 2 * (q * divisor + r) < (2 * magnitudeBound - 1) * divisor) :
    ¬ Overflows divisor (units divisor q r scale) := by
  have weight : tenTo (28 - scale).toNat ≤ tenTo 28 := tenTo_le (by omega)
  refine Nat.not_le.mpr ?_
  calc 2 * units divisor q r scale
      = 2 * (q * divisor + r) * tenTo (28 - scale).toNat := (Nat.mul_assoc ..).symm
    _ ≤ 2 * (q * divisor + r) * tenTo 28 := Nat.mul_le_mul_left _ weight
    _ < (2 * magnitudeBound - 1) * divisor * tenTo 28 :=
      Nat.mul_lt_mul_of_pos_right small (tenTo_pos 28)
    _ = (2 * magnitudeBound - 1) * (divisor * tenTo 28) := Nat.mul_assoc ..

theorem not_overflows_behind (behind : 1 ≤ scale)
    (near : q < magnitudeBound + tenTo 9) (rest : r < divisor) :
    ¬ Overflows divisor (units divisor q r scale) := by
  have weight : tenTo (28 - scale).toNat ≤ tenTo 27 := tenTo_le (by omega)
  have part : q * divisor + r < (magnitudeBound + tenTo 9) * divisor :=
    calc q * divisor + r < q * divisor + divisor := Nat.add_lt_add_left rest _
      _ = (q + 1) * divisor := (Nat.succ_mul q divisor).symm
      _ ≤ (magnitudeBound + tenTo 9) * divisor := Nat.mul_le_mul_right _ near
  refine Nat.not_le.mpr ?_
  calc 2 * units divisor q r scale
      ≤ 2 * ((q * divisor + r) * tenTo 27) := Nat.mul_le_mul_left 2 (Nat.mul_le_mul_left _ weight)
    _ < 2 * ((magnitudeBound + tenTo 9) * divisor * tenTo 27) :=
      Nat.mul_lt_mul_of_pos_left (Nat.mul_lt_mul_of_pos_right part (tenTo_pos 27)) (by decide)
    _ = 2 * (magnitudeBound + tenTo 9) * tenTo 27 * divisor := by ring
    _ ≤ (2 * magnitudeBound - 1) * tenTo 28 * divisor := Nat.mul_le_mul_right _ (by decide)
    _ = (2 * magnitudeBound - 1) * (divisor * tenTo 28) := by ring

theorem le_units {bound : Nat} (digits : bound * tenTo 28 ≤ q * tenTo (28 - scale).toNat) :
    bound * (divisor * tenTo 28) ≤ units divisor q r scale :=
  calc bound * (divisor * tenTo 28) = bound * tenTo 28 * divisor := by ring
    _ ≤ q * tenTo (28 - scale).toNat * divisor := Nat.mul_le_mul_right _ digits
    _ = q * divisor * tenTo (28 - scale).toNat := Nat.mul_right_comm ..
    _ ≤ units divisor q r scale := Nat.mul_le_mul_right _ (Nat.le_add_right _ r)

def Divides (divisor n : Nat) : Option Quotient → Prop
  | none => Overflows divisor n
  | some quotient => ¬ Overflows divisor n ∧ quotient.digits < magnitudeBound ∧
      0 ≤ quotient.scale ∧ quotient.scale ≤ 28 ∧ Renders divisor n quotient

theorem tenTo_lt_of_behind (le : scale ≤ 27) : tenTo scale.toNat < magnitudeBound / 10 :=
  Nat.lt_of_le_of_lt (tenTo_le (by omega)) (by decide : tenTo 27 < magnitudeBound / 10)

theorem shrink?_divides (full : magnitudeBound ≤ digits) (near : digits < magnitudeBound + tenTo 9)
    (le : scale ≤ 28) (front : scale < 1 → Overflows divisor n)
    (behind : 1 ≤ scale → ¬ Overflows divisor n ∧ 2 * (divisor * tenTo 28) ≤ n) :
    Divides divisor n (shrink? digits scale sticky) := by
  unfold shrink?
  split
  · next before => exact front before
  · next after =>
    obtain ⟨small, large⟩ := behind (by omega)
    have weight : tenTo (scale - 1).toNat < magnitudeBound / 10 := tenTo_lt_of_behind (by omega)
    have nine : tenTo 9 = 1000000000 := rfl
    have less : digits / 10 + 1 < magnitudeBound := by
      unfold magnitudeBound at *
      omega
    have more : magnitudeBound / 10 ≤ digits / 10 := Nat.div_le_div_right full
    refine ⟨small, ?_, by simp only; omega, by simp only; omega, .large ?_ large⟩
    · simp only
      split <;> omega
    · simp only
      split <;> omega

theorem twice_lt (fits : q < magnitudeBound) (rest : r < divisor)
    (last : q + 1 = magnitudeBound → 2 * r < divisor) :
    2 * (q * divisor + r) < (2 * magnitudeBound - 1) * divisor := by
  rcases Nat.lt_or_eq_of_le (Nat.succ_le_of_lt fits) with inside | edge
  · calc 2 * (q * divisor + r) < 2 * (q * divisor + divisor) := by omega
      _ = (2 * (q + 1)) * divisor := by ring
      _ ≤ (2 * magnitudeBound - 1) * divisor := Nat.mul_le_mul_right _ (by omega)
  · have := last edge
    calc 2 * (q * divisor + r) < 2 * (q * divisor) + divisor := by omega
      _ = (2 * q + 1) * divisor := by ring
      _ ≤ (2 * magnitudeBound - 1) * divisor := Nat.mul_le_mul_right _ (by omega)

def raised (divisor q r : Nat) : Nat :=
  if 2 * r > divisor || (2 * r == divisor && q % 2 == 1) then q + 1 else q

theorem raised_near : q ≤ raised divisor q r ∧ raised divisor q r ≤ q + 1 := by
  unfold raised
  split <;> omega

theorem raised_eq_roundHalfEven (rest : r < divisor) :
    raised divisor q r = roundHalfEven (q * divisor + r) divisor := by
  have quotient : (q * divisor + r) / divisor = q := by
    rw [Nat.mul_comm, Nat.mul_add_div (by omega), Nat.div_eq_of_lt rest, Nat.add_zero]
  have remainder : (q * divisor + r) % divisor = r := by
    rw [Nat.mul_comm, Nat.mul_add_mod, Nat.mod_eq_of_lt rest]
  rw [roundHalfEven, quotient, remainder]
  rfl

theorem raised_full_divides (le : scale ≤ 28) (nonneg : 0 ≤ scale) (fits : q < magnitudeBound)
    (rest : r < divisor) (full : raised divisor q r = magnitudeBound) :
    Divides divisor (units divisor q r scale) (shrink? (raised divisor q r) scale true) := by
  have edge : q + 1 = magnitudeBound ∧ divisor ≤ 2 * r := by
    unfold raised at full
    split at full
    · next above =>
      simp only [Bool.or_eq_true, Bool.and_eq_true, decide_eq_true_eq, beq_iff_eq] at above
      omega
    · omega
  have near : raised divisor q r < magnitudeBound + tenTo 9 :=
    full.symm ▸ Nat.lt_add_of_pos_right (tenTo_pos 9)
  refine shrink?_divides (Nat.le_of_eq full.symm) near le (fun front => ?_)
    fun behind => ⟨not_overflows_behind behind (by omega) rest, le_units ?_⟩
  · obtain rfl : scale = 0 := by omega
    have : (2 * magnitudeBound - 1) * divisor ≤ 2 * (q * divisor + r) :=
      calc (2 * magnitudeBound - 1) * divisor = (2 * q + 1) * divisor := by rw [← edge.1]; rfl
        _ = 2 * (q * divisor) + divisor := by ring
        _ ≤ 2 * (q * divisor + r) := by omega
    rw [Overflows, units, ← Nat.mul_assoc, ← Nat.mul_assoc]
    exact Nat.mul_le_mul_right _ this
  · calc 2 * tenTo 28 ≤ (magnitudeBound - 1) * 1 := by decide
      _ ≤ q * tenTo (28 - scale).toNat := Nat.mul_le_mul (by omega) (tenTo_pos _)

/-- Rounded digits that are in range show the quotient, in the last place or far above one. -/
theorem raised_renders (le : scale ≤ 28) (rest : r < divisor) (last : room q scale = 0) :
    Renders divisor (units divisor q r scale) ⟨raised divisor q r, scale, true⟩ := by
  by_cases place : scale = 28
  · subst place
    refine .rounded rfl ?_
    rw [units, show (28 - (28 : Int)).toNat = 0 from rfl, tenTo_zero, Nat.mul_one,
      raised_eq_roundHalfEven rest]
  · -- Digits short of the last place fill the range.
    have space : room q scale < min 9 (28 - scale).toNat := by omega
    have full : magnitudeBound ≤ q * tenTo 1 := by
      have := room_maximal space
      rwa [last] at this
    have filled : magnitudeBound ≤ q * 10 := full
    have weight : tenTo scale.toNat < magnitudeBound / 10 := tenTo_lt_of_behind (by omega)
    have above : q ≤ raised divisor q r := raised_near.1
    refine .large (show tenTo scale.toNat < raised divisor q r by omega) (le_units ?_)
    calc 2 * tenTo 28 ≤ magnitudeBound := by decide
      _ ≤ q * tenTo (28 - scale).toNat := mul_tenTo_le full (by omega)

theorem raised_divides (le : scale ≤ 28) (nonneg : 0 ≤ scale) (fits : q < magnitudeBound)
    (rest : r < divisor) (last : room q scale = 0) (notFull : raised divisor q r ≠ magnitudeBound) :
    Divides divisor (units divisor q r scale) (some ⟨raised divisor q r, scale, true⟩) := by
  have below : 2 * (q * divisor + r) < (2 * magnitudeBound - 1) * divisor := by
    refine twice_lt fits rest fun edge => ?_
    have odd : q % 2 = 1 := by
      unfold magnitudeBound at edge
      omega
    unfold raised at notFull
    split at notFull
    · exact absurd edge notFull
    · next stays =>
      simp only [odd, Bool.or_eq_true, Bool.and_eq_true, decide_eq_true_eq, beq_iff_eq,
        and_true] at stays
      omega
  have inRange : raised divisor q r < magnitudeBound := by
    have near : raised divisor q r ≤ q + 1 := raised_near.2
    omega
  exact ⟨not_overflows nonneg below, inRange, nonneg, le, raised_renders le rest last⟩

theorem divide?_divides (le : scale ≤ 28) (fits : q < magnitudeBound) (rest : r < divisor) :
    Divides divisor (units divisor q r scale) (divide? divisor q r scale extended) := by
  fun_induction divide? divisor q r scale extended with
  | case1 q scale extended whole =>
    exact ⟨not_overflows whole (twice_lt fits rest fun _ => by omega), fits, whole, le, .exact rfl⟩
  | case2 q scale extended before k large =>
    exact overflows_of_digits (mul_tenTo_le large (by omega)) (by omega)
  | case3 q scale extended before k small ih =>
    -- Without a remainder the integral part only gets its missing zeros.
    have extend : units divisor (q * tenTo k + 0 * tenTo k / divisor) (0 * tenTo k % divisor)
        (scale + k) = units divisor q 0 scale := units_extend q 0 (by omega)
    rw [Nat.zero_mul, Nat.zero_div, Nat.zero_mod, Nat.add_zero] at extend
    exact extend ▸ ih (by omega) (by omega) rest
  | case4 q r scale extended some k short =>
    have space : k < min 9 (28 - scale).toNat := by omega
    exact overflows_of_digits (mul_tenTo_le (room_maximal space) (by omega)) (by omega)
  | case5 q r scale extended some k notShort last up full =>
    exact raised_full_divides le (by omega) fits rest full
  | case6 q r scale extended some k notShort last up notFull =>
    exact raised_divides le (by omega) fits rest last notFull
  | case7 q r scale extended some k _ more next rest' full =>
    obtain ⟨product, nine⟩ : q * tenTo k < magnitudeBound ∧ k ≤ 9 := room_spec q scale fits
    have enough : k ≤ (28 - scale).toNat := room_le q scale
    have digits : r * tenTo k / divisor < tenTo k :=
      Nat.div_lt_of_lt_mul (Nat.mul_lt_mul_of_pos_right rest (tenTo_pos k))
    have weight := tenTo_le nine
    have rest'_lt : rest' < divisor := Nat.mod_lt _ (by omega)
    rw [← units_extend (k := k) q r (by omega)]
    refine shrink?_divides full (by omega) (by omega) (fun front => ?_)
      fun behind => ⟨not_overflows_behind behind (by omega) rest'_lt, le_units ?_⟩
    · exact overflows_of_digits (mul_tenTo_le (b := 0) (by simpa [tenTo_zero] using full)
        (Nat.zero_le _)) (by omega)
    · calc 2 * tenTo 28 ≤ magnitudeBound * 1 := by decide
        _ ≤ next * tenTo (28 - (scale + k)).toNat := Nat.mul_le_mul full (tenTo_pos _)
  | case8 q r scale extended some k _ more next rest' full ih =>
    have enough : k ≤ (28 - scale).toNat := room_le q scale
    rw [← units_extend (k := k) q r (by omega)]
    exact ih (by omega) (by omega) (Nat.mod_lt _ (by omega))

/-! ### Quotients above one -/

/-- Rounding does not pass an even number from below unless more than half a unit is missing. -/
theorem lt_roundHalfEven_iff {m : Nat} (even : m % 2 = 0) (positive : 0 < divisor) :
    m < roundHalfEven n divisor ↔ divisor * (2 * m + 1) < 2 * n := by
  have whole : divisor * (n / divisor) + n % divisor = n := Nat.div_add_mod n divisor
  have part : n % divisor < divisor := Nat.mod_lt n positive
  simp only [roundHalfEven]
  generalize n / divisor = q at whole ⊢
  generalize n % divisor = r at whole part ⊢
  have twice : divisor * (2 * m + 1) = 2 * (divisor * m) + divisor := by ring
  rw [twice]
  rcases Nat.lt_trichotomy q m with less | rfl | more
  · have below : divisor * (q + 1) ≤ divisor * m := Nat.mul_le_mul_left _ less
    rw [Nat.mul_succ] at below
    refine iff_of_false ?_ (by omega)
    split <;> omega
  · simp only [even, Bool.or_eq_true, Bool.and_eq_true, decide_eq_true_eq, beq_iff_eq]
    split <;> omega
  · have above : divisor * (m + 1) ≤ divisor * q := Nat.mul_le_mul_left _ more
    rw [Nat.mul_succ] at above
    refine iff_of_true ?_ (by omega)
    split <;> omega

theorem Renders.one_lt_iff {quotient : Quotient} (renders : Renders divisor n quotient)
    (positive : 0 < divisor) (nonneg : 0 ≤ quotient.scale) (le : quotient.scale ≤ 28) :
    tenTo quotient.scale.toNat < quotient.digits ↔ divisor * (2 * tenTo 28 + 1) < 2 * n := by
  cases renders with
  | exact same =>
    have weight : tenTo 28 = tenTo quotient.scale.toNat * tenTo (28 - quotient.scale).toNat := by
      rw [← tenTo_add]
      congr 1
      omega
    have left : divisor * (2 * tenTo 28 + 1) = 2 * (divisor * tenTo (28 - quotient.scale).toNat *
        tenTo quotient.scale.toNat) + divisor := by
      rw [weight]
      ring
    have right : 2 * n = 2 * (divisor * tenTo (28 - quotient.scale).toNat * quotient.digits) := by
      rw [← same]
      ring
    have step := Nat.le_mul_of_pos_right divisor (tenTo_pos (28 - quotient.scale).toNat)
    have weight_pos := Nat.mul_pos positive (tenTo_pos (28 - quotient.scale).toNat)
    rw [left, right]
    -- Both sides are multiples of one unit, and half of it decides nothing.
    generalize divisor * tenTo (28 - quotient.scale).toNat = unit at *
    constructor
    · intro more
      have := Nat.mul_le_mul_left unit (Nat.succ_le_of_lt more)
      rw [Nat.mul_succ] at this
      omega
    · intro more
      exact Nat.lt_of_mul_lt_mul_left (a := unit) (by omega)
  | rounded place same =>
    rw [same, place]
    exact lt_roundHalfEven_iff (by decide) positive
  | large above units =>
    refine iff_of_true above ?_
    calc divisor * (2 * tenTo 28 + 1) < divisor * (4 * tenTo 28) :=
          Nat.mul_lt_mul_of_pos_left (by decide) positive
      _ = 2 * (2 * (divisor * tenTo 28)) := by ring
      _ ≤ 2 * n := Nat.mul_le_mul_left 2 units

/-! ### Quotients of decimals -/

variable {a b : Decimal}

def quotientUnits (a b : Decimal) : Nat :=
  units b.magnitude (a.magnitude / b.magnitude) (a.magnitude % b.magnitude)
    ((a.scale : Int) - b.scale)

theorem quotientUnits_mul (a b : Decimal) :
    quotientUnits a b * tenTo a.scale = a.magnitude * tenTo b.scale * tenTo 28 := by
  have within := a.scale_le
  have places : (28 - ((a.scale : Int) - b.scale)).toNat + a.scale = b.scale + 28 := by
    unfold maxScale at within
    omega
  rw [quotientUnits, units, Nat.div_add_mod', Nat.mul_assoc, ← tenTo_add, places, tenTo_add, Nat.mul_assoc]

theorem abs_value_div (a b : Decimal) :
    |a.value / b.value| = quotientUnits a b / (b.magnitude * tenTo 28 : Nat) := by
  have exact : (quotientUnits a b * tenTo a.scale : ℚ) = a.magnitude * tenTo b.scale * tenTo 28 := by
    exact_mod_cast quotientUnits_mul a b
  have left := a.weight_pos
  have right := b.weight_pos
  have last : (0 : ℚ) < tenTo 28 := by exact_mod_cast tenTo_pos 28
  rw [abs_div, abs_value, abs_value, eq_div_of_mul_eq left.ne' exact]
  push_cast
  field_simp

theorem overflows_iff (positive : 0 < b.magnitude) :
    Overflows b.magnitude (quotientUnits a b) ↔ overflowBound ≤ |a.value / b.value| := by
  have unit : (0 : ℚ) < (b.magnitude * tenTo 28 : Nat) := by
    exact_mod_cast Nat.mul_pos positive (tenTo_pos 28)
  have bound : ((2 * magnitudeBound - 1 : Nat) : ℚ) = 2 * overflowBound := by
    rw [Nat.cast_sub (by decide), overflowBound]
    push_cast
    ring
  rw [abs_value_div, le_div_iff₀ unit, Overflows, ← Nat.cast_le (α := ℚ), Nat.cast_mul, bound,
    Nat.cast_mul 2]
  constructor
  · intro le
    push_cast at le ⊢
    linarith
  · intro le
    push_cast at le ⊢
    linarith

theorem exceeds_iff (positive : 0 < b.magnitude) :
    b.magnitude * (2 * tenTo 28 + 1) < 2 * quotientUnits a b ↔
      1 + 1 / (2 * tenTo 28) < |a.value / b.value| := by
  have last : (0 : ℚ) < tenTo 28 := by exact_mod_cast tenTo_pos 28
  have unit : (0 : ℚ) < (b.magnitude * tenTo 28 : Nat) := by
    exact_mod_cast Nat.mul_pos positive (tenTo_pos 28)
  have half : (1 + 1 / (2 * (tenTo 28 : ℚ))) * (b.magnitude * tenTo 28 : Nat) =
      (b.magnitude * (2 * tenTo 28 + 1) : Nat) / 2 := by
    push_cast
    field_simp
  rw [abs_value_div, lt_div_iff₀ unit, half, div_lt_iff₀ (by norm_num), mul_comm (_ : ℚ) 2]
  exact_mod_cast Iff.rfl

theorem make?_signed_one_lt {negative : Bool} {m s : Nat} {c : Decimal}
    (made : make? (signed negative m) s = some c) :
    one < c ↔ negative = false ∧ tenTo s < m := by
  obtain ⟨fits, same⟩ := Option.dite_none_right_eq_some.mp made
  cases same
  have coefficient : coefficient ⟨decide (signed negative m < 0), (signed negative m).natAbs, s,
      fits.1, fits.2⟩ = signed negative m := by
    simp only [Decimal.coefficient, decide_eq_true_eq]
    split <;> omega
  show (1 : Int) * tenTo s < Decimal.coefficient _ * tenTo 0 ↔ _
  rw [coefficient, tenTo_zero]
  cases negative <;> simp [signed]

theorem Strips.one_lt_iff {q s : Nat} {p : Nat × Nat} (strips : Strips q s p) :
    tenTo p.2 < p.1 ↔ tenTo s < q := by
  obtain ⟨within, same⟩ := strips
  have positive := tenTo_pos (s - p.2)
  rw [← same, show s = p.2 + (s - p.2) by omega, tenTo_add, show p.2 + (s - p.2) - p.2 = s - p.2 by omega]
  exact (Nat.mul_lt_mul_right positive).symm

/-- The quotient of decimals that are not zero: missing if it overflows, else with its order to one. -/
theorem div?_cases (nonzero : b.isZero = false) (dividend : a.isZero = false) :
    a.div? b = none ∧ Overflows b.magnitude (quotientUnits a b) ∨
      ∃ c, a.div? b = some c ∧ ¬ Overflows b.magnitude (quotientUnits a b) ∧
        (one < c ↔ signOf a b = false ∧
          b.magnitude * (2 * tenTo 28 + 1) < 2 * quotientUnits a b) := by
  have positive := magnitude_pos nonzero
  have within := a.scale_le
  have whole : a.magnitude / b.magnitude < magnitudeBound :=
    Nat.lt_of_le_of_lt (Nat.div_le_self _ _) a.magnitude_lt
  have divides : Divides b.magnitude (quotientUnits a b) (divide? b.magnitude
      (a.magnitude / b.magnitude) (a.magnitude % b.magnitude) ((a.scale : Int) - b.scale) false) :=
    divide?_divides (by unfold maxScale at within; omega) whole (Nat.mod_lt _ positive)
  rw [div?, if_neg (by simp [nonzero]), if_neg (by simp [dividend])]
  simp only [Option.bind_eq_bind]
  -- The division and what is known of it are taken apart together.
  revert divides
  cases divide? b.magnitude (a.magnitude / b.magnitude) (a.magnitude % b.magnitude)
      ((a.scale : Int) - b.scale) false with
  | none => exact fun overflows => .inl ⟨rfl, overflows⟩
  | some quotient =>
    rintro ⟨fits, digits, nonneg, le, renders⟩
    refine .inr ?_
    have places : quotient.scale.toNat ≤ maxScale := by
      unfold maxScale
      omega
    simp only [Option.bind_some]
    have strips := quotient.strips
    generalize (if quotient.extended then stripZeros quotient.digits quotient.scale.toNat
      else (quotient.digits, quotient.scale.toNat)) = p at strips ⊢
    obtain ⟨c, made, -⟩ := make?_signed (signOf a b) (Nat.lt_of_le_of_lt strips.le digits)
      (Nat.le_trans strips.1 places)
    refine ⟨c, made, fits, ?_⟩
    rw [make?_signed_one_lt made, strips.one_lt_iff, renders.one_lt_iff positive nonneg le]

theorem value_eq_abs (d : Decimal) : d.value = if d.negative then -|d.value| else |d.value| := by
  rw [abs_value, value, coefficient]
  split
  · push_cast
    exact neg_div _ _
  · push_cast
    rfl

theorem value_div_eq_abs (a b : Decimal) :
    a.value / b.value = if signOf a b then -|a.value / b.value| else |a.value / b.value| := by
  rw [abs_div, a.value_eq_abs, b.value_eq_abs, signOf]
  cases a.negative <;> cases b.negative <;> simp [neg_div, div_neg]

theorem value_eq_zero_iff : a.value = 0 ↔ a.isZero := by
  rw [← abs_eq_zero, abs_value, div_eq_zero_iff, or_iff_left a.weight_pos.ne', isZero, beq_iff_eq,
    Nat.cast_eq_zero]

theorem one_lt_overflowBound : 1 < overflowBound := by
  norm_num [overflowBound, magnitudeBound]

theorem div?_eq_none_iff :
    a.div? b = none ↔ b.isZero ∨ overflowBound ≤ |a.value / b.value| := by
  by_cases nonzero : b.isZero
  · simp [div?, nonzero]
  · by_cases dividend : a.isZero
    · have : ¬ overflowBound ≤ |a.value / b.value| := by
        rw [value_eq_zero_iff.mpr dividend, zero_div, abs_zero, not_le]
        exact one_pos.trans one_lt_overflowBound
      simp [div?, nonzero, dividend, this]
    · rw [← overflows_iff (magnitude_pos (by simpa using nonzero))]
      rcases div?_cases (by simpa using nonzero) (by simpa using dividend) with
        ⟨missing, overflows⟩ | ⟨c, divided, fits, -⟩
      · simp [missing, overflows]
      · simp [divided, fits, nonzero]

/-- The quotient of two decimals is above one exactly if their values' quotient exceeds one by more
than half a unit in the last place and does not overflow. -/
theorem one_lt_div?_iff : (∃ c, a.div? b = some c ∧ one < c) ↔
    1 + 1 / (2 * tenTo 28) < a.value / b.value ∧ a.value / b.value < overflowBound := by
  have above : (0 : ℚ) < 1 + 1 / (2 * tenTo 28) := by positivity
  have never : ¬ (1 + 1 / (2 * tenTo 28) < (0 : ℚ) ∧ (0 : ℚ) < overflowBound) := fun h =>
    lt_asymm above h.1
  by_cases nonzero : b.isZero
  · rw [value_eq_zero_iff.mpr nonzero, div_zero, div?, if_pos nonzero]
    exact iff_of_false (by simp) never
  by_cases dividend : a.isZero
  · rw [value_eq_zero_iff.mpr dividend, zero_div, div?, if_neg nonzero, if_pos dividend]
    exact iff_of_false (by simp; decide) never
  -- A zero on either side has been settled; the rest is about magnitudes.
  simp only [Bool.not_eq_true] at nonzero dividend
  have positive := magnitude_pos nonzero
  rw [a.value_div_eq_abs]
  rcases div?_cases nonzero dividend with ⟨missing, overflows⟩ | ⟨c, divided, fits, order⟩
  · rw [overflows_iff positive] at overflows
    refine iff_of_false (by simp [missing]) fun inside => ?_
    split at inside
    · linarith [abs_nonneg (a.value / b.value), inside.1]
    · linarith [inside.2]
  · rw [overflows_iff positive, not_le] at fits
    rw [exceeds_iff positive] at order
    have value : (∃ c, a.div? b = some c ∧ one < c) ↔ one < c := by simp [divided]
    rw [value, order]
    cases signOf a b with
    | false => simp [fits]
    | true =>
      refine iff_of_false (by simp) fun inside => ?_
      have := inside.1
      rw [if_pos rfl] at this
      linarith [abs_nonneg (a.value / b.value)]

end StrategySearch.Decimal
