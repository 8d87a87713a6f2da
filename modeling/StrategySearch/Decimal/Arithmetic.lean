import StrategySearch.Decimal.Basic

/-! Arithmetic on decimals. A result that is too long loses its last digits, rounded half to even;
one whose integral part does not fit has no result. -/

set_option autoImplicit false

namespace StrategySearch.Decimal

def roundHalfEven (n d : Nat) : Nat :=
  let q := n / d
  let r := n % d
  if 2 * r > d || (2 * r == d && q % 2 == 1) then q + 1 else q

/-- The magnitude and scale of `m / 10^s` after dropping the fewest digits that make it fit. -/
def fit? (m s : Nat) : Option (Nat × Nat) :=
  ((List.range (s + 1)).find? fun k =>
    decide (s ≤ k + maxScale) && decide (roundHalfEven m (tenTo k) < magnitudeBound)).map
    fun k => (roundHalfEven m (tenTo k), s - k)

def signOf (a b : Decimal) : Bool := a.negative != b.negative

def isShort (d : Decimal) : Bool := decide (d.magnitude < UInt32.size)

/-- Two short factors whose product lies far below the last representable place give zero. -/
def vanishes (a b : Decimal) : Bool := a.isShort && b.isShort && decide (47 < a.scale + b.scale)

/-- A product that is rounded to zero keeps its sign, unless both factors are short. -/
def mul? (a b : Decimal) : Option Decimal :=
  if a.isZero || b.isZero || vanishes a b then some zero
  else do
    let (m, s) ← fit? (a.magnitude * b.magnitude) (a.scale + b.scale)
    ofParts? (signOf a b && !(a.isShort && b.isShort && m == 0)) m s

def neg (a : Decimal) : Decimal := { a with negative := !a.negative }

def signed (negative : Bool) (m : Nat) : Int := if negative then -(m : Int) else m

def fromExact? (c : Int) (s : Nat) : Option Decimal :=
  (fit? c.natAbs s).bind fun (m, s) => make? (signed (decide (c < 0)) m) s

/-- A zero operand gives the other one unchanged, scale included. -/
def add? (a b : Decimal) : Option Decimal :=
  if a.isZero then some b
  else if b.isZero then some a
  else
    let s := max a.scale b.scale
    fromExact? (a.coefficient * tenTo (s - a.scale) + b.coefficient * tenTo (s - b.scale)) s

def sub? (a b : Decimal) : Option Decimal := add? a b.neg

/-- A quotient under construction: the digits so far, the remainder and the scale, which is
negative while digits of the integral part are missing. -/
structure Quotient where
  digits : Nat
  scale : Int
  /-- The division did not end within the digits first produced. -/
  extended : Bool

/-- Drops the last digit; `sticky` tells of a remainder below it. -/
def shrink? (digits : Nat) (scale : Int) (sticky : Bool) : Option Quotient :=
  if scale < 1 then none
  else
    let last := digits % 10
    let q := digits / 10
    let up := last > 5 || (last == 5 && (sticky || q % 2 == 1))
    some ⟨if up then q + 1 else q, scale - 1, true⟩

/-- The most digits, at most nine, by which the quotient can be extended at once. -/
def room (q : Nat) (scale : Int) : Nat :=
  let limit := min 9 (28 - scale).toNat
  ((List.range (limit + 1)).reverse.find? fun k => decide (q * tenTo k < magnitudeBound)).getD 0

theorem room_le (q : Nat) (scale : Int) : room q scale ≤ (28 - scale).toNat := by
  unfold room
  match h : (List.range (min 9 (28 - scale).toNat + 1)).reverse.find?
      fun k => decide (q * tenTo k < magnitudeBound) with
  | none => simp [h]
  | some k =>
    have := List.mem_of_find?_eq_some h
    simp only [List.mem_reverse, List.mem_range] at this
    simp only [h, Option.getD_some]
    omega

/-- Extends the quotient by up to nine digits at a time until the division ends or no further
digit fits. -/
def divide? (divisor : Nat) (q r : Nat) (scale : Int) (extended : Bool) : Option Quotient :=
  if r = 0 then
    if 0 ≤ scale then some ⟨q, scale, extended⟩
    else
      let k := min 9 (-scale).toNat
      if q * tenTo k ≥ magnitudeBound then none
      else divide? divisor (q * tenTo k) 0 (scale + k) extended
  else
    let k := room q scale
    if k < 9 ∧ scale + k < 0 then none
    else if k = 0 then
      let q := if 2 * r > divisor || (2 * r == divisor && q % 2 == 1) then q + 1 else q
      if q = magnitudeBound then shrink? q scale true else some ⟨q, scale, true⟩
    else
      let next := q * tenTo k + r * tenTo k / divisor
      let rest := r * tenTo k % divisor
      if next ≥ magnitudeBound then shrink? next (scale + k) (rest != 0)
      else divide? divisor next rest (scale + k) true
termination_by (28 - scale).toNat
decreasing_by
  · omega
  · have := room_le q scale
    omega

/-- Removes trailing zeros in groups of eight, four, two and one, as far as the scale allows. -/
def stripZeros (q s : Nat) : Nat × Nat :=
  let rec eights : Nat → Nat → Nat → Nat × Nat
    | 0, q, s => (q, s)
    | fuel + 1, q, s =>
      if q % UInt32.size = 0 ∧ 8 ≤ s ∧ q % tenTo 8 = 0 then eights fuel (q / tenTo 8) (s - 8)
      else (q, s)
  let group (low zeros : Nat) (p : Nat × Nat) : Nat × Nat :=
    if p.1 % low = 0 ∧ zeros ≤ p.2 ∧ p.1 % tenTo zeros = 0 then
      (p.1 / tenTo zeros, p.2 - zeros)
    else p
  group 2 1 (group 4 2 (group 16 4 (eights s q s)))

/-- A quotient that is rounded to zero has no sign. -/
def div? (a b : Decimal) : Option Decimal :=
  if b.isZero then none
  else if a.isZero then some zero
  else do
    let d := b.magnitude
    let quotient ← divide? d (a.magnitude / d) (a.magnitude % d) ((a.scale : Int) - b.scale) false
    let (m, s) := if quotient.extended then stripZeros quotient.digits quotient.scale.toNat
      else (quotient.digits, quotient.scale.toNat)
    make? (signed (signOf a b) m) s

def sum? (ds : List Decimal) : Option Decimal :=
  ds.foldlM add? zero

end StrategySearch.Decimal
