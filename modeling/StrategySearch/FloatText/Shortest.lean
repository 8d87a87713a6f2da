import StrategySearch.FloatText.Exact

/-! The decimal digits of a double: the fewest that read back as the same double, or the digits
down to a given place. All comparisons are between natural numbers. -/

set_option autoImplicit false

namespace StrategySearch.FloatText

/-- The number `digits * 10^exponent`. -/
structure Digits where
  digits : Nat
  exponent : Int
  deriving DecidableEq, Repr

inductive Tie where
  | toEven
  | up
  deriving DecidableEq, Repr

def roundDiv (tie : Tie) (n d : Nat) : Nat :=
  let q := n / d
  let r := n % d
  let up : Bool := match tie with
    | .up => decide (d ≤ 2 * r)
    | .toEven => decide (d < 2 * r) || (2 * r == d && q % 2 == 1)
  if up then q + 1 else q

def scaled (n d : Nat) (place : Int) : Nat × Nat :=
  (n * tenTo (-place).toNat, d * tenTo place.toNat)

def leadingPlace (n d : Nat) : Int :=
  let guess : Int := (Nat.toDigits 10 n).length - (Nat.toDigits 10 d).length
  let (a, b) := scaled n d guess
  if b ≤ a then guess else guess - 1

/-- The reals that round to a double, in quarters of its last place: the lower neighbour of a
power of two is twice as near. -/
structure Basin where
  low : Nat
  high : Nat
  closed : Bool

def basin (d : Dyadic) : Basin :=
  let lower := if d.mantissa = twoTo 52 ∧ -1074 < d.exponent then 1 else 2
  ⟨4 * d.mantissa - lower, 4 * d.mantissa + 2, d.mantissa % 2 == 0⟩

def Basin.holds (b : Basin) (exponent : Int) (c : Digits) : Bool :=
  let unit : Dyadic := ⟨false, 1, exponent - 2⟩
  let left := c.digits * tenTo c.exponent.toNat * unit.denominator
  let right := tenTo (-c.exponent).toNat * unit.numerator
  if b.closed then decide (b.low * right ≤ left) && decide (left ≤ b.high * right)
  else decide (b.low * right < left) && decide (left < b.high * right)

def onGrid (tie : Tie) (d : Dyadic) (place : Int) : Option Digits :=
  let (n, q) := scaled d.numerator d.denominator place
  let near := roundDiv tie n q
  let below := n / q
  let far := if near = below then below + 1 else below
  ([near, far].map (Digits.mk · place)).find? ((basin d).holds d.exponent)

/-- The fewest digits that lie in the basin of a positive double, and of those the nearest. Every
double is found within seventeen digits. -/
def shortest (tie : Tie) (d : Dyadic) : Digits :=
  let lead := leadingPlace d.numerator d.denominator
  (((List.range 17).map fun (k : Nat) => lead - k).findSome? (onGrid tie d)).getD
    ⟨roundDiv tie (scaled d.numerator d.denominator (lead - 17)).1
      (scaled d.numerator d.denominator (lead - 17)).2, lead - 17⟩

def Digits.stripped (c : Digits) : Digits :=
  let zeros := ((Nat.toDigits 10 c.digits).reverse.takeWhile (· == '0')).length
  if c.digits = 0 then c else ⟨c.digits / tenTo zeros, c.exponent + zeros⟩

end StrategySearch.FloatText
