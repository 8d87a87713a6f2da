import StrategySearch.Power

/-! The exact value of a double: sign, integer mantissa and power of two, read from its bits. -/

set_option autoImplicit false

namespace StrategySearch.FloatText

/-- The number `mantissa * 2^exponent`, negated if so marked. -/
structure Dyadic where
  negative : Bool
  mantissa : Nat
  exponent : Int
  deriving DecidableEq, Repr

inductive Value where
  | nan
  | infinite (negative : Bool)
  | finite (value : Dyadic)
  deriving DecidableEq, Repr

def signBit (x : Float) : Bool := x.toBits.toNat / twoTo 63 % 2 == 1
def exponentBits (x : Float) : Nat := x.toBits.toNat / twoTo 52 % twoTo 11
def fractionBits (x : Float) : Nat := x.toBits.toNat % twoTo 52

/-- Subnormal numbers have no hidden bit and share the least exponent. -/
def value (x : Float) : Value :=
  let e := exponentBits x
  let f := fractionBits x
  if e = 2047 then if f = 0 then .infinite (signBit x) else .nan
  else if e = 0 then .finite ⟨signBit x, f, -1074⟩
  else .finite ⟨signBit x, f + twoTo 52, (e : Int) - 1075⟩

namespace Dyadic

def numerator (d : Dyadic) : Nat := d.mantissa * twoTo d.exponent.toNat
def denominator (d : Dyadic) : Nat := twoTo (-d.exponent).toNat

def floor (d : Dyadic) : Int :=
  if d.negative then -((d.numerator + d.denominator - 1) / d.denominator : Nat)
  else (d.numerator / d.denominator : Nat)

def isWhole (d : Dyadic) : Bool := d.numerator % d.denominator == 0

end Dyadic

def whole? (x : Float) : Option Int :=
  match value x with
  | .finite d => if d.isWhole then some d.floor else none
  | _ => none

/-- The integer part below a float, held within the given bounds; nothing counts as zero. -/
def floorWithin (low high : Int) (x : Float) : Int :=
  match value x with
  | .nan => 0
  | .infinite negative => if negative then low else high
  | .finite d => max low (min high d.floor)

def ceilWithin (low high : Int) (x : Float) : Int := -floorWithin (-high) (-low) (-x)

end StrategySearch.FloatText
