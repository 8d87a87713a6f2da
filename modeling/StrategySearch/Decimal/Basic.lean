import StrategySearch.Text
import StrategySearch.Power

/-! Decimal amounts: a sign and a magnitude below 2^96 over a power of ten of at most 28. The scale
is kept, so 1.1 and 1.10 are two decimals of one value. The sign is kept too where a negative amount
was rounded to zero: such a zero is written with its sign and equals any other zero in value. -/

set_option autoImplicit false

namespace StrategySearch

def Decimal.magnitudeBound : Nat := 0x1000000000000000000000000

def Decimal.maxScale : Nat := 28

/-- The magnitude, negated if so marked, divided by ten to the scale. -/
structure Decimal where
  negative : Bool
  magnitude : Nat
  scale : Nat
  magnitude_lt : magnitude < Decimal.magnitudeBound
  scale_le : scale ≤ Decimal.maxScale
  deriving DecidableEq

namespace Decimal

/-- The sign is taken as given, on a zero too. -/
def ofParts? (negative : Bool) (magnitude scale : Nat) : Option Decimal :=
  if h : magnitude < magnitudeBound ∧ scale ≤ maxScale then
    some ⟨negative, magnitude, scale, h.1, h.2⟩
  else none

/-- A zero made of an integer has no sign. -/
def make? (coefficient : Int) (scale : Nat) : Option Decimal :=
  ofParts? (decide (coefficient < 0)) coefficient.natAbs scale

def zero : Decimal := ⟨false, 0, 0, by decide, by decide⟩
def one : Decimal := ⟨false, 1, 0, by decide, by decide⟩
def hundred : Decimal := ⟨false, 100, 0, by decide, by decide⟩

instance : Inhabited Decimal := ⟨zero⟩

def ofInt64 (n : Int64) : Decimal :=
  ⟨decide (n.toInt < 0), n.toInt.natAbs, 0,
    by have := n.toInt_lt; have := n.le_toInt; unfold magnitudeBound; omega, by decide⟩

def ofUInt64 (n : UInt64) : Decimal :=
  ⟨false, n.toNat, 0, by have := n.toNat_lt; unfold magnitudeBound; omega, by decide⟩

def isZero (d : Decimal) : Bool := d.magnitude == 0

def coefficient (d : Decimal) : Int := if d.negative then -(d.magnitude : Int) else d.magnitude

theorem natAbs_coefficient (d : Decimal) : d.coefficient.natAbs = d.magnitude := by
  unfold coefficient
  split <;> simp

def compare (a b : Decimal) : Ordering :=
  Ord.compare (a.coefficient * tenTo b.scale) (b.coefficient * tenTo a.scale)

instance : Ord Decimal := ⟨compare⟩
instance : LT Decimal := ⟨fun a b => a.coefficient * tenTo b.scale < b.coefficient * tenTo a.scale⟩
instance : LE Decimal := ⟨fun a b => a.coefficient * tenTo b.scale ≤ b.coefficient * tenTo a.scale⟩
instance (a b : Decimal) : Decidable (a < b) := inferInstanceAs (Decidable (_ < (_ : Int)))
instance (a b : Decimal) : Decidable (a ≤ b) := inferInstanceAs (Decidable (_ ≤ (_ : Int)))

end Decimal
end StrategySearch
