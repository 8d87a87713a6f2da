import StrategySearch.Json.Basic
import StrategySearch.Text

/-! JSON numbers. Integers of 64 bits are exact. Any other number is a double: its leading digits,
as many as fit 64 bits, times or over a power of ten, each rounded to a double first. -/

set_option autoImplicit false

namespace StrategySearch.Json

structure NumberToken where
  negative : Bool
  whole : List Char
  fraction : List Char
  exponent : Option Int

/-- Appends digits while the result fits 64 bits, and counts those left over. -/
def absorb (significand : Nat) : List Char → Nat × Nat
  | [] => (significand, 0)
  | c :: rest =>
    let next := significand * 10 + Text.digitValue c
    if next < UInt64.size then absorb next rest else (significand, rest.length + 1)

def powerOfTen (n : Nat) : Float := Float.ofScientific 1 false n

def scaleByTen (x : Float) (exponent : Int) : Option Float :=
  if 0 ≤ exponent then
    if x == 0.0 then some x
    else if exponent ≤ 308 then
      let y := x * powerOfTen exponent.toNat
      if y.isFinite then some y else none
    else none
  else
    let rec down : Nat → Float → Nat → Float
      | 0, _, _ => 0.0
      | fuel + 1, x, n =>
        if n ≤ 308 then x / powerOfTen n
        else if x == 0.0 then x
        else down fuel (x / powerOfTen 308) (n - 308)
    some (down 8 x (-exponent).toNat)

def NumberToken.toJson (token : NumberToken) : Json :=
  let (whole, excess) := absorb 0 token.whole
  if token.fraction.isEmpty && token.exponent.isNone && excess == 0 then
    if !token.negative then .integer whole
    else if whole = 0 ∨ 0x8000000000000000 < whole then .real (-(Float.ofNat whole))
    else .integer (-(whole : Int))
  else
    let (significand, unused) := absorb whole token.fraction
    let shift : Int := excess - ((token.fraction.length - unused : Nat) : Int)
    match scaleByTen (Float.ofNat significand) (shift + token.exponent.getD 0) with
    | none => .unreadable
    | some x => .real (if token.negative then -x else x)

def scanSign : List Char → Bool × List Char
  | '-' :: rest => (true, rest)
  | cs => (false, cs)

def scanFraction : List Char → Option (List Char × List Char)
  | '.' :: rest =>
    let fraction := rest.takeWhile Char.isDigit
    if fraction.isEmpty then none else some (fraction, rest.dropWhile Char.isDigit)
  | cs => some ([], cs)

def scanDirection : List Char → Bool × List Char
  | '-' :: rest => (true, rest)
  | '+' :: rest => (false, rest)
  | cs => (false, cs)

def scanExponent : List Char → Option (Option Int × List Char)
  | [] => some (none, [])
  | mark :: tail =>
    if mark = 'e' ∨ mark = 'E' then
      let (down, digits) := scanDirection tail
      (Text.natural? (digits.takeWhile Char.isDigit)).map fun n =>
        (some (if down then -(n : Int) else n), digits.dropWhile Char.isDigit)
    else some (none, mark :: tail)

/-- There are no leading zeros. -/
def scanNumber (cs : List Char) : Option (NumberToken × List Char) := do
  let (negative, cs) := scanSign cs
  let whole := cs.takeWhile Char.isDigit
  if whole.isEmpty || (whole.head? == some '0' && 1 < whole.length) then none
  else
    let (fraction, rest) ← scanFraction (cs.dropWhile Char.isDigit)
    let (exponent, rest) ← scanExponent rest
    return (⟨negative, whole, fraction, exponent⟩, rest)

end StrategySearch.Json
