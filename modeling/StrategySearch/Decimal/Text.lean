import StrategySearch.Decimal.Arithmetic

/-! Decimal text: the exact digits, a fixed number of places, and reading with at most one point,
digit separators and an optional power of ten. -/

set_option autoImplicit false

namespace StrategySearch.Decimal

def signText (d : Decimal) : String := if d.negative then "-" else ""

def wholeText (d : Decimal) : String := toString (d.magnitude / tenTo d.scale)

def fractionDigits (d : Decimal) : List Char :=
  if d.scale = 0 then [] else (Text.zeroPadded d.scale (d.magnitude % tenTo d.scale)).toList

def text (d : Decimal) : String :=
  let whole := d.signText ++ d.wholeText
  if d.scale = 0 then whole else whole ++ "." ++ String.ofList d.fractionDigits

instance : ToString Decimal := ⟨text⟩

/-- The longest number, point included and sign excluded, that can be written with fixed places. -/
def widthLimit : Nat := 32

/-- Cut, not rounded, to the given places. A number that would be too wide has no such text. -/
def fixed? (places : Nat) (d : Decimal) : Option String :=
  if d.wholeText.length + 1 + places > widthLimit then none
  else
    let whole := d.signText ++ d.wholeText
    if places = 0 then some whole
    else
      let digits := d.fractionDigits.take places
      some (whole ++ "." ++ String.ofList (digits ++ List.replicate (places - digits.length) '0'))

/-- What was read so far: digits, at most one point, and separators once a digit came. -/
structure Scan where
  magnitude : Nat
  places : Option Nat
  started : Bool

def isDigitOrSeparator (c : Char) : Bool := c.isDigit || c == '_'

/-- Rounds up on a first digit that no longer fits; later ones do not count. -/
def roundDigit (m digit places : Nat) : Option (Nat × Nat) :=
  let m := if 5 ≤ digit then m + 1 else m
  if m < magnitudeBound then some (m, places)
  else if places = 0 then none
  else some ((m + 4) / 10, places - 1)

/-- From here on a magnitude is long: another digit might not fit 64 bits. -/
def longMagnitude : Nat := UInt64.size / 10 - UInt8.size + 1

/-- All places are filled, and the digits before the last one are few. What follows a separator
then does not count. -/
def Scan.isClosed (scan : Scan) : Bool :=
  scan.places == some maxScale && decide (scan.magnitude / 10 < longMagnitude)

def digits? (scan : Scan) : List Char → Option (Nat × Nat)
  | [] => if scan.started then some (scan.magnitude, scan.places.getD 0) else none
  | c :: rest =>
    if c = '_' then
      if scan.isClosed then
        if rest.all isDigitOrSeparator then some (scan.magnitude, maxScale) else none
      else if scan.started then digits? scan rest
      else none
    else if c = '.' then
      match scan.places with
      | none => digits? { scan with places := some 0 } rest
      | some _ => none
    else if c.isDigit then
      let m := scan.magnitude * 10 + Text.digitValue c
      match scan.places with
      | none => if m < magnitudeBound then digits? ⟨m, none, true⟩ rest else none
      | some places =>
        if maxScale ≤ places ∨ magnitudeBound ≤ m then
          if rest.all isDigitOrSeparator then
            roundDigit scan.magnitude (Text.digitValue c) places
          else none
        else digits? ⟨m, some (places + 1), true⟩ rest
    else none

def plain? (cs : List Char) : Option Decimal := do
  let (negative, body) := match cs with
    | '-' :: rest => (true, rest)
    | '+' :: rest => (false, rest)
    | _ => (false, cs)
  let (m, s) ← digits? ⟨0, none, false⟩ body
  make? (signed negative m) s

def roundHalfUp (m drop : Nat) : Nat :=
  let unit := tenTo drop
  if unit ≤ 2 * (m % unit) then m / unit + 1 else m / unit

/-- Moves the point by a power of ten. To the left, digits beyond the largest scale are rounded
away and the sign stays; to the right, the scale is used up first and the rest multiplies. -/
def shift? (d : Decimal) (leftward : Bool) (power : Nat) : Option Decimal :=
  if leftward then
    if maxScale < power then none
    else if d.scale + power ≤ maxScale then ofParts? d.negative d.magnitude (d.scale + power)
    else
      let drop := d.scale - (maxScale - power)
      ofParts? d.negative (roundHalfUp d.magnitude drop) maxScale
  else if power ≤ d.scale then ofParts? d.negative d.magnitude (d.scale - power)
  else if maxScale < power then none
  else make? (d.coefficient * tenTo (power - d.scale)) 0

def isExponentMark (c : Char) : Bool := c == 'e' || c == 'E'

def scientific? (cs : List Char) : Option Decimal :=
  match cs.dropWhile (!isExponentMark ·) with
  | [] => none
  | _ :: exponent => do
    let base ← plain? (cs.takeWhile (!isExponentMark ·))
    let (leftward, digits) := match exponent with
      | '-' :: rest => (true, rest)
      | _ => (false, exponent)
    let power ← Text.unsigned? UInt32.size (String.ofList digits)
    base.shift? leftward power

def ofChars? (cs : List Char) : Option Decimal := (plain? cs).orElse fun _ => scientific? cs

def ofString? (s : String) : Option Decimal := ofChars? s.toList

/-- Repeated squaring, so that the rounding of each product is fixed. -/
def floatPower (base : Float) (n : Nat) : Float :=
  let rec go : Nat → Float → Float → Nat → Float
    | 0, _, acc, _ => acc
    | fuel + 1, b, acc, n =>
      let acc := if n % 2 = 1 then acc * b else acc
      if n / 2 = 0 then acc else go fuel (b * b) acc (n / 2)
  go (n + 1) base 1.0 n

def sizeFloat (d : Decimal) : Float :=
  let unit := tenTo d.scale
  let fraction := Float.ofNat (d.magnitude % unit) / Float.ofNat unit
  let whole := Float.ofNat (d.magnitude / unit)
  if fraction == 0.0 then whole
  else
    let scaled := floatPower 10.0 d.scale
    ((whole + fraction) * scaled).round / scaled

def toFloat (d : Decimal) : Float :=
  if d.scale = 0 then Float.ofInt d.coefficient
  else if d.negative then -d.sizeFloat
  else d.sizeFloat

/-- A number without places is converted through a machine integer, which it must fit. -/
def toFloat? (d : Decimal) : Option Float :=
  if d.scale = 0 ∧ twoTo 127 ≤ d.coefficient.natAbs then none else some d.toFloat

theorem toFloat?_eq (d : Decimal) : d.toFloat? = some d.toFloat := by
  have fits : ¬ (d.scale = 0 ∧ twoTo 127 ≤ d.coefficient.natAbs) := by
    have bound := d.magnitude_lt
    have wider : magnitudeBound < twoTo 127 := by decide
    rw [natAbs_coefficient]
    omega
  rw [toFloat?, if_neg fits]

end StrategySearch.Decimal
