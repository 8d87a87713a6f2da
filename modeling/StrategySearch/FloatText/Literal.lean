import StrategySearch.Text

/-! Reading a number as a double: digits with an optional point and exponent, or the words for
infinity and for no number. The result is the nearest double. -/

set_option autoImplicit false

namespace StrategySearch.FloatText

/-- Exponents beyond this size decide the result whatever the digits are. -/
def exponentLimit : Nat := 100000

def nearest (digits : Nat) (exponent : Int) : Float :=
  let size := (Nat.toDigits 10 digits).length
  if digits = 0 then 0.0
  else if (exponentLimit : Int) < exponent then 1.0 / 0.0
  else if exponent + size < -(exponentLimit : Int) then 0.0
  else if 0 ≤ exponent then Float.ofScientific digits false exponent.toNat
  else Float.ofScientific digits true (-exponent).toNat

structure Literal where
  whole : List Char
  fraction : List Char
  exponent : Int

def Literal.toFloat (l : Literal) : Float :=
  nearest (Text.digitsValue (l.whole ++ l.fraction)) (l.exponent - l.fraction.length)

def integer? (cs : List Char) : Option Int :=
  match cs with
  | '-' :: rest => (Text.natural? rest).map fun n => -(n : Int)
  | '+' :: rest => (Text.natural? rest).map fun n => (n : Int)
  | _ => (Text.natural? cs).map fun n => (n : Int)

/-- At least one digit on either side of an optional point, then an optional exponent. -/
def literal? (cs : List Char) : Option Literal :=
  let whole := cs.takeWhile Char.isDigit
  let rest := cs.dropWhile Char.isDigit
  let (fraction, rest) := match rest with
    | '.' :: tail => (tail.takeWhile Char.isDigit, tail.dropWhile Char.isDigit)
    | _ => ([], rest)
  if whole.isEmpty && fraction.isEmpty then none
  else match rest with
    | [] => some ⟨whole, fraction, 0⟩
    | mark :: tail =>
      if mark = 'e' ∨ mark = 'E' then (integer? tail).map fun e => ⟨whole, fraction, e⟩ else none

def unsigned? (cs : List Char) : Option Float :=
  match String.ofList (cs.map Char.toLower) with
  | "inf" | "infinity" => some (1.0 / 0.0)
  | "nan" => some (0.0 / 0.0)
  | _ => (literal? cs).map Literal.toFloat

def read? (s : String) : Option Float :=
  match s.toList with
  | '-' :: rest => (unsigned? rest).map fun x => -x
  | '+' :: rest => unsigned? rest
  | cs => unsigned? cs

end StrategySearch.FloatText
