import StrategySearch.FloatText.Shortest
import StrategySearch.Text

/-! How chosen digits are laid out. A layout says when positional digits are used, what a whole
number ends in, and how the exponent and the values that are no numbers are written. -/

set_option autoImplicit false

namespace StrategySearch.FloatText

structure Layout where
  tie : Tie
  /-- The places of the leading digit that are written positionally. -/
  positional : Int → Bool
  wholeEnd : String
  plus : String
  exponentWidth : Nat
  nan : String
  infinite : String
  negativeInfinite : String

def positionalText (wholeEnd : String) (c : Digits) : String :=
  let ds := Nat.toDigits 10 c.digits
  if 0 ≤ c.exponent then
    String.ofList (ds ++ List.replicate c.exponent.toNat '0') ++ wholeEnd
  else
    let places := (-c.exponent).toNat
    let padded := List.replicate (places + 1 - ds.length) '0' ++ ds
    let whole := padded.take (padded.length - places)
    String.ofList (whole ++ '.' :: padded.drop (padded.length - places))

def exponentText (plus : String) (width : Nat) (c : Digits) : String :=
  let ds := Nat.toDigits 10 c.digits
  let e := c.exponent + ds.length - 1
  let mantissa := match ds with
    | [] => ""
    | [d] => String.ofList [d]
    | d :: rest => String.ofList (d :: '.' :: rest)
  mantissa ++ "e" ++ (if e < 0 then "-" else plus) ++ Text.zeroPadded width e.natAbs

def Layout.text (layout : Layout) (x : Float) : String :=
  match value x with
  | .nan => layout.nan
  | .infinite negative => if negative then layout.negativeInfinite else layout.infinite
  | .finite d =>
    let sign := if d.negative then "-" else ""
    if d.mantissa = 0 then sign ++ "0" ++ layout.wholeEnd
    else
      let c := (shortest layout.tie d).stripped
      let lead := c.exponent + (Nat.toDigits 10 c.digits).length - 1
      sign ++ (if layout.positional lead then positionalText layout.wholeEnd c
        else exponentText layout.plus layout.exponentWidth c)

/-- Shortest digits, never an exponent, nothing after a whole number. -/
def plain : Layout where
  tie := .up
  positional := fun _ => true
  wholeEnd := ""
  plus := ""
  exponentWidth := 1
  nan := "NaN"
  infinite := "inf"
  negativeInfinite := "-inf"

/-- Shortest digits that tell a real from an integer; exponents outside 10^-4 to 10^16. -/
def tagged : Layout :=
  { plain with
    positional := fun lead => decide (-4 ≤ lead) && decide (lead < 16)
    wholeEnd := ".0" }

/-- The number format of JSON; exponents outside 10^-5 to 10^16. What is no number is null. -/
def json : Layout where
  tie := .toEven
  positional := fun lead => decide (-5 ≤ lead) && decide (lead < 16)
  wholeEnd := ".0"
  plus := "+"
  exponentWidth := 1
  nan := "null"
  infinite := "null"
  negativeInfinite := "null"

/-- The exact value rounded half to even to a fixed number of places. -/
def fixed (places : Nat) (x : Float) : String :=
  match value x with
  | .nan => plain.nan
  | .infinite negative => if negative then plain.negativeInfinite else plain.infinite
  | .finite d =>
    let (n, q) := scaled d.numerator d.denominator (-(places : Int))
    (if d.negative then "-" else "") ++ positionalText "" ⟨roundDiv .toEven n q, -(places : Int)⟩

def scientific (places : Nat) (x : Float) : String :=
  match value x with
  | .nan => plain.nan
  | .infinite negative => if negative then plain.negativeInfinite else plain.infinite
  | .finite d =>
    let sign := if d.negative then "-" else ""
    if d.mantissa = 0 then
      sign ++ "0." ++ String.ofList (List.replicate places '0') ++ "e0"
    else
      let lead := leadingPlace d.numerator d.denominator
      let place := lead - places
      let (n, q) := scaled d.numerator d.denominator place
      let rounded := roundDiv .toEven n q
      let c : Digits := if rounded = tenTo (places + 1) then ⟨rounded / 10, place + 1⟩
        else ⟨rounded, place⟩
      sign ++ exponentText "" 1 c

end StrategySearch.FloatText
