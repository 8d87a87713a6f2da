import StrategySearch.Text
import StrategySearch.Power

/-! Job identifiers: numbers of 128 bits, written as 32 hexadecimal digits in five groups. -/

set_option autoImplicit false

namespace StrategySearch

def JobId.bound : Nat := 0x100000000000000000000000000000000

structure JobId where
  number : Nat
  number_lt : number < JobId.bound
  deriving DecidableEq

namespace JobId

def make? (n : Nat) : Option JobId := if h : n < bound then some ⟨n, h⟩ else none

def groups : List Nat := [8, 4, 4, 4, 12]

def hexChar (n : Nat) : Char := "0123456789abcdef".toList.getD n '0'

def digits (id : JobId) : List Char :=
  (List.range 32).map fun i => hexChar (id.number / twoTo (4 * (31 - i)) % 16)

def hyphenate : List Nat → List Char → List Char
  | [], ds => ds
  | [_], ds => ds
  | n :: rest, ds => ds.take n ++ '-' :: hyphenate rest (ds.drop n)

def text (id : JobId) : String := String.ofList (hyphenate groups id.digits)

instance : ToString JobId := ⟨text⟩

def ofDigits? (cs : List Char) : Option JobId :=
  if cs.length = 32 then
    (cs.foldlM (fun n c => (Text.hexValue? c).map (n * 16 + ·)) 0).bind make?
  else none

def ofHyphenated? (cs : List Char) : Option JobId :=
  let parts := Text.splitOff '-' cs
  if parts.map List.length = groups then ofDigits? parts.flatten else none

def urnMark : List Char := "urn:uuid:".toList

def ofChars? (cs : List Char) : Option JobId :=
  if cs.length = 32 then ofDigits? cs
  else if cs.length = 36 then ofHyphenated? cs
  else if cs.length = 38 then
    if cs.head? = some '\x7b' ∧ cs.getLast? = some '\x7d' then
      ofHyphenated? ((cs.drop 1).take 36)
    else none
  else if cs.length = 45 then
    if (cs.take 9).map Char.toLower = urnMark then ofHyphenated? (cs.drop 9) else none
  else none

/-- Bare digits, groups, groups in braces or groups after a name space, between blanks. -/
def ofString? (s : String) : Option JobId := ofChars? (Text.trimmed s.toList)

end JobId
end StrategySearch
