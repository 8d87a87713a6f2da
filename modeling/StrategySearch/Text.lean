/-! Reading raw text: blanks at either end, cuts, ASCII case, unsigned numbers and padded columns.
Every rule works on the list of characters, so a cut never falls inside one. -/

set_option autoImplicit false

namespace StrategySearch.Text

/-- A character with the White_Space property. -/
def isBlank (c : Char) : Bool :=
  let n := c.toNat
  (0x09 ≤ n && n ≤ 0x0D) || n == 0x20 || n == 0x85 || n == 0xA0 || n == 0x1680 ||
    (0x2000 ≤ n && n ≤ 0x200A) || n == 0x2028 || n == 0x2029 || n == 0x202F || n == 0x205F ||
    n == 0x3000

def dropEndWhile (p : Char → Bool) (cs : List Char) : List Char :=
  (cs.reverse.dropWhile p).reverse

def trimmed (cs : List Char) : List Char :=
  dropEndWhile isBlank (cs.dropWhile isBlank)

def trim (s : String) : String := String.ofList (trimmed s.toList)

def isBlankText (s : String) : Bool := s.toList.all isBlank

/-- ASCII letters in lower case, all else unchanged. -/
def lower (s : String) : String := String.ofList (s.toList.map Char.toLower)

/-- Takes over one character after the other while there is room, and marks with an ellipsis that
something is left. -/
def clip : Nat → List Char → List Char
  | _, [] => []
  | 0, _ :: _ => ['…']
  | room + 1, c :: rest => c :: clip room rest

/-- The text without surrounding blanks, cut to its first `limit` characters with an ellipsis
for what is cut off. -/
def abridge (limit : Nat) (s : String) : String := String.ofList (clip limit (trimmed s.toList))

def digitValue (c : Char) : Nat := c.toNat - '0'.toNat

def hexValue? (c : Char) : Option Nat :=
  if c.isDigit then some (digitValue c)
  else if 'a' ≤ c ∧ c ≤ 'f' then some (c.toNat - 'a'.toNat + 10)
  else if 'A' ≤ c ∧ c ≤ 'F' then some (c.toNat - 'A'.toNat + 10)
  else none

def digitsValue (cs : List Char) : Nat :=
  cs.foldl (fun n c => n * 10 + digitValue c) 0

def natural? (cs : List Char) : Option Nat :=
  if !cs.isEmpty && cs.all Char.isDigit then some (digitsValue cs) else none

/-- One or more ASCII digits with at most one plus sign in front, below the bound. -/
def unsigned? (bound : Nat) (s : String) : Option Nat :=
  let cs := match s.toList with
    | '+' :: rest => rest
    | cs => cs
  (natural? cs).filter (· < bound)

def zeroPadded (width n : Nat) : String :=
  let digits := (toString n).toList
  String.ofList (List.replicate (width - digits.length) '0' ++ digits)

def padRight (width : Nat) (s : String) : String :=
  String.ofList (s.toList ++ List.replicate (width - s.toList.length) ' ')

def padLeft (width : Nat) (s : String) : String :=
  String.ofList (List.replicate (width - s.toList.length) ' ' ++ s.toList)

def hasPart (part : List Char) : List Char → Bool
  | [] => part.isEmpty
  | c :: rest => part.isPrefixOf (c :: rest) || hasPart part rest

/-- What stands behind the last separator, which is all where there is none. -/
def behindLast (sep : Char) (cs : List Char) : List Char :=
  (cs.reverse.takeWhile (· != sep)).reverse

/-- The parts between separators: the last part, and all parts before it. -/
def splitOff (sep : Char) (cs : List Char) : List (List Char) :=
  cs.foldr (fun c parts => if c = sep then [] :: parts else match parts with
    | [] => [[c]]
    | part :: rest => (c :: part) :: rest) [[]]

end StrategySearch.Text
