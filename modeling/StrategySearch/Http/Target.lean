import StrategySearch.Text

/-! What a request asks of a host: a path and a query as a request line can hold them. Names that
mean a direction are resolved, a backslash counts as a slash, and what a request line cannot hold is
escaped. -/

set_option autoImplicit false

namespace StrategySearch.Http.Target

def isForeign (c : Char) : Bool :=
  c.toNat ≤ 0x20 || 0x7F ≤ c.toNat || ['"', '<', '>'].contains c

def isForeignInPath (c : Char) : Bool :=
  isForeign c || ['\x60', '\x7b', '\x7d'].contains c

def isForeignInQuery (c : Char) : Bool := isForeign c || c == '\''

def hexByte (b : UInt8) : List Char :=
  '%' :: (Nat.toDigits 16 (b.toNat / 16) ++ Nat.toDigits 16 (b.toNat % 16)).map Char.toUpper

def escape (foreign : Char → Bool) (cs : List Char) : List Char :=
  cs.flatMap fun c =>
    if foreign c then (String.singleton c).toUTF8.data.toList.flatMap hexByte else [c]

def isSlash (c : Char) : Bool := c == '/' || c == '\\'

def segments (cs : List Char) : List (List Char) :=
  Text.splitOff '/' (cs.map fun c => if isSlash c then '/' else c)

/-- A dot may be escaped. -/
def isHere (segment : List Char) : Bool :=
  [".", "%2e"].contains (Text.lower (String.ofList segment))

def isUp (segment : List Char) : Bool :=
  ["..", ".%2e", "%2e.", "%2e%2e"].contains (Text.lower (String.ofList segment))

def isDrive : List Char → Bool
  | [letter, mark] => letter.isAlpha && (mark == ':' || mark == '|')
  | _ => false

/-- One level up, but never out of a drive. The last segment comes first. -/
def climb : List (List Char) → List (List Char)
  | [] => []
  | segment :: outer => if isDrive segment then segment :: outer else outer

/-- The segments without directions, given those before them from the last one on. A direction at
the end leaves an empty segment. -/
def resolve (walked : List (List Char)) : List (List Char) → List (List Char)
  | [] => walked.reverse
  | segment :: rest =>
    let next :=
      if isUp segment then climb walked
      else if isHere segment then walked
      else escape isForeignInPath segment :: walked
    let next := if rest.isEmpty && (isUp segment || isHere segment) then [] :: next else next
    resolve next rest

def path (cs : List Char) : List Char :=
  let cs := match cs with
    | c :: rest => if isSlash c then rest else cs
    | [] => []
  (resolve [] (segments cs)).flatMap ('/' :: ·)

def ofChars (cs : List Char) : String :=
  let body := cs.takeWhile (· != '#')
  let front := body.takeWhile (· != '?')
  String.ofList (path front ++ escape isForeignInQuery (body.drop front.length))

end StrategySearch.Http.Target
