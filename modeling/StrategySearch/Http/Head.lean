import StrategySearch.Text

/-! The head of a response: a line with the status, headers, and an empty line. A line ends in a
line feed, and a carriage return in front of it belongs to the end. -/

set_option autoImplicit false

namespace StrategySearch.Http

structure Head where
  status : Nat
  /-- In their order, the names in lower case. -/
  headers : List (String × String)

namespace Head

def isLineByte (b : UInt8) : Bool := b == 9 || (0x20 ≤ b && b != 0x7F)

/-- The first line without its end, and what follows it. The line that is being read is kept from
its end. -/
def line? (line : List Char) : List UInt8 → Option (List Char × List UInt8)
  | [] => none
  | 13 :: 10 :: rest => some (line.reverse, rest)
  | b :: rest =>
    if b = 10 then some (line.reverse, rest)
    else if isLineByte b then line? (Char.ofNat b.toNat :: line) rest
    else none

theorem length_lt_of_line? {acc line : List Char} {bytes rest : List UInt8}
    (h : line? acc bytes = some (line, rest)) : rest.length < bytes.length := by
  fun_induction line? acc bytes with
  | case1 => cases h
  | case2 => cases h; simp only [List.length_cons]; omega
  | case3 => cases h; simp only [List.length_cons]; omega
  | case4 _ _ _ _ _ _ ih => simp only [List.length_cons]; have := ih h; omega
  | case5 => cases h

def isNameChar (c : Char) : Bool := c.isAlphanum || "!#$%&'*+-.^_|~\x60".toList.contains c

def value (cs : List Char) : String :=
  let isPadding (c : Char) : Bool := c == ' ' || c == '\t'
  String.ofList (Text.dropEndWhile isPadding (cs.dropWhile isPadding))

def header? (line : List Char) : Option (String × String) :=
  let name := line.takeWhile isNameChar
  match line.drop name.length with
  | ':' :: rest => if name.isEmpty then none else some (Text.lower (String.ofList name), value rest)
  | _ => none

def status? (line : List Char) : Option Nat :=
  let version := line.take 9
  if version = "HTTP/1.1 ".toList ∨ version = "HTTP/1.0 ".toList then
    let digits := (line.drop 9).take 3
    match line.drop 12 with
    | [] | ' ' :: _ => if digits.length = 3 then Text.natural? digits else none
    | _ => none
  else none

def headers? (bytes : List UInt8) : Option (List (String × String) × List UInt8) :=
  match h : line? [] bytes with
  | none => none
  | some ([], rest) => some ([], rest)
  | some (line, rest) => do
    let header ← header? line
    have := length_lt_of_line? h
    let (headers, rest) ← headers? rest
    return (header :: headers, rest)
termination_by bytes.length

def isInterim (status : Nat) : Bool := 100 ≤ status && status < 200 && status != 101

/-- The first head that is final, and what follows it. Each attempt takes a line at least. -/
def final? : Nat → List UInt8 → Option (Head × List UInt8)
  | 0, _ => none
  | fuel + 1, bytes => do
    let (line, rest) ← line? [] bytes
    if line.isEmpty then final? fuel rest
    else
      let status ← status? line
      let (headers, rest) ← headers? rest
      if isInterim status then final? fuel rest else return (⟨status, headers⟩, rest)

def ofBytes? (bytes : List UInt8) : Option (Head × List UInt8) := final? (bytes.length + 1) bytes

def header (head : Head) (name : String) : Option String := head.headers.lookup name

def all (head : Head) (name : String) : List String :=
  (head.headers.filter (·.1 == name)).map (·.2)

end Head
end StrategySearch.Http
