import StrategySearch.Text

/-! The tokens of JSON text other than numbers: blanks, strings and words. -/

set_option autoImplicit false

namespace StrategySearch.Json

def isSpace (c : Char) : Bool := c == ' ' || c == '\t' || c == '\n' || c == '\r'

def skipSpace (cs : List Char) : List Char := cs.dropWhile isSpace

def unit? (a b c d : Char) : Option Nat := do
  let high := (← Text.hexValue? a) * 16 + (← Text.hexValue? b)
  let low := (← Text.hexValue? c) * 16 + (← Text.hexValue? d)
  return high * 256 + low

def simpleEscape? : Char → Option Char
  | '"' => some '"'
  | '\\' => some '\\'
  | '/' => some '/'
  | 'b' => some '\x08'
  | 'f' => some '\x0c'
  | 'n' => some '\n'
  | 'r' => some '\r'
  | 't' => some '\t'
  | _ => none

def isHighSurrogate (u : Nat) : Bool := 0xD800 ≤ u && u < 0xDC00
def isLowSurrogate (u : Nat) : Bool := 0xDC00 ≤ u && u < 0xE000

def lowSurrogate? : List Char → Option Nat
  | '\\' :: 'u' :: a :: b :: c :: d :: _ => (unit? a b c d).filter isLowSurrogate
  | _ => none

/-- The text up to the closing quote, and what follows it. The text is missing when an escape
in it stands for half a surrogate pair. -/
def scanString (acc : List Char) (whole : Bool) : List Char → Option (Option String × List Char)
  | [] => none
  | '"' :: rest => some (if whole then some (String.ofList acc.reverse) else none, rest)
  | '\\' :: 'u' :: a :: b :: c :: d :: rest =>
    match unit? a b c d with
    | none => none
    | some u =>
      if isHighSurrogate u then
        match lowSurrogate? rest with
        | some v =>
          scanString (Char.ofNat (0x10000 + (u - 0xD800) * 1024 + (v - 0xDC00)) :: acc) whole
            (rest.drop 6)
        | none => scanString acc false rest
      else if isLowSurrogate u then scanString acc false rest
      else scanString (Char.ofNat u :: acc) whole rest
  | '\\' :: c :: rest =>
    match simpleEscape? c with
    | some e => scanString (e :: acc) whole rest
    | none => none
  | c :: rest => if c.toNat < 0x20 then none else scanString (c :: acc) whole rest
termination_by cs => cs.length

def scanWord (word cs : List Char) : Option (List Char) :=
  if word.isPrefixOf cs then some (cs.drop word.length) else none

end StrategySearch.Json
