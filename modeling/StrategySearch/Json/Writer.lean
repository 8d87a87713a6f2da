import StrategySearch.Json.Basic
import StrategySearch.FloatText.Layout

/-! Writing JSON: on one line without spaces, or with one value a line indented by two spaces. -/

set_option autoImplicit false

namespace StrategySearch.Json

def hexDigit (n : Nat) : Char := (Nat.toDigits 16 n).headD '0'

def escapeChar (c : Char) : List Char :=
  if c = '"' then ['\\', '"']
  else if c = '\\' then ['\\', '\\']
  else if c = '\x08' then ['\\', 'b']
  else if c = '\x0c' then ['\\', 'f']
  else if c = '\n' then ['\\', 'n']
  else if c = '\r' then ['\\', 'r']
  else if c = '\t' then ['\\', 't']
  else if c.toNat < 0x20 then
    ['\\', 'u', '0', '0', hexDigit (c.toNat / 16), hexDigit (c.toNat % 16)]
  else [c]

def quoted (s : String) : String := "\"" ++ String.ofList (s.toList.flatMap escapeChar) ++ "\""

mutual

def compact : Json → String
  | .null => "null"
  | .bool true => "true"
  | .bool false => "false"
  | .integer n => toString n
  | .real x => FloatText.json.text x
  | .text s => quoted s
  | .list items => "[" ++ compactItems items ++ "]"
  | .record fields => "\x7b" ++ compactFields fields ++ "\x7d"
  | .unreadable => "null"

def compactItems : List Json → String
  | [] => ""
  | [item] => item.compact
  | item :: rest => item.compact ++ "," ++ compactItems rest

def compactFields : List (String × Json) → String
  | [] => ""
  | [(name, value)] => quoted name ++ ":" ++ value.compact
  | (name, value) :: rest => quoted name ++ ":" ++ value.compact ++ "," ++ compactFields rest

end

def newline (depth : Nat) : String := "\n" ++ String.ofList (List.replicate (2 * depth) ' ')

mutual

def prettyAt (depth : Nat) : Json → String
  | .list [] => "[]"
  | .record [] => "\x7b\x7d"
  | .list (item :: rest) =>
    "[" ++ newline (depth + 1) ++ prettyItems (depth + 1) (item :: rest) ++ newline depth ++ "]"
  | .record (entry :: rest) =>
    "\x7b" ++ newline (depth + 1) ++ prettyFields (depth + 1) (entry :: rest) ++
      newline depth ++ "\x7d"
  | j => j.compact

def prettyItems (depth : Nat) : List Json → String
  | [] => ""
  | [item] => item.prettyAt depth
  | item :: rest => item.prettyAt depth ++ "," ++ newline depth ++ prettyItems depth rest

def prettyFields (depth : Nat) : List (String × Json) → String
  | [] => ""
  | [(name, value)] => quoted name ++ ": " ++ value.prettyAt depth
  | (name, value) :: rest =>
    quoted name ++ ": " ++ value.prettyAt depth ++ "," ++ newline depth ++ prettyFields depth rest

end

def pretty (j : Json) : String := j.prettyAt 0

end StrategySearch.Json
