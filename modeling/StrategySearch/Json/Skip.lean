import StrategySearch.Json.Number
import StrategySearch.Json.Token

/-! Passing over a value of JSON text without building it. The brackets that are open are kept in
a list, so that any depth is passed. -/

set_option autoImplicit false

namespace StrategySearch.Json

inductive Bracket where
  | list
  | record
  deriving DecidableEq, Repr

def Bracket.closing : Bracket → Char
  | .list => ']'
  | .record => '\x7d'

inductive Expected where
  | value
  /-- A value, or the end of an empty list. -/
  | item
  /-- The name and the colon in front of a field. -/
  | name
  /-- The same, or the end of an empty record. -/
  | entry
  /-- What follows a value inside the innermost bracket. -/
  | rest
  deriving DecidableEq, Repr

def Bracket.next : Bracket → Expected
  | .list => .value
  | .record => .name

def skipScalar : List Char → Option (List Char)
  | '"' :: rest => (scanString [] true rest).map (·.2)
  | 'n' :: rest => scanWord ['u', 'l', 'l'] rest
  | 't' :: rest => scanWord ['r', 'u', 'e'] rest
  | 'f' :: rest => scanWord ['a', 'l', 's', 'e'] rest
  | cs => (scanNumber cs).map (·.2)

def skipName : List Char → Option (List Char)
  | '"' :: rest => do
    match skipSpace (← scanString [] true rest).2 with
    | ':' :: rest => some rest
    | _ => none
  | _ => none

/-- What follows the outermost bracket, the innermost one being the first of the list. Each step
takes a character at least, so the length of the text is enough for the number. -/
def skip : Nat → Expected → List Bracket → List Char → Option (List Char)
  | 0, _, _, _ => none
  | _, _, [], cs => some cs
  | fuel + 1, expected, bracket :: outer, cs =>
    match expected, skipSpace cs with
    | .item, ']' :: rest => skip fuel .rest outer rest
    | .entry, '\x7d' :: rest => skip fuel .rest outer rest
    | .item, '[' :: rest => skip fuel .item (.list :: bracket :: outer) rest
    | .value, '[' :: rest => skip fuel .item (.list :: bracket :: outer) rest
    | .item, '\x7b' :: rest => skip fuel .entry (.record :: bracket :: outer) rest
    | .value, '\x7b' :: rest => skip fuel .entry (.record :: bracket :: outer) rest
    | .item, cs | .value, cs =>
      match skipScalar cs with
      | some rest => skip fuel .rest (bracket :: outer) rest
      | none => none
    | .entry, cs | .name, cs =>
      match skipName cs with
      | some rest => skip fuel .value (bracket :: outer) rest
      | none => none
    | .rest, c :: rest =>
      if c = ',' then skip fuel bracket.next (bracket :: outer) rest
      else if c = bracket.closing then skip fuel .rest outer rest
      else none
    | .rest, [] => none

end StrategySearch.Json
