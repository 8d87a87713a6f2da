import StrategySearch.ByName
import StrategySearch.Json.Reader
import StrategySearch.Json.Writer
import StrategySearch.Text.Invisible

/-! Parameter values, sets of them by name, and the text that identifies a set. -/

set_option autoImplicit false

namespace StrategySearch

inductive ParameterValue where
  | integer (value : Int)
  | real (value : Float)
  | category (name : String)
  deriving BEq

namespace ParameterValue

def float? : ParameterValue → Option Float
  | .integer n => some (Float.ofInt n)
  | .real x => some x
  | .category _ => none

def text : ParameterValue → String
  | .integer n => toString n
  | .real x => FloatText.fixed 4 x
  | .category name => name

def toJson : ParameterValue → Json
  | .integer n => .integer n
  | .real x => Json.ofFloat x
  | .category name => .text name

/-- Integers of 64 bits stay integers; every other number is a real. -/
def ofJson? (j : Json) : Option ParameterValue :=
  match j with
  | .text s => some (.category s)
  | _ =>
    match j.integerWithin? Int64.minValue.toInt Int64.maxValue.toInt with
    | some n => some (.integer n)
    | none => j.float?.map .real

end ParameterValue

abbrev ParameterSet := ByName ParameterValue

namespace Signature

def escape (c : Char) : List Char :=
  if c = '"' then ['\\', '"']
  else if c = '\\' then ['\\', '\\']
  else if c = '\t' then ['\\', 't']
  else if c = '\n' then ['\\', 'n']
  else if c = '\r' then ['\\', 'r']
  else if c = '\x00' then ['\\', '0']
  else if Text.isInvisible c then
    ['\\', 'u', '\x7b'] ++ Nat.toDigits 16 c.toNat ++ ['\x7d']
  else [c]

def quoted (s : String) : String := "\"" ++ String.ofList (s.toList.flatMap escape) ++ "\""

def value : ParameterValue → String
  | .integer n => "Integer(" ++ toString n ++ ")"
  | .real x => "Real(" ++ FloatText.tagged.text x ++ ")"
  | .category name => "Categorical(" ++ quoted name ++ ")"

def entry (e : String × ParameterValue) : String := quoted e.1 ++ ": " ++ value e.2

end Signature

namespace ByName

/-- The text by which candidates are told apart: names in order, each with its kind and value. -/
def signature (parameters : ParameterSet) : String :=
  "\x7b" ++ ", ".intercalate (parameters.entries.map Signature.entry) ++ "\x7d"

def toJson {α : Type} (encode : α → Json) (m : ByName α) : Json :=
  .record (m.entries.map fun entry => (entry.1, encode entry.2))

/-- A record of any names; of a repeated name the last value counts. -/
def ofJson? {α : Type} (decode : Json → Option α) (j : Json) : Option (ByName α) := do
  let fields ← j.record?
  return ofList (← fields.mapM fun field => (decode field.2).map fun value => (field.1, value))

end ByName

def ParameterSet.toJson (parameters : ParameterSet) : Json :=
  ByName.toJson ParameterValue.toJson parameters

def ParameterSet.ofJson? (j : Json) : Option ParameterSet := ByName.ofJson? ParameterValue.ofJson? j

end StrategySearch
