/-! JSON values with their fields in written order, and the views that decoding uses.
A token that is well formed but names nothing, such as a number beyond the doubles or a string
with half a surrogate pair, may be skipped but never read. -/

set_option autoImplicit false

namespace StrategySearch

inductive Json where
  | null
  | bool (value : Bool)
  | integer (value : Int)
  | real (value : Float)
  | text (value : String)
  | list (items : List Json)
  | record (fields : List (String × Json))
  | unreadable

namespace Json

instance : Inhabited Json := ⟨null⟩

mutual

def readable : Json → Bool
  | .unreadable => false
  | .list items => allReadable items
  | .record fields => fieldsReadable fields
  | _ => true

def allReadable : List Json → Bool
  | [] => true
  | item :: rest => item.readable && allReadable rest

def fieldsReadable : List (String × Json) → Bool
  | [] => true
  | (_, value) :: rest => value.readable && fieldsReadable rest

end

/-- What is no finite number is null. -/
def ofFloat (x : Float) : Json := if x.isFinite then .real x else .null

def text? : Json → Option String
  | .text s => some s
  | _ => none

def bool? : Json → Option Bool
  | .bool b => some b
  | _ => none

/-- An integer from `low` up to `high`; reals are refused, whole ones too. -/
def integerWithin? (low high : Int) : Json → Option Int
  | .integer n => if low ≤ n ∧ n ≤ high then some n else none
  | _ => none

def int64? (j : Json) : Option Int64 :=
  (j.integerWithin? Int64.minValue.toInt Int64.maxValue.toInt).map Int64.ofInt

def int32? (j : Json) : Option Int32 :=
  (j.integerWithin? Int32.minValue.toInt Int32.maxValue.toInt).map Int32.ofInt

def float? : Json → Option Float
  | .real x => some x
  | .integer n => some (Float.ofInt n)
  | _ => none

def list? : Json → Option (List Json)
  | .list items => some items
  | _ => none

def record? : Json → Option (List (String × Json))
  | .record fields => some fields
  | _ => none

def listOf? {α : Type} (decode : Json → Option α) (j : Json) : Option (List α) :=
  j.list?.bind fun items => items.mapM decode

def field (j : Json) (name : String) : Json :=
  match j with
  | .record fields => (fields.lookup name).getD .null
  | _ => .null

/-- The only value under a name. Nothing if the name is absent, an error if it is repeated. -/
def single? (fields : List (String × Json)) (name : String) : Option (Option Json) :=
  match fields.filter (·.1 == name) with
  | [] => some none
  | [(_, value)] => some (some value)
  | _ => none

/-- The named members of a structure: from a record, in which other names are skipped and a
repeated one is refused, or from a list of the values in their order. -/
def members? (names : List String) : Json → Option (List (Option Json))
  | .record fields => names.mapM (single? fields)
  | .list items =>
    if items.length ≤ names.length then
      some (items.map some ++ List.replicate (names.length - items.length) none)
    else none
  | _ => none

def required? {α : Type} (decode : Json → Option α) : Option Json → Option α
  | some j => decode j
  | none => none

/-- A member with a default; null is no default. -/
def defaulted? {α : Type} (default : α) (decode : Json → Option α) : Option Json → Option α
  | some j => decode j
  | none => some default

def optional? {α : Type} (decode : Json → Option α) : Option Json → Option (Option α)
  | none | some .null => some none
  | some j => (decode j).map some

/-- How a decoder speaks of a text that it refuses: by what the text was read as, and the text. Only
this depends on the decoder. -/
structure Wording where
  refusal : String → String → String

end Json
end StrategySearch
