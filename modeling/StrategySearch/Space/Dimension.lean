import StrategySearch.Parameters
import StrategySearch.Random.Source

/-! Dimensions of a search: a range of integers, a range of reals on a linear or a logarithmic
scale, or a list of categories. Each maps to the unit interval and back. -/

set_option autoImplicit false

namespace StrategySearch

inductive Prior where
  | uniform
  | logUniform
  deriving DecidableEq, Repr

inductive Dimension where
  | integer (low high : Int)
  | real (low high : Float) (prior : Prior)
  | categorical (categories : List String)
  deriving BEq

namespace Dimension

def checked (n : Int) : Answer Int :=
  if Int64.minValue.toInt ≤ n ∧ n ≤ Int64.maxValue.toInt then .ok n else .error .fault

/-- The number of integers from low to high; it has to fit 64 bits. -/
def span (low high : Int) : Answer Int := do checked ((← checked (high - low)) + 1)

def clamp (low high x : Float) : Answer Float :=
  if low ≤ high then .ok (if x < low then low else if high < x then high else x)
  else .error .fault

/-- What is no finite number counts as the middle. -/
def toUnitInterval (unit : Float) : Float :=
  if unit.isFinite then (if unit < 0.0 then 0.0 else if 1.0 < unit then 1.0 else unit) else 0.5

def int64Floor (x : Float) : Int :=
  FloatText.floorWithin Int64.minValue.toInt Int64.maxValue.toInt x

def fromUnit (dimension : Dimension) (unit : Float) : Answer ParameterValue :=
  let unit := toUnitInterval unit
  match dimension with
  | .integer low high => do
    let count ← span low high
    let offset := min (int64Floor (unit * Float.ofInt count)) (high - low)
    return .integer (← checked (low + offset))
  | .real low high prior => do
    let x := match prior with
      | .uniform => low + unit * (high - low)
      | .logUniform => (low.log + unit * (high.log - low.log)).exp
    return .real (← clamp low high x)
  | .categorical categories =>
    let index := (FloatText.floorWithin 0 UInt64.size (unit * Float.ofNat categories.length)).toNat
    .ok (.category (categories.getD (min index (categories.length - 1)) ""))

def toUnit (dimension : Dimension) (value : ParameterValue) : Answer (Option Float) :=
  match dimension with
  | .integer low high =>
    match value.float? with
    | none => .ok none
    | some raw =>
      if raw < Float.ofInt low || Float.ofInt high < raw then .ok none
      else do
        let count ← span low high
        return some ((raw - Float.ofInt low + 0.5) / Float.ofInt count)
  | .real low high prior =>
    match value.float? with
    | none => .ok none
    | some raw =>
      if raw < low || high < raw then .ok none
      else .ok <| some <| match prior with
        | .uniform => (raw - low) / (high - low)
        | .logUniform => (raw.log - low.log) / (high.log - low.log)
  | .categorical categories =>
    match value with
    | .category name => .ok <| (categories.findIdx? (· == name)).map fun index =>
        (Float.ofNat index + 0.5) / Float.ofNat categories.length
    | _ => .ok none

/-- The distance of neighbouring values; a range of reals is cut into so many steps. -/
def unitStep (dimension : Dimension) (realSteps : Nat) : Answer Float :=
  match dimension with
  | .integer low high => do return 1.0 / Float.ofInt (← span low high)
  | .real _ _ _ => .ok (1.0 / Float.ofNat (max realSteps 1))
  | .categorical categories => .ok (1.0 / Float.ofNat categories.length)

def sample {γ : Type} [WordSource γ] (dimension : Dimension) : Draw γ ParameterValue := do
  Draw.ofAnswer (dimension.fromUnit (← Draw.unit))

def objection? (name : String) : Dimension → Option String
  | .integer low high =>
    if high < low then some s!"dimension {name} has low ({low}) above high ({high})" else none
  | .real low high prior =>
    if !low.isFinite || !high.isFinite then some s!"dimension {name} must have finite bounds"
    else if high ≤ low then
      let lowText := FloatText.plain.text low
      let highText := FloatText.plain.text high
      some s!"dimension {name} needs low ({lowText}) below high ({highText})"
    else if prior = .logUniform ∧ low ≤ 0.0 then
      some s!"log-uniform dimension {name} needs a positive lower bound"
    else none
  | .categorical categories =>
    if categories.isEmpty then some s!"categorical dimension {name} has no categories" else none

end Dimension

def Prior.name : Prior → String
  | .uniform => "uniform"
  | .logUniform => "log-uniform"

def Prior.ofName? (s : String) : Option Prior :=
  if s = "uniform" then some .uniform else if s = "log-uniform" then some .logUniform else none

/-- A name, or a record of the name with nothing in it. -/
def Prior.ofJson? : Json → Option Prior
  | .text s => ofName? s
  | .record [(s, .null)] | .record [(s, .record [])] => ofName? s
  | _ => none

namespace Dimension

def toJson : Dimension → Json
  | .integer low high =>
    .record [("type", .text "integer"), ("low", .integer low), ("high", .integer high)]
  | .real low high prior =>
    .record [("type", .text "real"), ("low", .real low), ("high", .real high),
      ("prior", .text prior.name)]
  | .categorical categories =>
    .record [("type", .text "categorical"), ("categories", .list (categories.map Json.text))]

def int64? (j : Json) : Option Int := j.integerWithin? Int64.minValue.toInt Int64.maxValue.toInt

def ofBody? (type : String) (body : Json) : Option Dimension :=
  if type = "integer" then do
    match ← body.members? ["low", "high"] with
    | [low, high] => return .integer (← Json.required? int64? low) (← Json.required? int64? high)
    | _ => none
  else if type = "real" then do
    match ← body.members? ["low", "high", "prior"] with
    | [low, high, prior] =>
      return .real (← Json.required? Json.float? low) (← Json.required? Json.float? high)
        (← Json.defaulted? .uniform Prior.ofJson? prior)
    | _ => none
  else if type = "categorical" then do
    match ← body.members? ["categories"] with
    | [categories] => return .categorical (← Json.required? (Json.listOf? Json.text?) categories)
    | _ => none
  else none

/-- A record in which one member names the type, or a list that starts with it. The whole of it is
read before the type is known, so no part may be unreadable. -/
def ofJson? (j : Json) : Option Dimension :=
  if !j.readable then none
  else match j with
    | .record fields => do
      let type ← Json.required? Json.text? (← Json.single? fields "type")
      ofBody? type (.record (fields.filter (·.1 != "type")))
    | .list (type :: rest) => type.text?.bind fun type => ofBody? type (.list rest)
    | _ => none

end Dimension
end StrategySearch
