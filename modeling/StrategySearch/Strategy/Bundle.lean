import StrategySearch.Json.Sorted
import StrategySearch.Parameters
import StrategySearch.Strategy.Kind

/-! The parameters of all strategies, as the service stores them. A draft has any document in the
place of a number; it settles when every place holds a number of its kind. -/

set_option autoImplicit false

namespace StrategySearch

structure BasicOptions (ι ρ : Type) where
  maxStocksBuyCount : ι
  minDaysDecreasing : ι
  minDaysIncreasing : ι
  topGrowingSymbolsBuyRatio : ρ
  deriving BEq

structure BuyLosersOptions (ι : Type) where
  evaluationFrequencyInDays : ι
  analysisLengthInDays : ι
  deriving BEq

structure BuyWinnersOptions (ι : Type) where
  evaluationFrequencyInDays : ι
  analysisLengthInDays : ι
  simultaneousEvaluations : ι
  buyWaitTimeInDays : ι
  deriving BEq

structure PcaOptions (ι ρ : Type) where
  varianceFraction : ρ
  analysisLengthInDays : ι
  decompositionExpirationInDays : ι
  undervaluedThreshold : ρ
  ignoredThreshold : ρ
  diverseThreshold : ρ
  deriving BEq

structure BundleOf (ι ρ : Type) where
  limitPriceDamping : ρ
  basic : BasicOptions ι ρ
  buyLosers : BuyLosersOptions ι
  buyWinners : BuyWinnersOptions ι
  pca : PcaOptions ι ρ
  deriving BEq

abbrev Bundle := BundleOf Int32 Float
abbrev Draft := BundleOf Json Json

namespace BasicOptions

def fields (o : BasicOptions Json Json) : List (String × Json) :=
  [("maxStocksBuyCount", o.maxStocksBuyCount), ("minDaysDecreasing", o.minDaysDecreasing),
    ("minDaysIncreasing", o.minDaysIncreasing),
    ("topGrowingSymbolsBuyRatio", o.topGrowingSymbolsBuyRatio)]

def ofJson? (j : Json) : Option (BasicOptions Json Json) := do
  match ← j.members? ["maxStocksBuyCount", "minDaysDecreasing", "minDaysIncreasing",
      "topGrowingSymbolsBuyRatio"] with
  | [some count, some decreasing, some increasing, some ratio] =>
    return ⟨count, decreasing, increasing, ratio⟩
  | _ => none

def write? (o : BasicOptions Json Json) (name : String) (value : Json) :
    Option (BasicOptions Json Json) :=
  match name with
  | "maxStocksBuyCount" => some { o with maxStocksBuyCount := value }
  | "minDaysDecreasing" => some { o with minDaysDecreasing := value }
  | "minDaysIncreasing" => some { o with minDaysIncreasing := value }
  | "topGrowingSymbolsBuyRatio" => some { o with topGrowingSymbolsBuyRatio := value }
  | _ => none

def map {ι ρ κ σ : Type} (f : ι → κ) (g : ρ → σ) (o : BasicOptions ι ρ) : BasicOptions κ σ :=
  ⟨f o.maxStocksBuyCount, f o.minDaysDecreasing, f o.minDaysIncreasing,
    g o.topGrowingSymbolsBuyRatio⟩

def settle? (o : BasicOptions Json Json) : Option (BasicOptions Int32 Float) := do
  return ⟨← o.maxStocksBuyCount.int32?, ← o.minDaysDecreasing.int32?,
    ← o.minDaysIncreasing.int32?, ← o.topGrowingSymbolsBuyRatio.float?⟩

end BasicOptions

namespace BuyLosersOptions

def fields (o : BuyLosersOptions Json) : List (String × Json) :=
  [("evaluationFrequencyInDays", o.evaluationFrequencyInDays),
    ("analysisLengthInDays", o.analysisLengthInDays)]

def ofJson? (j : Json) : Option (BuyLosersOptions Json) := do
  match ← j.members? ["evaluationFrequencyInDays", "analysisLengthInDays"] with
  | [some frequency, some length] => return ⟨frequency, length⟩
  | _ => none

def write? (o : BuyLosersOptions Json) (name : String) (value : Json) :
    Option (BuyLosersOptions Json) :=
  match name with
  | "evaluationFrequencyInDays" => some { o with evaluationFrequencyInDays := value }
  | "analysisLengthInDays" => some { o with analysisLengthInDays := value }
  | _ => none

def map {ι κ : Type} (f : ι → κ) (o : BuyLosersOptions ι) : BuyLosersOptions κ :=
  ⟨f o.evaluationFrequencyInDays, f o.analysisLengthInDays⟩

def settle? (o : BuyLosersOptions Json) : Option (BuyLosersOptions Int32) := do
  return ⟨← o.evaluationFrequencyInDays.int32?, ← o.analysisLengthInDays.int32?⟩

end BuyLosersOptions

namespace BuyWinnersOptions

def fields (o : BuyWinnersOptions Json) : List (String × Json) :=
  [("evaluationFrequencyInDays", o.evaluationFrequencyInDays),
    ("analysisLengthInDays", o.analysisLengthInDays),
    ("simultaneousEvaluations", o.simultaneousEvaluations),
    ("buyWaitTimeInDays", o.buyWaitTimeInDays)]

def ofJson? (j : Json) : Option (BuyWinnersOptions Json) := do
  match ← j.members? ["evaluationFrequencyInDays", "analysisLengthInDays",
      "simultaneousEvaluations", "buyWaitTimeInDays"] with
  | [some frequency, some length, some evaluations, some wait] =>
    return ⟨frequency, length, evaluations, wait⟩
  | _ => none

def write? (o : BuyWinnersOptions Json) (name : String) (value : Json) :
    Option (BuyWinnersOptions Json) :=
  match name with
  | "evaluationFrequencyInDays" => some { o with evaluationFrequencyInDays := value }
  | "analysisLengthInDays" => some { o with analysisLengthInDays := value }
  | "simultaneousEvaluations" => some { o with simultaneousEvaluations := value }
  | "buyWaitTimeInDays" => some { o with buyWaitTimeInDays := value }
  | _ => none

def map {ι κ : Type} (f : ι → κ) (o : BuyWinnersOptions ι) : BuyWinnersOptions κ :=
  ⟨f o.evaluationFrequencyInDays, f o.analysisLengthInDays, f o.simultaneousEvaluations,
    f o.buyWaitTimeInDays⟩

def settle? (o : BuyWinnersOptions Json) : Option (BuyWinnersOptions Int32) := do
  return ⟨← o.evaluationFrequencyInDays.int32?, ← o.analysisLengthInDays.int32?,
    ← o.simultaneousEvaluations.int32?, ← o.buyWaitTimeInDays.int32?⟩

end BuyWinnersOptions

namespace PcaOptions

def fields (o : PcaOptions Json Json) : List (String × Json) :=
  [("varianceFraction", o.varianceFraction), ("analysisLengthInDays", o.analysisLengthInDays),
    ("decompositionExpirationInDays", o.decompositionExpirationInDays),
    ("undervaluedThreshold", o.undervaluedThreshold), ("ignoredThreshold", o.ignoredThreshold),
    ("diverseThreshold", o.diverseThreshold)]

def ofJson? (j : Json) : Option (PcaOptions Json Json) := do
  match ← j.members? ["varianceFraction", "analysisLengthInDays",
      "decompositionExpirationInDays", "undervaluedThreshold", "ignoredThreshold",
      "diverseThreshold"] with
  | [some variance, some length, some expiration, some undervalued, some ignored, some diverse] =>
    return ⟨variance, length, expiration, undervalued, ignored, diverse⟩
  | _ => none

def write? (o : PcaOptions Json Json) (name : String) (value : Json) :
    Option (PcaOptions Json Json) :=
  match name with
  | "varianceFraction" => some { o with varianceFraction := value }
  | "analysisLengthInDays" => some { o with analysisLengthInDays := value }
  | "decompositionExpirationInDays" => some { o with decompositionExpirationInDays := value }
  | "undervaluedThreshold" => some { o with undervaluedThreshold := value }
  | "ignoredThreshold" => some { o with ignoredThreshold := value }
  | "diverseThreshold" => some { o with diverseThreshold := value }
  | _ => none

def map {ι ρ κ σ : Type} (f : ι → κ) (g : ρ → σ) (o : PcaOptions ι ρ) : PcaOptions κ σ :=
  ⟨g o.varianceFraction, f o.analysisLengthInDays, f o.decompositionExpirationInDays,
    g o.undervaluedThreshold, g o.ignoredThreshold, g o.diverseThreshold⟩

def settle? (o : PcaOptions Json Json) : Option (PcaOptions Int32 Float) := do
  return ⟨← o.varianceFraction.float?, ← o.analysisLengthInDays.int32?,
    ← o.decompositionExpirationInDays.int32?, ← o.undervaluedThreshold.float?,
    ← o.ignoredThreshold.float?, ← o.diverseThreshold.float?⟩

end PcaOptions

def dampingName : String := "limitPriceDamping"

namespace BundleOf

def map {ι ρ κ σ : Type} (f : ι → κ) (g : ρ → σ) (b : BundleOf ι ρ) : BundleOf κ σ :=
  ⟨g b.limitPriceDamping, b.basic.map f g, b.buyLosers.map f, b.buyWinners.map f, b.pca.map f g⟩

end BundleOf

namespace Draft

def toJson (d : Draft) : Json :=
  .record [(dampingName, d.limitPriceDamping), (ParameterGroup.basic.name, .record d.basic.fields),
    (ParameterGroup.buyLosers.name, .record d.buyLosers.fields),
    (ParameterGroup.buyWinners.name, .record d.buyWinners.fields),
    (ParameterGroup.pca.name, .record d.pca.fields)]

def ofJson? (j : Json) : Option Draft := do
  match ← j.members? [dampingName, ParameterGroup.basic.name, ParameterGroup.buyLosers.name,
      ParameterGroup.buyWinners.name, ParameterGroup.pca.name] with
  | [some damping, some basic, some buyLosers, some buyWinners, some pca] =>
    return ⟨damping, ← BasicOptions.ofJson? basic, ← BuyLosersOptions.ofJson? buyLosers,
      ← BuyWinnersOptions.ofJson? buyWinners, ← PcaOptions.ofJson? pca⟩
  | _ => none

def write? (d : Draft) (group : ParameterGroup) (name : String) (value : Json) : Option Draft :=
  match group with
  | .basic => (d.basic.write? name value).map fun o => { d with basic := o }
  | .buyLosers => (d.buyLosers.write? name value).map fun o => { d with buyLosers := o }
  | .buyWinners => (d.buyWinners.write? name value).map fun o => { d with buyWinners := o }
  | .pca => (d.pca.write? name value).map fun o => { d with pca := o }

def settle? (d : Draft) : Option Bundle := do
  return ⟨← d.limitPriceDamping.float?, ← d.basic.settle?, ← d.buyLosers.settle?,
    ← d.buyWinners.settle?, ← d.pca.settle?⟩

end Draft

namespace Bundle

def draft (b : Bundle) : Draft := b.map (fun n => .integer n.toInt) Json.ofFloat

def toJson (b : Bundle) : Json := b.draft.toJson

def ofJson? (j : Json) : Option Bundle := (Draft.ofJson? j).bind Draft.settle?

/-- Whole reals of 64 bits go to the service as integers, so that integer fields take them. -/
def integral (value : ParameterValue) : Json :=
  match value with
  | .real x =>
    match (FloatText.whole? x).filter (·.natAbs < 0x8000000000000000) with
    | some n => .integer n
    | none => value.toJson
  | _ => value.toJson

/-- Writes one parameter: the damping, or a field of the group that the strategy owns. -/
def assign (strategy : Strategy) (d : Draft) (name : String) (value : ParameterValue) :
    Except Failure Draft :=
  if name = dampingName then
    match value.float? with
    | none => .error (.invalid s!"{dampingName} must be numeric" value.text)
    | some _ => .ok { d with limitPriceDamping := value.toJson }
  else
    match strategy.group? with
    | none => .error (.invalid s!"strategy '{strategy}' takes no parameters" name)
    | some group =>
      match d.write? group name (integral value) with
      | some d => .ok d
      | none => .error (.invalid s!"unknown parameter for group '{group.name}'" name)

def apply (wording : Json.Wording) (b : Bundle) (strategy : Strategy) (parameters : ParameterSet) :
    Except Failure Bundle := do
  let d ← parameters.entries.foldlM (fun d entry => assign strategy d entry.1 entry.2) b.draft
  match d.settle? with
  | some bundle => return bundle
  | none =>
    let payload := d.toJson.sorted.compact
    let said := wording.refusal "strategy parameters" payload
    .error (.invalid s!"invalid strategy parameters: {said}" payload)

end Bundle
end StrategySearch
