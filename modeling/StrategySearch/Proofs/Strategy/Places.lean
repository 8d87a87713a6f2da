import StrategySearch.Strategy.Bundle

/-!
A bundle seen through its places: the damping, and the named fields of each group. What writing a
field and settling a draft do is said of one place at a time.
-/

set_option autoImplicit false

namespace StrategySearch

/-- What a place holds; the tag is its kind, which never changes. -/
inductive Content (ι ρ : Type) where
  | whole (value : ι)
  | real (value : ρ)

inductive Place where
  | damping
  | field (group : ParameterGroup) (name : String)
  deriving DecidableEq

namespace Content

variable {ι ρ κ σ : Type}

def map (f : ι → κ) (g : ρ → σ) : Content ι ρ → Content κ σ
  | .whole value => .whole (f value)
  | .real value => .real (g value)

def replace (c : Content ι ρ) (j : Json) : Content Json Json :=
  c.map (fun _ => j) (fun _ => j)

theorem replace_map (c : Content ι ρ) (f : ι → κ) (g : ρ → σ) (j : Json) :
    (c.map f g).replace j = c.replace j := by
  cases c <;> rfl

def Settles (c : Content Json Json) (settled : Content Int32 Float) : Prop :=
  c.map Json.int32? Json.float? = settled.map some some

theorem settles_replace_whole {k : Int32} {j : Json} {settled : Content Int32 Float} :
    ((whole k : Content Int32 Float).replace j).Settles settled ↔
      ∃ n, settled = .whole n ∧ j.int32? = some n := by
  cases settled <;> simp [Settles, replace, map]

theorem settles_replace_real {x : Float} {j : Json} {settled : Content Int32 Float} :
    ((real x : Content Int32 Float).replace j).Settles settled ↔
      ∃ y, settled = .real y ∧ j.float? = some y := by
  cases settled <;> simp [Settles, replace, map]

end Content

section Fields

variable {ι ρ : Type}

def BasicOptions.contents (o : BasicOptions ι ρ) : List (String × Content ι ρ) :=
  [("maxStocksBuyCount", .whole o.maxStocksBuyCount),
    ("minDaysDecreasing", .whole o.minDaysDecreasing),
    ("minDaysIncreasing", .whole o.minDaysIncreasing),
    ("topGrowingSymbolsBuyRatio", .real o.topGrowingSymbolsBuyRatio)]

def BuyLosersOptions.contents (o : BuyLosersOptions ι) : List (String × Content ι ρ) :=
  [("evaluationFrequencyInDays", .whole o.evaluationFrequencyInDays),
    ("analysisLengthInDays", .whole o.analysisLengthInDays)]

def BuyWinnersOptions.contents (o : BuyWinnersOptions ι) : List (String × Content ι ρ) :=
  [("evaluationFrequencyInDays", .whole o.evaluationFrequencyInDays),
    ("analysisLengthInDays", .whole o.analysisLengthInDays),
    ("simultaneousEvaluations", .whole o.simultaneousEvaluations),
    ("buyWaitTimeInDays", .whole o.buyWaitTimeInDays)]

def PcaOptions.contents (o : PcaOptions ι ρ) : List (String × Content ι ρ) :=
  [("varianceFraction", .real o.varianceFraction),
    ("analysisLengthInDays", .whole o.analysisLengthInDays),
    ("decompositionExpirationInDays", .whole o.decompositionExpirationInDays),
    ("undervaluedThreshold", .real o.undervaluedThreshold),
    ("ignoredThreshold", .real o.ignoredThreshold),
    ("diverseThreshold", .real o.diverseThreshold)]

def BundleOf.contents (b : BundleOf ι ρ) : ParameterGroup → List (String × Content ι ρ)
  | .basic => b.basic.contents
  | .buyLosers => b.buyLosers.contents
  | .buyWinners => b.buyWinners.contents
  | .pca => b.pca.contents

def BundleOf.at? (b : BundleOf ι ρ) : Place → Option (Content ι ρ)
  | .damping => some (.real b.limitPriceDamping)
  | .field group name => (b.contents group).lookup name

end Fields

/-! ### Named fields -/

theorem lookup_map {α β : Type} (name : String) (f : String → α → β) (fields : List (String × α)) :
    (fields.map fun e => (e.1, f e.1 e.2)).lookup name = (fields.lookup name).map (f name) := by
  induction fields with
  | nil => rfl
  | cons first rest ih =>
    obtain ⟨known, value⟩ := first
    simp only [List.map_cons, List.lookup_cons, ih]
    by_cases same : name = known
    · simp [same]
    · rw [beq_eq_false_iff_ne.mpr same]

def overwrite (name : String) (j : Json) (fields : List (String × Content Json Json)) :
    List (String × Content Json Json) :=
  fields.map fun e => (e.1, if e.1 = name then e.2.replace j else e.2)

theorem lookup_overwrite (name other : String) (j : Json)
    (fields : List (String × Content Json Json)) :
    (overwrite name j fields).lookup other =
      if other = name then (fields.lookup other).map (·.replace j) else fields.lookup other := by
  have pointwise := lookup_map other
    (fun known (c : Content Json Json) => if known = name then c.replace j else c) fields
  rw [overwrite, pointwise]
  split <;> simp

namespace Draft

variable {d written : Draft} {group : ParameterGroup} {name : String} {j : Json}

theorem write?_eq_none :
    d.write? group name j = none ↔ (d.contents group).lookup name = none := by
  cases group <;>
    simp only [write?, Option.map_eq_none_iff, BundleOf.contents, BasicOptions.write?,
      BuyLosersOptions.write?, BuyWinnersOptions.write?, PcaOptions.write?] <;>
    split <;>
    simp_all [BasicOptions.contents, BuyLosersOptions.contents, BuyWinnersOptions.contents,
      PcaOptions.contents]

theorem contents_write? (h : d.write? group name j = some written) (other : ParameterGroup) :
    written.contents other =
      if other = group then overwrite name j (d.contents other) else d.contents other := by
  cases group <;>
    obtain ⟨o, changed, rfl⟩ := Option.map_eq_some_iff.mp h <;>
    cases other <;>
    try rfl
  all_goals
    simp only [BasicOptions.write?, BuyLosersOptions.write?, BuyWinnersOptions.write?,
      PcaOptions.write?] at changed
    split at changed <;> cases changed <;>
      simp [BundleOf.contents, BasicOptions.contents, BuyLosersOptions.contents,
        BuyWinnersOptions.contents, PcaOptions.contents, overwrite, Content.replace, Content.map]

theorem damping_write? (h : d.write? group name j = some written) :
    written.limitPriceDamping = d.limitPriceDamping := by
  cases group <;>
    obtain ⟨o, -, rfl⟩ := Option.map_eq_some_iff.mp h <;>
    rfl

theorem at?_write? (h : d.write? group name j = some written) (place : Place) :
    written.at? place =
      if place = .field group name then (d.at? place).map (·.replace j) else d.at? place := by
  cases place with
  | damping => simp [BundleOf.at?, damping_write? h]
  | field other field =>
    simp only [BundleOf.at?, contents_write? h, Place.field.injEq]
    by_cases same : other = group
    · simp [same, lookup_overwrite]
    · simp [same]

theorem at?_damping (d : Draft) (j : Json) (place : Place) :
    BundleOf.at? { d with limitPriceDamping := j } place =
      if place = .damping then (d.at? place).map (·.replace j) else d.at? place := by
  cases place <;> rfl

end Draft

/-! ### Settling -/

namespace BundleOf

variable {ι ρ κ σ : Type}

theorem at?_map (f : ι → κ) (g : ρ → σ) (b : BundleOf ι ρ) (place : Place) :
    (b.map f g).at? place = (b.at? place).map (Content.map f g) := by
  cases place with
  | damping => rfl
  | field group name =>
    have pointwise : (b.map f g).contents group =
        (b.contents group).map fun e => (e.1, e.2.map f g) := by
      cases group <;> rfl
    rw [at?, at?, pointwise, lookup_map name fun _ => Content.map f g]

theorem at?_of_mem {b : BundleOf ι ρ} {group : ParameterGroup} {e : String × Content ι ρ}
    (mem : e ∈ b.contents group) : b.at? (.field group e.1) = some e.2 := by
  revert e
  cases group <;>
    simp [at?, contents, BasicOptions.contents, BuyLosersOptions.contents,
      BuyWinnersOptions.contents, PcaOptions.contents, List.lookup_cons]

/-- A bundle has nothing beside its places. -/
theorem ext_places {a b : BundleOf ι ρ} (same : ∀ place, a.at? place = b.at? place) : a = b := by
  have damping := same .damping
  have fields (group : ParameterGroup) (e : String × Content ι ρ) (mem : e ∈ a.contents group) :
      b.at? (.field group e.1) = some e.2 := (same _).symm.trans (at?_of_mem mem)
  have basic := fields .basic
  have buyLosers := fields .buyLosers
  have buyWinners := fields .buyWinners
  have pca := fields .pca
  obtain ⟨_, ⟨_, _, _, _⟩, ⟨_, _⟩, ⟨_, _, _, _⟩, ⟨_, _, _, _, _, _⟩⟩ := a
  obtain ⟨_, ⟨_, _, _, _⟩, ⟨_, _⟩, ⟨_, _, _, _⟩, ⟨_, _, _, _, _, _⟩⟩ := b
  simp [at?, contents, BasicOptions.contents, BuyLosersOptions.contents, BuyWinnersOptions.contents,
    PcaOptions.contents, List.lookup_cons] at damping basic buyLosers buyWinners pca
  simp [damping, basic, buyLosers, buyWinners, pca]

theorem map_congr {b : BundleOf ι ρ} {f f' : ι → κ} {g g' : ρ → σ}
    (same : ∀ place c, b.at? place = some c → c.map f g = c.map f' g') : b.map f g = b.map f' g' := by
  have damping := same .damping _ rfl
  have fields (group : ParameterGroup) : ∀ e ∈ b.contents group, e.2.map f g = e.2.map f' g' :=
    fun e mem => same (.field group e.1) e.2 (at?_of_mem mem)
  have basic := fields .basic
  have buyLosers := fields .buyLosers
  have buyWinners := fields .buyWinners
  have pca := fields .pca
  simp [contents, BasicOptions.contents, BuyLosersOptions.contents, BuyWinnersOptions.contents,
    PcaOptions.contents, Content.map] at damping basic buyLosers buyWinners pca
  simp [map, BasicOptions.map, BuyLosersOptions.map, BuyWinnersOptions.map, PcaOptions.map,
    damping, basic, buyLosers, buyWinners, pca]

end BundleOf

namespace Draft

/-- A draft settles just to the bundle that holds, at each place, what its own content settles to. -/
theorem settle?_eq_some {d : Draft} {b : Bundle} :
    d.settle? = some b ↔ d.map Json.int32? Json.float? = b.map some some := by
  obtain ⟨_, ⟨_, _, _, _⟩, ⟨_, _⟩, ⟨_, _, _, _⟩, ⟨_, _, _, _, _, _⟩⟩ := d
  obtain ⟨_, ⟨_, _, _, _⟩, ⟨_, _⟩, ⟨_, _, _, _⟩, ⟨_, _, _, _, _, _⟩⟩ := b
  simp only [settle?, BasicOptions.settle?, BuyLosersOptions.settle?, BuyWinnersOptions.settle?,
    PcaOptions.settle?, BundleOf.map, BasicOptions.map, BuyLosersOptions.map, BuyWinnersOptions.map,
    PcaOptions.map, Option.bind_eq_bind, Option.bind_eq_some_iff, Option.pure_def]
  grind

theorem settles_at? {d : Draft} {b : Bundle} (h : d.settle? = some b) {place : Place}
    {c : Content Json Json} (held : d.at? place = some c) :
    ∃ settled, b.at? place = some settled ∧ c.Settles settled := by
  have places := congrArg (·.at? place) (settle?_eq_some.mp h)
  simp only [BundleOf.at?_map, held, Option.map_some] at places
  obtain ⟨settled, found, settles⟩ := Option.map_eq_some_iff.mp places.symm
  exact ⟨settled, found, settles.symm⟩

theorem absent_of_settle? {d : Draft} {b : Bundle} (h : d.settle? = some b) {place : Place}
    (absent : d.at? place = none) : b.at? place = none := by
  have places := congrArg (·.at? place) (settle?_eq_some.mp h)
  simp only [BundleOf.at?_map, absent, Option.map_none] at places
  exact Option.map_eq_none_iff.mp places.symm

theorem exists_settle? {d : Draft}
    (settles : ∀ place c, d.at? place = some c → ∃ settled, c.Settles settled) :
    ∃ b, d.settle? = some b := by
  let b : Bundle := d.map (fun j => j.int32?.getD 0) (fun j => j.float?.getD 0)
  refine ⟨b, settle?_eq_some.mpr ?_⟩
  have kept : b.map some some =
      d.map (fun j => some (j.int32?.getD 0)) (fun j => some (j.float?.getD 0)) := rfl
  rw [kept]
  refine BundleOf.map_congr fun place c held => ?_
  obtain ⟨settled, h⟩ := settles place c held
  cases c <;> cases settled <;> simp_all [Content.Settles, Content.map]

end Draft

end StrategySearch
