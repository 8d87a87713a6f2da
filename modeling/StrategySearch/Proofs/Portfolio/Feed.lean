import StrategySearch.Portfolio.Feed
import StrategySearch.Proofs.Json.Reading
import StrategySearch.Proofs.Portfolio.Faults
import StrategySearch.Proofs.Portfolio.Refusals

/-! Which bodies describe a series, and what can be in the way of its analysis.

A body is accepted exactly if its document lists states that can be decoded and dated, and those are
a well-formed series. The form of the document makes no difference. What is accepted can be analysed
unless a figure does not fit into a decimal.
-/

set_option autoImplicit false

namespace StrategySearch.Feed

/-- The states of a document: it is a list of them, or a record with one such list under its
name. -/
inductive Lists : Json → List Json → Prop where
  | bare {items : List Json} : Lists (.list items) items
  | wrapped {fields : List (String × Json)} {items : List Json} :
      fields.filter (·.1 == "results") = [("results", .list items)] → Lists (.record fields) items

def Holds (body : String) (items : List Json) : Prop :=
  ∃ j, Json.parse? body = some j ∧ j.readable ∧ Lists j items

/-- The snapshot of a state that can be decoded and whose date can be read. -/
def Depicts (item : Json) (s : Snapshot) : Prop :=
  ∃ state, state? item = some state ∧ Instant.ofReport? state.createdAt = some s.instant ∧
    s.equity = state.equity ∧ s.cash = state.cash ∧ s.positions = state.positions

variable {wording : Json.Wording} {j : Json} {body : String} {items : List Json}
  {series : List Snapshot}

theorem listOf?_eq_some_iff {α : Type} {decode : Json → Option α} {as : List α} :
    Json.listOf? decode j = some as ↔
      ∃ items, j = .list items ∧ List.Forall₂ (fun item a => decode item = some a) items as := by
  cases j <;> simp [Json.listOf?, Json.list?, mapM_eq_some_iff]

theorem single?_eq_some_iff {fields : List (String × Json)} {name : String} {value : Json} :
    Json.single? fields name = some (some value) ↔
      fields.filter (·.1 == name) = [(name, value)] := by
  unfold Json.single?
  split
  · next none' => simp [none']
  · next name' value' only =>
    have member : (name', value') ∈ fields.filter (·.1 == name) := by simp [only]
    obtain rfl : name' = name := by simpa using (List.mem_filter.mp member).2
    simp [only]
  · next several =>
    refine iff_of_false nofun fun only => ?_
    exact several _ _ only

theorem states?_eq_some_iff {states : List State} : states? j = some states ↔
    j.readable ∧ ∃ items, Lists j items ∧
      List.Forall₂ (fun item state => state? item = some state) items states := by
  unfold states?
  by_cases readable : j.readable
  · simp only [readable, Bool.not_true, Bool.false_eq_true, if_false, true_and]
    -- A record is read for the one list under its name, anything else as the list itself.
    split
    · next fields =>
      rw [Option.bind_eq_some_iff]
      constructor
      · rintro ⟨value, only, found⟩
        cases value with
        | none => cases found
        | some value =>
          obtain ⟨items, rfl, each⟩ := listOf?_eq_some_iff.mp found
          exact ⟨items, .wrapped (single?_eq_some_iff.mp only), each⟩
      · rintro ⟨items, lists, each⟩
        cases lists with | wrapped only =>
        exact ⟨_, single?_eq_some_iff.mpr only, listOf?_eq_some_iff.mpr ⟨items, rfl, each⟩⟩
    · next notRecord =>
      rw [listOf?_eq_some_iff]
      constructor
      · rintro ⟨items, rfl, each⟩
        exact ⟨items, .bare, each⟩
      · rintro ⟨items, lists, each⟩
        cases lists with
        | bare => exact ⟨items, rfl, each⟩
        | wrapped only => exact absurd rfl (notRecord _)
  · simp [readable]

theorem snapshot_eq_ok_iff {state : State} {s : Snapshot} : state.snapshot = .ok s ↔
    Instant.ofReport? state.createdAt = some s.instant ∧
      s.equity = state.equity ∧ s.cash = state.cash ∧ s.positions = state.positions := by
  unfold State.snapshot
  cases Instant.ofReport? state.createdAt with
  | none => simp
  | some instant => cases s; simp [eq_comm]

theorem parse_eq_ok_iff : parse wording body = .ok series ↔
    ∃ items, Holds body items ∧ List.Forall₂ Depicts items series ∧ Series.WellFormed series := by
  have accepts : parse wording body = .ok series ↔
      ∃ states, Json.decode? states? body = some states ∧
        List.Forall₂ (fun state s => State.snapshot state = .ok s) states series ∧
        Series.WellFormed series := by
    unfold parse
    simp only [bind_eq_ok_iff, mapM_eq_ok_iff, Failure.decode_eq_ok_iff]
    refine exists_congr fun states => and_congr_right fun _ => ?_
    constructor
    · rintro ⟨series', dated, ⟨⟩, valid, same⟩
      cases same
      exact ⟨dated, Series.validateSeries_eq_ok_iff.mp valid⟩
    · rintro ⟨dated, wellFormed⟩
      exact ⟨series, dated, (), Series.validateSeries_eq_ok_iff.mpr wellFormed, rfl⟩
  rw [accepts]
  constructor
  · rintro ⟨states, decoded, dated, wellFormed⟩
    obtain ⟨j, read, found⟩ := Option.bind_eq_some_iff.mp decoded
    obtain ⟨readable, items, lists, each⟩ := states?_eq_some_iff.mp found
    refine ⟨items, ⟨j, read, readable, lists⟩, ?_, wellFormed⟩
    refine (forall₂_trans each dated).imp ?_
    rintro item s ⟨state, found, dated⟩
    exact ⟨state, found, snapshot_eq_ok_iff.mp dated⟩
  · rintro ⟨items, ⟨j, read, readable, lists⟩, each, wellFormed⟩
    obtain ⟨states, found, dated⟩ := forall₂_trans_iff.mpr each
    refine ⟨states, ?_, dated.imp fun _ _ => snapshot_eq_ok_iff.mpr, wellFormed⟩
    exact Option.bind_eq_some_iff.mpr ⟨j, read, states?_eq_some_iff.mpr ⟨readable, items, lists, found⟩⟩

theorem Lists.unique {items' : List Json} (first : Lists j items) (second : Lists j items') :
    items = items' := by
  cases first with
  | bare =>
    cases second with
    | bare => rfl
  | wrapped only =>
    cases second with
    | wrapped only' =>
      cases only.symm.trans only'
      rfl

theorem Holds.unique {items' : List Json} (first : Holds body items)
    (second : Holds body items') : items = items' := by
  obtain ⟨j, read, -, lists⟩ := first
  obtain ⟨j', read', -, lists'⟩ := second
  cases read.symm.trans read'
  exact lists.unique lists'

theorem Holds.parse_eq_ok_iff {body' : String} (first : Holds body items)
    (second : Holds body' items) : parse wording body' = .ok series ↔ parse wording body = .ok series := by
  rw [Feed.parse_eq_ok_iff, Feed.parse_eq_ok_iff]
  constructor
  · rintro ⟨items', holds, described⟩
    cases second.unique holds
    exact ⟨items, first, described⟩
  · rintro ⟨items', holds, described⟩
    cases first.unique holds
    exact ⟨items, second, described⟩

theorem Holds.wrap (read : Json.parse? body = some (.list items))
    (within : Json.Within (Json.maxDepth - 1) (.list items)) :
    Holds (Json.wrap "results" body) items := by
  have plain : ∀ rest, Json.scanString [] true ("results".toList ++ '"' :: rest) =
      some (some "results", rest) := by
    intro rest
    simp [Json.scanString]
  refine ⟨_, Json.parse?_wrap plain within read, ?_, .wrapped rfl⟩
  exact Json.fieldsReadable_iff.mpr (by simpa using within.readable)

/-- What of a series does not fit into a decimal: what was paid for a position that closes, or its
return, or the number of its investments. -/
inductive OutOfRange (series : List Snapshot) : Stop → Prop where
  | entry {h : HoldingInterval} {p : Position} : h.Maximal series →
      h.lastPosition? series = some p → p.Overflows →
      OutOfRange series (.failure (.invalid s!"entry value of {p.symbol} overflows"
        s!"quantity {p.quantity} at average entry price {p.averageEntryPrice}"))
  | total : Analysis.ReturnOverflows series → OutOfRange series .fault
  | count {investments : List Investment} : Investment.reconstruct series = .ok investments →
      2 ^ 64 ≤ investments.length → OutOfRange series .fault

theorem OutOfRange.of_ofSeries {stop : Stop} (wellFormed : Series.WellFormed series)
    (stopped : Analysis.ofSeries series = .error stop) : OutOfRange series stop := by
  cases recovered : Investment.reconstruct series with
  | error cause =>
    rw [Analysis.ofSeries_of_error recovered] at stopped
    cases stopped
    cases Investment.reconstruct_eq_error_iff_refused.mp recovered with
    | offence offends => exact absurd wellFormed (Investment.not_wellFormed_of_offends offends)
    | overflow _ maximal last overflows _ => exact .entry maximal last overflows
  | ok investments =>
    by_cases countable : investments.length < 2 ^ 64
    · obtain ⟨average, ratio, same⟩ := Analysis.ofSeries_of_ok recovered countable
      rcases Analysis.totalReturn?_cases series with ⟨⟨total, fits⟩, -⟩ | ⟨breaks, overflows⟩
      · rw [same, fits] at stopped
        cases stopped
      · rw [same, breaks] at stopped
        cases stopped
        exact .total overflows
    · have ends := Analysis.ofSeries_ends recovered
      rw [stopped] at ends
      obtain rfl : stop = .fault := ends
      exact .count recovered (Nat.not_lt.mp countable)

/-- A body is accepted exactly if its document lists states that can be decoded and dated and are a
well-formed series in their order. Whether the list stands alone or in a record makes no difference,
and an accepted series has an analysis unless something in it does not fit into a decimal. -/
theorem parse_describes (wording : Json.Wording) (body : String) :
    (∀ series, parse wording body = .ok series ↔
      ∃ items, Holds body items ∧ List.Forall₂ Depicts items series ∧ Series.WellFormed series) ∧
    (∀ items body' series, Holds body items → Holds body' items →
      (parse wording body' = .ok series ↔ parse wording body = .ok series)) ∧
    (∀ items series, Json.parse? body = some (.list items) →
      Json.Within (Json.maxDepth - 1) (.list items) →
      (parse wording (Json.wrap "results" body) = .ok series ↔ parse wording body = .ok series)) ∧
    ∀ series stop, parse wording body = .ok series → Analysis.ofSeries series = .error stop →
      OutOfRange series stop := by
  refine ⟨fun series => parse_eq_ok_iff, fun items body' series first second => ?_,
    fun items series read within => ?_, fun series stop accepted stopped => ?_⟩
  · exact first.parse_eq_ok_iff second
  · have bare : Holds body items := ⟨_, read, within.readable, .bare⟩
    exact bare.parse_eq_ok_iff (Holds.wrap read within)
  · obtain ⟨items, -, -, wellFormed⟩ := parse_eq_ok_iff.mp accepted
    exact .of_ofSeries wellFormed stopped

section Zoned

def positionText (symbol number : String) : List String :=
  ["\x7b\"symbol\":\"", symbol, "\",\"quantity\":", number,
    ",\"availableQuantity\":1,\"marketValue\":1", ",\"averageEntryPrice\":", number, "\x7d"]

def stateText (createdAt : String) (positions : List String) : List String :=
  ["\x7b\"createdAt\":\"", createdAt, "\",\"assets\":\x7b\"equityValue\":\"3\"",
    ",\"cash\":\x7b\"mainCurrency\":\"USD\"", ",\"availableAmount\":0,\"buyingPower\":2\x7d",
    ",\"positions\":["] ++ positions ++ ["]\x7d\x7d"]

def positionJson (symbol : String) (number : Int) : Json :=
  .record [("symbol", .text symbol), ("quantity", .integer number),
    ("availableQuantity", .integer 1), ("marketValue", .integer 1),
    ("averageEntryPrice", .integer number)]

def stateJson (createdAt : String) (positions : List Json) : Json :=
  .record [("createdAt", .text createdAt), ("assets", .record [("equityValue", .text "3"),
    ("cash", .record [("mainCurrency", .text "USD"), ("availableAmount", .integer 0),
      ("buyingPower", .integer 2)]), ("positions", .list positions)])]

/-- Two states whose local dates fall. One symbol is held in both, and for another one more was paid
than can be told. -/
def zonedText : List String :=
  "[" :: stateText "2024-03-01T01:00:00+02:00"
      (positionText "A" "1" ++ "," :: positionText "B" "18446744073709551615") ++
    "," :: stateText "2024-02-29T22:30:00-01:00" (positionText "A" "2") ++ ["]"]

def zoned : String := String.join zonedText

def zonedStates : List Json :=
  [stateJson "2024-03-01T01:00:00+02:00"
      [positionJson "A" 1, positionJson "B" 18446744073709551615],
    stateJson "2024-02-29T22:30:00-01:00" [positionJson "A" 2]]

def positionOf (symbol : String) (number : UInt64) : Position :=
  ⟨symbol, .ofUInt64 number, .one, .one, .ofUInt64 number⟩

def zonedSeries : List Snapshot :=
  [⟨{ february with second := 82800, second_lt := by decide }, .ofUInt64 3, cash,
      [positionOf "A" 1, positionOf "B" 18446744073709551615]⟩,
    ⟨{ february with second := 84600, second_lt := by decide }, .ofUInt64 3, cash,
      [positionOf "A" 2]⟩]
where
  february : Instant := .midnight ⟨2024, 2, 29, rfl⟩
  cash : Cash := ⟨"USD", .zero, .ofUInt64 2⟩

set_option maxRecDepth 4000 in
theorem parse?_zoned : Json.parse? zoned = some (.list zonedStates) := by
  have read : Json.readValue (2 * (zonedText.flatMap String.toList).length + 2) Json.maxDepth
      (zonedText.flatMap String.toList) = some (.list zonedStates, []) := by
    cbv
  have text : zoned.toList = zonedText.flatMap String.toList := String.toList_join
  exact Json.parse?_eq_some_iff.mpr ⟨[], text ▸ read, rfl⟩

theorem within_zoned : Json.Within (Json.maxDepth - 1) (.list zonedStates) := by
  simp [Json.maxDepth, zonedStates, stateJson, positionJson]

theorem depicts_zoned : List.Forall₂ Depicts zonedStates zonedSeries := by
  refine .cons ⟨⟨"2024-03-01T01:00:00+02:00", _, _, _⟩, ?_, ?_, rfl, rfl, rfl⟩
    (.cons ⟨⟨"2024-02-29T22:30:00-01:00", _, _, _⟩, ?_, ?_, rfl, rfl, rfl⟩ .nil)
  · cbv
  · cbv
  · cbv
  · cbv

theorem parse_describes_zoned : parse .brief zoned = .ok zonedSeries ∧
    parse .brief (Json.wrap "results" zoned) = .ok zonedSeries ∧
    ∃ stop, Analysis.ofSeries zonedSeries = .error stop ∧ OutOfRange zonedSeries stop := by
  obtain ⟨accepts, -, wraps, stops⟩ := parse_describes .brief zoned
  have wellFormed : Series.WellFormed zonedSeries := Series.validateSeries_eq_ok_iff.mp (by decide)
  have holds : Holds zoned zonedStates := ⟨_, parse?_zoned, within_zoned.readable, .bare⟩
  have accepted := (accepts _).mpr ⟨_, holds, depicts_zoned, wellFormed⟩
  refine ⟨accepted, (wraps _ _ parse?_zoned within_zoned).mpr accepted, ?_⟩
  have refused : (Analysis.ofSeries zonedSeries).toOption.isNone = true := by cbv
  cases analysed : Analysis.ofSeries zonedSeries with
  | ok analysis => rw [analysed] at refused; cases refused
  | error stop => exact ⟨stop, rfl, stops _ _ accepted analysed⟩

end Zoned

end StrategySearch.Feed
