import Mathlib
import StrategySearch.Portfolio.Investment
import StrategySearch.Proofs.Pointwise
import StrategySearch.Proofs.Portfolio.Closings

/-! Investments and holding intervals.

Reconstruction only looks at neighbouring snapshots, sorts what changed and pairs it. What it finds
is stated here without any of this: one investment for each maximal holding interval of the series,
with the dates and values of that interval, and no other.
-/

set_option autoImplicit false

namespace StrategySearch

/-- A symbol with the first and the last of the snapshots that hold it without a break. -/
structure HoldingInterval where
  symbol : String
  first : Nat
  last : Nat
  deriving DecidableEq

def Series.placeAt (series : List Snapshot) (i : Nat) (symbol : String) : Nat :=
  (series[i]?.elim [] fun s => s.positions.map (·.symbol)).idxOf symbol

namespace HoldingInterval

/-- Held throughout, and neither just before nor just after. -/
structure Maximal (series : List Snapshot) (h : HoldingInterval) : Prop where
  ordered : h.first ≤ h.last
  held : ∀ i, h.first ≤ i → i ≤ h.last → Series.heldAt series h.symbol i
  notBefore : ∀ i, i + 1 = h.first → ¬ Series.heldAt series h.symbol i
  notAfter : ¬ Series.heldAt series h.symbol (h.last + 1)

/-- The snapshot at whose instant the interval opens: the one before it, if there is one. -/
def openIndex (h : HoldingInterval) : Nat := if h.first = 0 then 0 else h.first - 1

/-- The dates are those of the interval, the values those of the position in its last snapshot. -/
structure Yields (series : List Snapshot) (h : HoldingInterval) (i : Investment) : Prop where
  symbol : i.symbol = h.symbol
  opened : series[h.openIndex]?.map (·.instant) = some i.opened
  closed : series[h.last]?.map (·.instant) = some i.closed
  values : ∃ p, series[h.last]?.bind (·.position? h.symbol) = some p ∧
    p.averageEntryPrice.mul? p.quantity = some i.entryValue ∧ p.marketValue = i.exitValue

def lastPosition? (series : List Snapshot) (h : HoldingInterval) : Option Position :=
  series[h.last]?.bind (·.position? h.symbol)

/-- Close order: by the snapshot in which the symbol was last held, then by its place there. -/
def ClosesBefore (series : List Snapshot) (h h' : HoldingInterval) : Prop :=
  h.last < h'.last ∨ h.last = h'.last ∧
    Series.placeAt series h.last h.symbol < Series.placeAt series h'.last h'.symbol

theorem not_closesBefore_self {series : List Snapshot} {h : HoldingInterval} :
    ¬ h.ClosesBefore series h := by
  simp [ClosesBefore]

theorem ClosesBefore.asymm {series : List Snapshot} {h h' : HoldingInterval}
    (before : h.ClosesBefore series h') : ¬ h'.ClosesBefore series h := by
  unfold ClosesBefore at *
  omega

end HoldingInterval

def Closing.interval (series : List Snapshot) (c : Closing) : HoldingInterval :=
  ⟨c.position.symbol, Series.runStart series c.position.symbol c.index, c.index⟩

namespace Series

variable {series : List Snapshot}

theorem mem_closings_iff {c : Closing} : c ∈ closings series ↔
    (∃ s, series[c.index]? = some s ∧ c.position ∈ s.positions) ∧
      ¬ heldAt series c.position.symbol (c.index + 1) := by
  obtain ⟨index, position⟩ := c
  simp only [closings, closingsFrom, closingAt, List.mem_flatMap, List.mem_range'_1,
    List.mem_map, List.mem_filter, Closing.mk.injEq, Nat.zero_le, Nat.zero_add, true_and,
    Bool.not_eq_true', Bool.not_eq_true]
  constructor
  · rintro ⟨i, bound, p, ⟨member, free⟩, rfl, rfl⟩
    rw [List.getElem?_eq_getElem bound] at member ⊢
    exact ⟨⟨_, rfl, member⟩, free⟩
  · rintro ⟨⟨s, entry, member⟩, free⟩
    refine ⟨index, (List.getElem?_eq_some_iff.mp entry).1, position, ⟨?_, free⟩, rfl, rfl⟩
    simpa [entry] using member

theorem pairwise_idxOf {α : Type} [DecidableEq α] {as : List α} (unique : as.Nodup) :
    as.Pairwise fun a b => as.idxOf a < as.idxOf b := by
  refine List.pairwise_iff_getElem.mpr fun i j left right earlier => ?_
  rwa [unique.idxOf_getElem i left, unique.idxOf_getElem j right]

theorem placeAt_of_getElem? {s : Snapshot} {i : Nat} (entry : series[i]? = some s)
    (symbol : String) :
    placeAt series i symbol = (s.positions.map (·.symbol)).idxOf symbol := by
  simp [placeAt, entry]

theorem closings_pairwise (wellFormed : WellFormed series) :
    (closings series).Pairwise fun a b =>
      (a.interval series).ClosesBefore series (b.interval series) := by
  refine List.pairwise_flatMap.mpr ⟨fun i _ => ?_, ?_⟩
  · rw [List.pairwise_map]
    cases entry : series[i]? with
    | none => simp [closingAt, entry]
    | some s =>
      simp only [closingAt, entry, Option.elim]
      have places := List.pairwise_map.mp (pairwise_idxOf (wellFormed.unique_at entry))
      refine (places.sublist List.filter_sublist).imp fun earlier => .inr ⟨rfl, ?_⟩
      simpa only [Closing.interval, placeAt_of_getElem? entry] using earlier
  · refine List.Pairwise.imp (fun lt a first b second => ?_) List.pairwise_lt_range'
    obtain ⟨_, _, rfl⟩ := List.mem_map.mp first
    obtain ⟨_, _, rfl⟩ := List.mem_map.mp second
    exact .inl lt

theorem intervals_pairwise (wellFormed : WellFormed series) :
    ((closings series).map (Closing.interval series)).Pairwise
      (HoldingInterval.ClosesBefore series) :=
  List.pairwise_map.mpr (closings_pairwise wellFormed)

theorem intervals_nodup (wellFormed : WellFormed series) :
    ((closings series).map (Closing.interval series)).Nodup := by
  refine (intervals_pairwise wellFormed).imp fun earlier same => ?_
  exact HoldingInterval.not_closesBefore_self (same ▸ earlier)

theorem mem_intervals_iff {h : HoldingInterval} :
    h ∈ (closings series).map (Closing.interval series) ↔ h.Maximal series := by
  rw [List.mem_map]
  constructor
  · rintro ⟨c, member, rfl⟩
    obtain ⟨⟨s, entry, there⟩, free⟩ := mem_closings_iff.mp member
    have last := (mem_positions_iff_heldAt entry).mp (List.mem_map_of_mem there)
    exact ⟨runStart_le _ _ c.index, fun i start stop => heldAt_of_runStart_le last start stop,
      fun i before => not_heldAt_before_runStart before, free⟩
  · intro maximal
    have last := maximal.held h.last maximal.ordered (Nat.le_refl _)
    obtain ⟨s, entry, holds⟩ := heldAt_iff.mp last
    obtain ⟨p, there, symbol⟩ := List.mem_map.mp (Snapshot.holds_iff.mp holds)
    refine ⟨⟨h.last, p⟩, mem_closings_iff.mpr ⟨⟨s, entry, there⟩, ?_⟩, ?_⟩
    · exact symbol ▸ maximal.notAfter
    · simp only [Closing.interval, symbol,
        runStart_eq maximal.ordered maximal.held maximal.notBefore]

theorem lastPosition?_interval {c : Closing} (wellFormed : WellFormed series)
    (member : c ∈ closings series) :
    (c.interval series).lastPosition? series = some c.position := by
  obtain ⟨⟨s, entry, there⟩, -⟩ := mem_closings_iff.mp member
  have found := Snapshot.position?_of_mem (wellFormed.unique_at entry) there
  simp [HoldingInterval.lastPosition?, Closing.interval, entry, found]

/-- A position that closes is found again where it was held last, so that nothing is missing when it
is priced. -/
theorem ofHolding_of_ends {c : Closing} {h : Holding} (wellFormed : WellFormed series)
    (member : c ∈ closings series) (ends : Ends series c h) :
    Investment.ofHolding series h = Investment.ofPosition h c.position := by
  obtain ⟨s, -, closed⟩ := ends.closed
  have found : series[h.closed.index]?.bind (·.position? h.closed.symbol) = some c.position := by
    rw [closed]
    exact lastPosition?_interval wellFormed member
  simp only [Investment.ofHolding, found]

theorem yields_of_ends {c : Closing} {h : Holding} {i : Investment}
    (wellFormed : WellFormed series) (member : c ∈ closings series)
    (ends : Ends series c h) (made : Investment.ofHolding series h = .ok i) :
    (c.interval series).Yields series i := by
  rw [ofHolding_of_ends wellFormed member ends] at made
  obtain ⟨⟨s, entry, closed⟩, opened⟩ := ends
  cases value : c.position.entryValue? with
  | none => simp [Investment.ofPosition, value] at made
  | some entryValue =>
    simp only [Investment.ofPosition, value, closed] at made
    obtain rfl := Except.ok.inj made
    refine ⟨rfl, ?_, by simp [Closing.interval, PositionEvent.of, entry], c.position,
      lastPosition?_interval wellFormed member, value, rfl⟩
    rw [← opened]
    by_cases start : runStart series c.position.symbol c.index = 0 <;>
      simp [HoldingInterval.openIndex, openedAt, Closing.interval, start]

end Series

namespace HoldingInterval

variable {series : List Snapshot} {h : HoldingInterval} {i : Investment}

theorem openIndex_le (ordered : h.first ≤ h.last) : h.openIndex ≤ h.last := by
  unfold openIndex
  split <;> omega

theorem openIndex_eq_last_iff (ordered : h.first ≤ h.last) :
    h.openIndex = h.last ↔ h.first = 0 ∧ h.last = 0 := by
  unfold openIndex
  split <;> omega

/-- Nothing closes before it opened, and only what a single first snapshot holds closes at once. -/
theorem Yields.opened_le_closed (wellFormed : Series.WellFormed series)
    (ordered : h.first ≤ h.last) (yields : h.Yields series i) :
    i.opened ≤ i.closed ∧ (i.opened = i.closed ↔ h.first = 0 ∧ h.last = 0) := by
  obtain ⟨s, entry, opened⟩ := Option.map_eq_some_iff.mp yields.opened
  obtain ⟨t, entry', closed⟩ := Option.map_eq_some_iff.mp yields.closed
  rw [← openIndex_eq_last_iff ordered, ← opened, ← closed]
  rcases Nat.lt_or_eq_of_le (openIndex_le ordered) with earlier | same
  · have lt := wellFormed.instant_lt entry entry' earlier
    refine ⟨Instant.le_of_lt lt, fun equal => ?_, fun equal => absurd equal (by omega)⟩
    exact absurd (equal ▸ lt) (Instant.lt_irrefl _)
  · obtain rfl : s = t := Option.some.inj ((same ▸ entry).symm.trans entry')
    exact ⟨Instant.le_refl _, fun _ => same, fun _ => rfl⟩

end HoldingInterval

namespace Investment

variable {series : List Snapshot} {investments : List Investment}

theorem inCloseOrder_eq (wellFormed : Series.WellFormed series) :
    ∃ holdings, inCloseOrder series = holdings.mapM (ofHolding series) ∧
      List.Forall₂ (Series.Ends series) (Series.closings series) holdings := by
  obtain ⟨holdings, paired, ends⟩ := Series.pair_ofSeries wellFormed
  refine ⟨holdings, ?_, ends⟩
  simp only [inCloseOrder, Series.validateSeries_eq_ok_iff.mpr wellFormed, paired]
  rfl

theorem wellFormed_of_inCloseOrder (ok : inCloseOrder series = .ok investments) :
    Series.WellFormed series := by
  cases valid : Snapshot.validateSeries series with
  | error cause => simp [inCloseOrder, valid, bind, Except.bind] at ok
  | ok => exact Series.validateSeries_eq_ok_iff.mp valid

theorem yields_inCloseOrder (ok : inCloseOrder series = .ok investments) :
    List.Forall₂ (fun h i => h.Yields series i)
      ((Series.closings series).map (Closing.interval series)) investments := by
  have wellFormed := wellFormed_of_inCloseOrder ok
  obtain ⟨holdings, same, ends⟩ := inCloseOrder_eq wellFormed
  have made := mapM_eq_ok_iff.mp (same ▸ ok)
  have closes := (List.forall₂_and_left (Series.closings series) holdings).mpr
    ⟨fun c member => member, ends⟩
  refine List.forall₂_map_left_iff.mpr ((forall₂_trans closes made).imp ?_)
  rintro c i ⟨h, ⟨member, ends⟩, made⟩
  exact Series.yields_of_ends wellFormed member ends made

/-- The investments of a series are in one-to-one correspondence with its maximal holding
intervals. -/
theorem reconstruct_intervals (ok : reconstruct series = .ok investments) :
    ∃ intervals : List HoldingInterval, intervals.Nodup ∧
      (∀ h, h ∈ intervals ↔ h.Maximal series) ∧
      List.Forall₂ (fun h i => h.Yields series i ∧ i.opened ≤ i.closed ∧
        (i.opened = i.closed ↔ h.first = 0 ∧ h.last = 0)) intervals investments := by
  cases close : inCloseOrder series with
  | error cause => simp [reconstruct, close, Except.map] at ok
  | ok closed =>
    have sorted : closed.mergeSort precedes = investments := by
      simpa [reconstruct, close, Except.map] using ok
    have wellFormed := wellFormed_of_inCloseOrder close
    -- Sorting rearranges the investments, and the intervals go along with them.
    obtain ⟨intervals, same, yields⟩ : (Relation.Comp List.Perm (List.Forall₂ _))
        ((Series.closings series).map (Closing.interval series)) investments := by
      rw [← List.forall₂_comp_perm_eq_perm_comp_forall₂]
      exact ⟨closed, yields_inCloseOrder close, sorted ▸ (List.mergeSort_perm _ _).symm⟩
    have members : ∀ h, h ∈ intervals ↔ h.Maximal series := fun h => by
      rw [← same.mem_iff, Series.mem_intervals_iff]
    refine ⟨intervals, same.nodup_iff.mp (Series.intervals_nodup wellFormed), members, ?_⟩
    have maximal := (List.forall₂_and_left intervals investments).mpr
      ⟨fun h member => (members h).mp member, yields⟩
    exact maximal.imp fun h i ⟨maximal, yields⟩ =>
      ⟨yields, yields.opened_le_closed wellFormed maximal.ordered⟩

def boughtForTen (symbol : String) (value : UInt64) : Position :=
  ⟨symbol, .one, .one, .ofUInt64 value, .ofUInt64 10⟩

def march (day : Nat) (valid : isCalendarDate 2024 3 day) : Instant := .midnight ⟨2024, 3, day, valid⟩

/-- One symbol is sold and bought again the next day, the other is sold once. -/
def reopening : List Snapshot :=
  [⟨march 1 rfl, .hundred, ⟨"USD", .zero, .zero⟩, [boughtForTen "A" 20, boughtForTen "B" 10]⟩,
    ⟨march 2 rfl, .hundred, ⟨"USD", .zero, .zero⟩, [boughtForTen "B" 30]⟩,
    ⟨march 3 rfl, .hundred, ⟨"USD", .zero, .zero⟩, [boughtForTen "A" 10]⟩]

def reopened : List Investment :=
  [⟨"B", march 1 rfl, march 2 rfl, .ofUInt64 10, .ofUInt64 30⟩,
    ⟨"A", march 1 rfl, march 1 rfl, .ofUInt64 10, .ofUInt64 20⟩,
    ⟨"A", march 2 rfl, march 3 rfl, .ofUInt64 10, .ofUInt64 10⟩]

theorem reconstruct_intervals_reopening : reconstruct reopening = .ok reopened ∧
    ∃ intervals : List HoldingInterval, intervals.Nodup ∧
      (∀ h, h ∈ intervals ↔ h.Maximal reopening) ∧
      List.Forall₂ (fun h i => h.Yields reopening i ∧ i.opened ≤ i.closed ∧
        (i.opened = i.closed ↔ h.first = 0 ∧ h.last = 0)) intervals reopened :=
  have ok : reconstruct reopening = .ok reopened := by cbv
  ⟨ok, reconstruct_intervals ok⟩

end Investment
end StrategySearch
