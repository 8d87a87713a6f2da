import StrategySearch.Proofs.Portfolio.Pairing

/-! The closes of a well-formed series in their order, and the holdings they are paired into.

A position closes at the last snapshot of its run. Pairing gives one holding for each close, in the
order of closes, and its open is the instant at which that run opened: the instant of the snapshot
before the run, or of the first snapshot if the run is there from the start.
-/

set_option autoImplicit false

namespace StrategySearch

structure Closing where
  index : Nat
  position : Position

namespace Series

variable {series : List Snapshot} {symbol : String} {i : Nat}

def openedAt (series : List Snapshot) (symbol : String) (i : Nat) : Option Instant :=
  series[runStart series symbol i - 1]?.map (·.instant)

/-- What a snapshot holds and the next one does not. -/
def closingAt (series : List Snapshot) (i : Nat) : List Position :=
  (series[i]?.elim [] (·.positions)).filter fun p => !heldAt series p.symbol (i + 1)

def closingsFrom (series : List Snapshot) (i count : Nat) : List Closing :=
  (List.range' i count).flatMap fun k => (closingAt series k).map (⟨k, ·⟩)

/-- All closes, by snapshot and then by place in the snapshot. -/
def closings (series : List Snapshot) : List Closing := closingsFrom series 0 series.length

structure Ends (series : List Snapshot) (c : Closing) (h : Holding) : Prop where
  closed : ∃ s, series[c.index]? = some s ∧ 
    h.closed = .of .close s.instant c.index c.position
  opened : openedAt series c.position.symbol c.index = some h.opened.instant

theorem openedAt_succ_of_held (held : heldAt series symbol i) :
    openedAt series symbol (i + 1) = openedAt series symbol i := by
  simp [openedAt, runStart, held]

theorem openedAt_succ_of_not_held {s : Snapshot} (entry : series[i]? = some s)
    (free : ¬ heldAt series symbol i) : openedAt series symbol (i + 1) = some s.instant := by
  simp [openedAt, runStart, free, entry]

theorem exists_openedAt (bound : i < series.length) (symbol : String) :
    ∃ d, openedAt series symbol i = some d := by
  have start := runStart_le series symbol i
  have inside : runStart series symbol i - 1 < series.length := by omega
  exact ⟨_, by rw [openedAt, List.getElem?_eq_getElem inside]; rfl⟩

theorem closingsFrom_succ (series : List Snapshot) (i count : Nat) :
    closingsFrom series i (count + 1) =
      (closingAt series i).map (⟨i, ·⟩) ++ closingsFrom series (i + 1) count := by
  simp [closingsFrom, List.range'_succ]

theorem closingAt_eq_leaving {s t : Snapshot} (entry : series[i]? = some s)
    (next : series[i + 1]? = some t) : closingAt series i = PositionEvent.leaving s t := by
  simp only [closingAt, PositionEvent.leaving, entry, Option.elim, heldAt_of_getElem? next]

theorem closingAt_last {s : Snapshot} (entry : series[i]? = some s)
    (last : series.length = i + 1) : closingAt series i = s.positions := by
  have free : ∀ symbol, heldAt series symbol (i + 1) = false := by
    intro symbol
    simp [heldAt, ← last]
  simp only [closingAt, entry, Option.elim, free, Bool.not_false, List.filter_true]

/-- Before the events of a snapshot, exactly what it holds is open, since the start of its run. -/
def AtBoundary (series : List Snapshot) (i : Nat) (opens : List PositionEvent) : Prop :=
  ∀ symbol, PositionEvent.stack opens symbol =
    if heldAt series symbol i then (openedAt series symbol i).toList else []

theorem mem_positions_iff_heldAt {s : Snapshot} (entry : series[i]? = some s) :
    symbol ∈ s.positions.map (·.symbol) ↔ heldAt series symbol i := by
  rw [heldAt_of_getElem? entry, Snapshot.holds_iff]

theorem AtBoundary.stack_of_mem {opens : List PositionEvent} {s : Snapshot} {p : Position}
    (boundary : AtBoundary series i opens) (entry : series[i]? = some s)
    (member : p ∈ s.positions) :
    ∃ d, openedAt series p.symbol i = some d ∧ PositionEvent.stack opens p.symbol = [d] := by
  obtain ⟨d, start⟩ := exists_openedAt (List.getElem?_eq_some_iff.mp entry).1 p.symbol
  have held := (mem_positions_iff_heldAt entry).mp (List.mem_map_of_mem member)
  exact ⟨d, start, by simp [boundary p.symbol, held, start]⟩

/-- A boundary is carried to the next one, and on the way each close is paired with its open. -/
theorem AtBoundary.step {opens : List PositionEvent} {s t : Snapshot}
    (wellFormed : WellFormed series) (boundary : AtBoundary series i opens)
    (entry : series[i]? = some s) (next : series[i + 1]? = some t) :
    ∃ taken left,
      List.Forall₂ (Ends series) ((closingAt series i).map (⟨i, ·⟩)) taken ∧
      AtBoundary series (i + 1) left ∧
      ∀ rest, PositionEvent.pairFrom opens
          ((PositionEvent.leaving s t).map (.of .close s.instant i) ++
            ((PositionEvent.arriving s t).map (.of .open s.instant (i + 1)) ++ rest)) =
        (PositionEvent.pairFrom left rest).map (taken ++ ·) := by
  have uniqueLeaving : ((PositionEvent.leaving s t).map (·.symbol)).Nodup :=
    (wellFormed.unique_at entry).sublist (List.filter_sublist.map _)
  have uniqueArriving : ((PositionEvent.arriving s t).map (·.symbol)).Nodup :=
    (wellFormed.unique_at next).sublist (List.filter_sublist.map _)
  have leaves : ∀ symbol, symbol ∈ (PositionEvent.leaving s t).map (·.symbol) ↔
      heldAt series symbol i ∧ ¬ heldAt series symbol (i + 1) := by
    intro symbol
    rw [PositionEvent.leaving, Snapshot.mem_symbols_filter (!t.holds ·),
      mem_positions_iff_heldAt entry, heldAt_of_getElem? next, Bool.not_eq_true',
      Bool.not_eq_true]
  have arrives : ∀ symbol, symbol ∈ (PositionEvent.arriving s t).map (·.symbol) ↔
      heldAt series symbol (i + 1) ∧ ¬ heldAt series symbol i := by
    intro symbol
    rw [PositionEvent.arriving, Snapshot.mem_symbols_filter (!s.holds ·),
      mem_positions_iff_heldAt next, heldAt_of_getElem? entry, Bool.not_eq_true',
      Bool.not_eq_true]
  obtain ⟨taken, left, pairs, remaining, run⟩ :=
    PositionEvent.pairFrom_closing s.instant i (openedAt series · i) uniqueLeaving fun p member =>
      boundary.stack_of_mem entry (List.mem_filter.mp member).1
  refine ⟨taken, ((PositionEvent.arriving s t).map (.of .open s.instant (i + 1))).reverse ++ left,
    ?_, fun symbol => ?_, fun rest => ?_⟩
  · rw [closingAt_eq_leaving entry next]
    exact List.forall₂_map_left_iff.mpr
      (pairs.imp fun p h found => ⟨⟨s, entry, found.1⟩, found.2⟩)
  · rw [PositionEvent.stack_append, PositionEvent.stack_opening _ _ _ uniqueArriving, remaining,
      boundary symbol]
    simp only [leaves, arrives]
    -- A symbol stays with its open, leaves, arrives at this instant, or is on neither side.
    by_cases before : heldAt series symbol i
    · by_cases after : heldAt series symbol (i + 1)
      · simp [before, after, openedAt_succ_of_held before]
      · simp [before, after]
    · by_cases after : heldAt series symbol (i + 1)
      · simp [before, after, openedAt_succ_of_not_held entry before]
      · simp [before, after]
  · rw [run, PositionEvent.pairFrom_opening (by decide)]

theorem AtBoundary.run (wellFormed : WellFormed series) (count : Nat) :
    ∀ {i : Nat} {opens : List PositionEvent}, AtBoundary series i opens →
      i + (count + 1) = series.length →
      ∃ holdings,
        PositionEvent.pairFrom opens (PositionEvent.changes i (series.drop i) ++
          PositionEvent.finals i (series.drop i)) = .ok holdings ∧
        List.Forall₂ (Ends series) (closingsFrom series i (count + 1)) holdings := by
  induction count with
  | zero =>
    -- The last snapshot has no next one: all that it holds closes.
    intro i opens boundary length
    have entry : series[i]? = some series[i] := List.getElem?_eq_getElem (by omega)
    have last : series.drop i = [series[i]] := by
      rw [List.drop_eq_getElem_cons (by omega), List.drop_eq_nil_of_le (by omega)]
    obtain ⟨taken, left, pairs, -, run⟩ :=
      PositionEvent.pairFrom_closing series[i].instant i (openedAt series · i)
        (wellFormed.unique_at entry) fun p member => boundary.stack_of_mem entry member
    refine ⟨taken, ?_, ?_⟩
    · have closes := run []
      rw [List.append_nil] at closes
      simp [last, PositionEvent.changes, PositionEvent.finals, closes, PositionEvent.pairFrom,
        Except.map]
    · rw [closingsFrom_succ, closingAt_last entry length.symm]
      simp only [closingsFrom, List.range'_zero, List.flatMap_nil, List.append_nil]
      exact List.forall₂_map_left_iff.mpr
        (pairs.imp fun p h found => ⟨⟨_, entry, found.1⟩, found.2⟩)
  | succ count ih =>
    intro i opens boundary length
    have entry : series[i]? = some series[i] := List.getElem?_eq_getElem (by omega)
    have next : series[i + 1]? = some series[i + 1] := List.getElem?_eq_getElem (by omega)
    obtain ⟨taken, left, ends, boundary, run⟩ := boundary.step wellFormed entry next
    obtain ⟨holdings, rest, others⟩ := ih boundary (by omega)
    refine ⟨taken ++ holdings, ?_, ?_⟩
    · rw [List.drop_eq_getElem_cons (by omega), List.drop_eq_getElem_cons (i := i + 1) (by omega),
        PositionEvent.changes_cons_cons, run, ← List.drop_eq_getElem_cons, rest]
      rfl
    · rw [closingsFrom_succ]
      exact List.rel_append ends others

/-- Every close of a well-formed series is paired, in the order of closes. -/
theorem pair_ofSeries (wellFormed : WellFormed series) :
    ∃ holdings, PositionEvent.pair (PositionEvent.ofSeries series) = .ok holdings ∧
      List.Forall₂ (Ends series) (closings series) holdings := by
  rw [PositionEvent.pair_ofSeries wellFormed.increasing]
  cases series with
  | nil => exact ⟨[], rfl, .nil⟩
  | cons s rest =>
    have unique := wellFormed.unique s List.mem_cons_self
    have boundary : AtBoundary (s :: rest) 0
        (s.positions.map (.of .seed s.instant 0)).reverse := by
      intro symbol
      rw [PositionEvent.stack_opening _ _ _ unique]
      have first : (s :: rest)[0]? = some s := rfl
      simp only [mem_positions_iff_heldAt first]
      rfl
    obtain ⟨holdings, run, ends⟩ := boundary.run wellFormed rest.length (by simp)
    refine ⟨holdings, ?_, ends⟩
    rw [PositionEvent.ofSeries_cons, PositionEvent.pairFrom_opening (by decide), List.append_nil]
    exact run

end Series
end StrategySearch
