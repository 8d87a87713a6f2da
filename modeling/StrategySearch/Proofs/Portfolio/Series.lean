import StrategySearch.Portfolio.Snapshot
import StrategySearch.Proofs.Calendar.Order

/-! Series of snapshots: when one is well formed, at which snapshots it holds a symbol, and where the
unbroken run of a symbol up to a snapshot starts.

A series passes its check exactly when its instants increase throughout and no snapshot holds a
symbol twice.
-/

set_option autoImplicit false

namespace StrategySearch

namespace Snapshot

theorem holds_iff {s : Snapshot} {symbol : String} :
    s.holds symbol ↔ symbol ∈ s.positions.map (·.symbol) := by
  simp [holds]

theorem firstRepeat?_eq_none_iff {seen : List String} {positions : List Position} :
    firstRepeat? seen positions = none ↔
      (positions.map (·.symbol)).Nodup ∧ ∀ p ∈ positions, p.symbol ∉ seen := by
  induction positions generalizing seen with
  | nil => simp [firstRepeat?]
  | cons p rest ih =>
    -- What was seen grows by the symbols that are passed.
    simp only [firstRepeat?, List.contains_iff_mem, List.map_cons, List.nodup_cons,
      List.forall_mem_cons]
    by_cases again : p.symbol ∈ seen
    · simp [again]
    · simp only [again, if_false, ih, List.mem_cons, not_or, not_false_eq_true, true_and]
      constructor
      · rintro ⟨unique, fresh⟩
        refine ⟨⟨?_, unique⟩, fun q member => (fresh q member).2⟩
        intro member
        obtain ⟨q, there, same⟩ := List.mem_map.mp member
        exact (fresh q there).1 same
      · rintro ⟨⟨new, unique⟩, fresh⟩
        exact ⟨unique, fun q member =>
          ⟨fun same => new (List.mem_map.mpr ⟨q, member, same⟩), fresh q member⟩⟩

theorem duplicate?_eq_none_iff {s : Snapshot} :
    s.duplicate? = none ↔ (s.positions.map (·.symbol)).Nodup := by
  simp [duplicate?, firstRepeat?_eq_none_iff]

theorem filter_symbol_of_mem {positions : List Position} {p : Position}
    (unique : (positions.map (·.symbol)).Nodup) (member : p ∈ positions) :
    positions.filter (·.symbol == p.symbol) = [p] := by
  induction positions with
  | nil => cases member
  | cons q rest ih =>
    obtain ⟨new, unique⟩ := List.nodup_cons.mp unique
    rcases List.mem_cons.mp member with rfl | member
    · have others : rest.filter (·.symbol == p.symbol) = [] := by
        simp only [List.filter_eq_nil_iff, beq_iff_eq]
        exact fun r there same => new (List.mem_map.mpr ⟨r, there, same⟩)
      simp [others]
    · have other : q.symbol ≠ p.symbol := fun same =>
        new (List.mem_map.mpr ⟨p, member, same.symm⟩)
      simpa [other] using ih unique member

theorem mem_symbols_filter {positions : List Position} {symbol : String} (keep : String → Bool) :
    symbol ∈ (positions.filter fun p => keep p.symbol).map (·.symbol) ↔
      symbol ∈ positions.map (·.symbol) ∧ keep symbol := by
  constructor
  · intro member
    obtain ⟨p, kept, rfl⟩ := List.mem_map.mp member
    obtain ⟨there, holds⟩ := List.mem_filter.mp kept
    exact ⟨List.mem_map_of_mem there, holds⟩
  · rintro ⟨member, holds⟩
    obtain ⟨p, there, rfl⟩ := List.mem_map.mp member
    exact List.mem_map_of_mem (List.mem_filter.mpr ⟨there, holds⟩)

theorem position?_of_mem {s : Snapshot} {p : Position}
    (unique : (s.positions.map (·.symbol)).Nodup) (member : p ∈ s.positions) :
    s.position? p.symbol = some p := by
  rw [position?, ← List.head?_filter, filter_symbol_of_mem unique member]
  rfl

end Snapshot

namespace Series

structure WellFormed (series : List Snapshot) : Prop where
  increasing : series.Pairwise fun a b => a.instant < b.instant
  unique : ∀ s ∈ series, (s.positions.map (·.symbol)).Nodup

theorem firstDisorder?_eq_none_iff {series : List Snapshot} :
    Snapshot.firstDisorder? series = none ↔
      series.Pairwise fun a b => a.instant < b.instant := by
  induction series with
  | nil => simp [Snapshot.firstDisorder?]
  | cons before rest ih =>
    cases rest with
    | nil => simp [Snapshot.firstDisorder?]
    | cons after rest =>
      simp only [Snapshot.firstDisorder?, List.pairwise_cons (a := before)]
      by_cases grows : before.instant < after.instant
      · rw [if_pos grows, ih]
        refine ⟨fun ordered => ⟨?_, ordered⟩, fun ordered => ordered.2⟩
        -- The neighbours are compared; all later ones follow from them.
        intro s member
        rcases List.mem_cons.mp member with rfl | member
        · exact grows
        · exact Instant.lt_trans grows ((List.pairwise_cons.mp ordered).1 s member)
      · simp [grows]

theorem validateSeries_eq_ok_iff {series : List Snapshot} :
    Snapshot.validateSeries series = .ok () ↔ WellFormed series := by
  unfold Snapshot.validateSeries
  cases disorder : Snapshot.firstDisorder? series with
  | some pair =>
    refine ⟨nofun, fun wellFormed => ?_⟩
    rw [firstDisorder?_eq_none_iff.mpr wellFormed.increasing] at disorder
    cases disorder
  | none =>
    have increasing := firstDisorder?_eq_none_iff.mp disorder
    cases double : series.findSome? fun s => s.duplicate?.map fun symbol => (s, symbol) with
    | some found =>
      refine ⟨nofun, fun wellFormed => ?_⟩
      obtain ⟨s, member, hit⟩ := List.exists_of_findSome?_eq_some double
      rw [Snapshot.duplicate?_eq_none_iff.mpr (wellFormed.unique s member)] at hit
      cases hit
    | none =>
      refine ⟨fun _ => ⟨increasing, fun s member => ?_⟩, fun _ => rfl⟩
      have clean := List.findSome?_eq_none_iff.mp double s member
      exact Snapshot.duplicate?_eq_none_iff.mp (Option.map_eq_none_iff.mp clean)

variable {series : List Snapshot} {symbol : String} {i j : Nat}

def heldAt (series : List Snapshot) (symbol : String) (i : Nat) : Bool :=
  series[i]?.any (·.holds symbol)

/-- The first snapshot of the unbroken run up to a snapshot that holds the symbol. -/
def runStart (series : List Snapshot) (symbol : String) : Nat → Nat
  | 0 => 0
  | i + 1 => if heldAt series symbol i then runStart series symbol i else i + 1

theorem heldAt_iff : heldAt series symbol i ↔ ∃ s, series[i]? = some s ∧ s.holds symbol := by
  cases entry : series[i]? <;> simp [heldAt, entry]

theorem heldAt_of_getElem? {s : Snapshot} (entry : series[i]? = some s) :
    heldAt series symbol i = s.holds symbol := by
  simp [heldAt, entry]

theorem runStart_le (series : List Snapshot) (symbol : String) (i : Nat) :
    runStart series symbol i ≤ i := by
  induction i with
  | zero => exact Nat.le_refl 0
  | succ i ih =>
    rw [runStart]
    split
    · omega
    · exact Nat.le_refl _

theorem heldAt_of_runStart_le (held : heldAt series symbol i)
    (start : runStart series symbol i ≤ j) (stop : j ≤ i) : heldAt series symbol j := by
  induction i with
  | zero => exact (Nat.le_zero.mp stop) ▸ held
  | succ i ih =>
    rcases Nat.eq_or_lt_of_le stop with rfl | earlier
    · exact held
    · rw [runStart] at start
      split at start
      · next before => exact ih before start (by omega)
      · omega

theorem not_heldAt_before_runStart (before : j + 1 = runStart series symbol i) :
    ¬ heldAt series symbol j := by
  induction i with
  | zero => simp [runStart] at before
  | succ i ih =>
    rw [runStart] at before
    split at before
    · exact ih before
    · next unheld =>
      obtain rfl : j = i := by omega
      exact unheld

theorem runStart_eq {first : Nat} (le : first ≤ i)
    (held : ∀ k, first ≤ k → k ≤ i → heldAt series symbol k)
    (free : ∀ k, k + 1 = first → ¬ heldAt series symbol k) :
    runStart series symbol i = first := by
  have last := held i le (Nat.le_refl i)
  -- An earlier start would hold the symbol just before the run, a later one would break the run.
  rcases Nat.lt_trichotomy (runStart series symbol i) first with earlier | same | later
  · exact absurd (heldAt_of_runStart_le last (j := first - 1) (by omega) (by omega))
      (free (first - 1) (by omega))
  · exact same
  · have bound := runStart_le series symbol i
    exact absurd (held (runStart series symbol i - 1) (by omega) (by omega))
      (not_heldAt_before_runStart (i := i) (by omega))

theorem WellFormed.unique_at (wellFormed : WellFormed series) {s : Snapshot}
    (entry : series[i]? = some s) : (s.positions.map (·.symbol)).Nodup :=
  wellFormed.unique s (List.mem_of_getElem? entry)

theorem WellFormed.instant_lt (wellFormed : WellFormed series) {s t : Snapshot}
    (left : series[i]? = some s) (right : series[j]? = some t) (lt : i < j) :
    s.instant < t.instant := by
  obtain ⟨boundLeft, rfl⟩ := List.getElem?_eq_some_iff.mp left
  obtain ⟨boundRight, rfl⟩ := List.getElem?_eq_some_iff.mp right
  exact List.pairwise_iff_getElem.mp wellFormed.increasing i j boundLeft boundRight lt

end Series
end StrategySearch
