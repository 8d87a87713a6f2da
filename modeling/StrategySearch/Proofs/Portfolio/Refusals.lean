import Mathlib
import StrategySearch.Proofs.Decimal.Product
import StrategySearch.Proofs.Portfolio.Intervals
import StrategySearch.Proofs.Portfolio.Offences

/-! Which series have no investments, and for what they are refused.

A series that passes its check is refused only for what was paid for a position that closes. Every
close finds its open, so no series is refused for a close without one.
-/

set_option autoImplicit false

namespace StrategySearch

namespace Position

def Overflows (p : Position) : Prop :=
  Decimal.overflowBound ≤ |p.averageEntryPrice.value * p.quantity.value|

def overflow? (p : Position) : Option Failure :=
  match p.entryValue? with
  | some _ => none
  | none => some (.invalid s!"entry value of {p.symbol} overflows"
      s!"quantity {p.quantity} at average entry price {p.averageEntryPrice}")

variable {p : Position} {cause : Failure}

theorem entryValue?_eq_none_iff : p.entryValue? = none ↔ p.Overflows := Decimal.mul?_eq_none_iff

theorem overflow?_eq_none_iff : p.overflow? = none ↔ ¬ p.Overflows := by
  rw [← entryValue?_eq_none_iff, overflow?]
  cases p.entryValue? <;> simp

theorem overflow?_eq_some_iff : p.overflow? = some cause ↔ p.Overflows ∧
    cause = .invalid s!"entry value of {p.symbol} overflows"
      s!"quantity {p.quantity} at average entry price {p.averageEntryPrice}" := by
  rw [← entryValue?_eq_none_iff, overflow?]
  cases p.entryValue? <;> simp [eq_comm]

end Position

namespace HoldingInterval

def Overflows (series : List Snapshot) (h : HoldingInterval) : Prop :=
  ∃ p, h.lastPosition? series = some p ∧ p.Overflows

end HoldingInterval

namespace Series

variable {series : List Snapshot} {cause : Failure} {c : Closing}

theorem overflows_interval_iff (wellFormed : WellFormed series) (member : c ∈ closings series) :
    (c.interval series).Overflows series ↔ c.position.Overflows := by
  simp [HoldingInterval.Overflows, lastPosition?_interval wellFormed member]

theorem ofHolding_eq_error_iff {h : Holding} (wellFormed : WellFormed series)
    (member : c ∈ closings series) (ends : Ends series c h) :
    Investment.ofHolding series h = .error cause ↔ c.position.overflow? = some cause := by
  rw [ofHolding_of_ends wellFormed member ends]
  obtain ⟨s, -, closed⟩ := ends.closed
  simp only [Investment.ofPosition, closed, PositionEvent.of, Position.overflow?]
  cases c.position.entryValue? <;> simp

theorem findSome?_overflow_eq_some_iff (wellFormed : WellFormed series) :
    (closings series).findSome? (·.position.overflow?) = some cause ↔
      ∃ h p, HoldingInterval.Maximal series h ∧ h.lastPosition? series = some p ∧ p.Overflows ∧
        (∀ h', HoldingInterval.Maximal series h' → h'.ClosesBefore series h →
          ¬ h'.Overflows series) ∧
        cause = .invalid s!"entry value of {p.symbol} overflows"
          s!"quantity {p.quantity} at average entry price {p.averageEntryPrice}" := by
  rw [List.findSome?_eq_some_iff]
  have ordered := closings_pairwise wellFormed
  constructor
  · rintro ⟨before, c, after, split, fails, clean⟩
    have member : c ∈ closings series := by simp [split]
    obtain ⟨overflows, rfl⟩ := Position.overflow?_eq_some_iff.mp fails
    refine ⟨c.interval series, c.position, ?_, lastPosition?_interval wellFormed member,
      overflows, ?_, rfl⟩
    · exact mem_intervals_iff.mp (List.mem_map_of_mem member)
    · intro h' maximal earlier
      obtain ⟨c', member', rfl⟩ := List.mem_map.mp (mem_intervals_iff.mpr maximal)
      rw [overflows_interval_iff wellFormed member', ← Position.overflow?_eq_none_iff]
      -- What closes earlier stands before the close in the list.
      rw [split] at member' ordered
      rcases List.mem_append.mp member' with passed | rest
      · exact clean c' passed
      · rcases List.mem_cons.mp rest with rfl | later
        · exact absurd earlier HoldingInterval.not_closesBefore_self
        · have tail := (List.pairwise_append.mp ordered).2.1
          exact absurd earlier ((List.pairwise_cons.mp tail).1 c' later).asymm
  · rintro ⟨h, p, maximal, last, overflows, clean, rfl⟩
    obtain ⟨c, member, rfl⟩ := List.mem_map.mp (mem_intervals_iff.mpr maximal)
    obtain rfl : c.position = p :=
      Option.some.inj ((lastPosition?_interval wellFormed member).symm.trans last)
    obtain ⟨before, after, split⟩ := List.append_of_mem member
    refine ⟨before, c, after, split, Position.overflow?_eq_some_iff.mpr ⟨overflows, rfl⟩, ?_⟩
    intro c' passed
    have member' : c' ∈ closings series := by simp [split, passed]
    rw [Position.overflow?_eq_none_iff, ← overflows_interval_iff wellFormed member']
    refine clean _ (mem_intervals_iff.mp (List.mem_map_of_mem member')) ?_
    rw [split] at ordered
    exact (List.pairwise_append.mp ordered).2.2 c' passed c List.mem_cons_self

end Series

namespace Investment

variable {series : List Snapshot} {cause : Failure}

/-- Why a series is refused: for its first offence, or else for the first close in close order at
which what was paid overflows. -/
inductive Refused (series : List Snapshot) : Failure → Prop where
  | offence {cause : Failure} : Series.Offends series cause → Refused series cause
  | overflow {h : HoldingInterval} {p : Position} :
      Series.WellFormed series → h.Maximal series → h.lastPosition? series = some p →
      p.Overflows →
      (∀ h' : HoldingInterval, h'.Maximal series → h'.ClosesBefore series h →
        ¬ h'.Overflows series) →
      Refused series (.invalid s!"entry value of {p.symbol} overflows"
        s!"quantity {p.quantity} at average entry price {p.averageEntryPrice}")

theorem Refused.validation (refused : Refused series cause) :
    ∃ context payload, cause = .validation context payload := by
  cases refused with
  | offence offends => cases offends <;> exact ⟨_, _, rfl⟩
  | overflow => exact ⟨_, _, rfl⟩

theorem reconstruct_eq_error_iff :
    reconstruct series = .error cause ↔ inCloseOrder series = .error cause := by
  unfold reconstruct
  cases inCloseOrder series with
  | error cause' => exact Iff.rfl
  | ok closed => exact ⟨nofun, nofun⟩

theorem inCloseOrder_of_offends (offends : Series.Offends series cause) :
    inCloseOrder series = .error cause := by
  rw [inCloseOrder, Series.validateSeries_eq_error_iff.mpr offends]
  rfl

theorem inCloseOrder_eq_error_iff (wellFormed : Series.WellFormed series) :
    inCloseOrder series = .error cause ↔
      (Series.closings series).findSome? (·.position.overflow?) = some cause := by
  obtain ⟨holdings, same, ends⟩ := inCloseOrder_eq wellFormed
  have closes := (List.forall₂_and_left (Series.closings series) holdings).mpr
    ⟨fun c member => member, ends⟩
  rw [same]
  exact mapM_eq_error_iff (closes.flip.imp fun h c found cause =>
    Series.ofHolding_eq_error_iff wellFormed found.1 found.2)

theorem offends_or_wellFormed (series : List Snapshot) :
    (∃ cause, Series.Offends series cause) ∨ Series.WellFormed series := by
  cases valid : Snapshot.validateSeries series with
  | error cause => exact .inl ⟨cause, Series.validateSeries_eq_error_iff.mp valid⟩
  | ok => exact .inr (Series.validateSeries_eq_ok_iff.mp valid)

theorem not_wellFormed_of_offends (offends : Series.Offends series cause) :
    ¬ Series.WellFormed series := by
  intro wellFormed
  have valid := Series.validateSeries_eq_ok_iff.mpr wellFormed
  rw [Series.validateSeries_eq_error_iff.mpr offends] at valid
  cases valid

theorem reconstruct_eq_error_iff_refused :
    reconstruct series = .error cause ↔ Refused series cause := by
  rw [reconstruct_eq_error_iff]
  constructor
  · intro fails
    rcases offends_or_wellFormed series with ⟨cause', offends⟩ | wellFormed
    · rw [inCloseOrder_of_offends offends] at fails
      cases fails
      exact .offence offends
    · have first := (inCloseOrder_eq_error_iff wellFormed).mp fails
      obtain ⟨h, p, maximal, last, overflows, clean, rfl⟩ :=
        (Series.findSome?_overflow_eq_some_iff wellFormed).mp first
      exact .overflow wellFormed maximal last overflows clean
  · intro refused
    cases refused with
    | offence offends => exact inCloseOrder_of_offends offends
    | overflow wellFormed maximal last overflows clean =>
      exact (inCloseOrder_eq_error_iff wellFormed).mpr
        ((Series.findSome?_overflow_eq_some_iff wellFormed).mpr
          ⟨_, _, maximal, last, overflows, clean, rfl⟩)

theorem exists_overflow_iff (wellFormed : Series.WellFormed series) :
    (∃ cause, inCloseOrder series = .error cause) ↔
      ∃ h : HoldingInterval, h.Maximal series ∧ h.Overflows series := by
  simp only [inCloseOrder_eq_error_iff wellFormed]
  constructor
  · rintro ⟨cause, first⟩
    obtain ⟨h, p, maximal, last, overflows, -⟩ :=
      (Series.findSome?_overflow_eq_some_iff wellFormed).mp first
    exact ⟨h, maximal, p, last, overflows⟩
  · rintro ⟨h, maximal, overflows⟩
    obtain ⟨c, member, rfl⟩ := List.mem_map.mp (Series.mem_intervals_iff.mpr maximal)
    have fails := (Series.overflows_interval_iff wellFormed member).mp overflows
    by_contra none
    have clean := List.findSome?_eq_none_iff.mp
      (Option.eq_none_iff_forall_ne_some.mpr fun cause first => none ⟨cause, first⟩) c member
    exact Position.overflow?_eq_none_iff.mp clean fails

/-- Reconstruction fails exactly for instants that do not increase, for a symbol that a snapshot
holds twice, and for a position that is closed at a price too large for a decimal. The failure is
that of the first such place, and never one of a close without an open. -/
theorem reconstruct_refuses (series : List Snapshot) :
    (∀ cause, reconstruct series = .error cause ↔ Refused series cause) ∧
      ((∃ cause, reconstruct series = .error cause) ↔
        ¬ series.Pairwise (fun s t => s.instant < t.instant) ∨
          (∃ s ∈ series, ¬ (s.positions.map (·.symbol)).Nodup) ∨
          ∃ h : HoldingInterval, h.Maximal series ∧ h.Overflows series) ∧
      ∀ cause, reconstruct series = .error cause →
        (∃ context payload, cause = .validation context payload) ∧
          ∀ symbol closed, cause ≠ .unmatchedClose symbol closed := by
  refine ⟨fun cause => reconstruct_eq_error_iff_refused, ?_, fun cause fails => ?_⟩
  · simp only [reconstruct_eq_error_iff]
    rcases offends_or_wellFormed series with ⟨cause, offends⟩ | wellFormed
    · refine iff_of_true ⟨cause, inCloseOrder_of_offends offends⟩ ?_
      by_contra sound
      simp only [not_or, not_not, not_exists, not_and] at sound
      exact not_wellFormed_of_offends offends ⟨sound.1, sound.2.1⟩
    · rw [exists_overflow_iff wellFormed]
      refine ⟨fun overflows => .inr (.inr overflows), ?_⟩
      rintro (disorder | ⟨s, member, twice⟩ | overflows)
      · exact absurd wellFormed.increasing disorder
      · exact absurd (wellFormed.unique s member) twice
      · exact overflows
  · obtain ⟨context, payload, rfl⟩ := (reconstruct_eq_error_iff_refused.mp fails).validation
    exact ⟨⟨context, payload, rfl⟩, fun symbol closed same => Failure.noConfusion same⟩

end Investment
end StrategySearch
