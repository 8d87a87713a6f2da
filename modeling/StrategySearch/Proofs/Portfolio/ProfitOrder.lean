import Mathlib
import StrategySearch.Proofs.Decimal.Order
import StrategySearch.Proofs.Portfolio.Intervals
import StrategySearch.Proofs.StableSort

/-! The order in which investments are returned.

The best ratio comes first and undefined ratios come last. Ratios are compared by value, so decimals
of different scale may tie; investments that tie stay in close order.
-/

set_option autoImplicit false

namespace StrategySearch

namespace Investment

variable {a b c : Investment}

/-- The ratio of the first is defined and not below that of the second, or neither is defined. -/
def Outranks (a b : Investment) : Prop :=
  (∃ r, a.profitRatio? = some r ∧ ∀ r', b.profitRatio? = some r' → r'.value ≤ r.value) ∨
    a.profitRatio? = none ∧ b.profitRatio? = none

def Ties (a b : Investment) : Prop :=
  a.profitRatio?.map Decimal.value = b.profitRatio?.map Decimal.value

def rank (i : Investment) : WithBot ℚ := i.profitRatio?.map Decimal.value

theorem precedes_iff_rank : precedes a b ↔ b.rank ≤ a.rank := by
  unfold precedes rank
  cases a.profitRatio? with
  | none =>
    cases b.profitRatio? with
    | none => exact iff_of_true rfl le_rfl
    | some r' => exact iff_of_false nofun (WithBot.not_coe_le_bot r'.value)
  | some r =>
    cases b.profitRatio? with
    | none => exact iff_of_true rfl bot_le
    | some r' =>
      rw [decide_eq_true_eq, Decimal.le_iff_value]
      exact WithBot.coe_le_coe.symm

theorem precedes_iff_outranks : precedes a b ↔ a.Outranks b := by
  unfold precedes Outranks
  cases a.profitRatio? with
  | none => cases b.profitRatio? <;> simp
  | some r =>
    cases b.profitRatio? with
    | none => simp
    | some r' => simp [Decimal.le_iff_value]

theorem precedes_refl (a : Investment) : precedes a a := precedes_iff_rank.mpr le_rfl

theorem precedes_total (a b : Investment) : precedes a b || precedes b a := by
  rw [Bool.or_eq_true, precedes_iff_rank, precedes_iff_rank]
  exact le_total _ _

theorem precedes_trans (a b c : Investment) (first : precedes a b) (second : precedes b c) :
    precedes a c := by
  rw [precedes_iff_rank] at *
  exact second.trans first

theorem ties_iff_precedes : a.Ties b ↔ precedes a b ∧ precedes b a := by
  rw [precedes_iff_rank, precedes_iff_rank, and_comm, le_antisymm_iff.symm]
  exact Iff.rfl

variable {series : List Snapshot} {investments closed : List Investment}

theorem intervals_inCloseOrder (ok : inCloseOrder series = .ok closed) :
    ∃ pairs : List (HoldingInterval × Investment), pairs.map (·.2) = closed ∧
      pairs.map (·.1) = (Series.closings series).map (Closing.interval series) ∧
      (∀ p ∈ pairs, p.1.Yields series p.2) ∧
      pairs.Pairwise fun p q => p.1.ClosesBefore series q.1 := by
  have yields := yields_inCloseOrder ok
  have ordered := Series.intervals_pairwise (wellFormed_of_inCloseOrder ok)
  generalize (Series.closings series).map (Closing.interval series) = intervals at yields ordered
  refine ⟨intervals.zip closed, List.map_snd_zip yields.length_eq.ge,
    List.map_fst_zip yields.length_eq.le, fun p member => (List.forall₂_iff_zip.mp yields).2 member,
    ?_⟩
  rw [← List.map_fst_zip yields.length_eq.le] at ordered
  exact List.pairwise_map.mp ordered

/-- Of two investments the earlier one has the better ratio, or the ratios tie and it was closed
first. The comparison that sorts them is a total preorder. -/
theorem reconstruct_ranks (ok : reconstruct series = .ok investments) :
    (∃ intervals : List HoldingInterval, intervals.Nodup ∧
      (∀ h, h ∈ intervals ↔ h.Maximal series) ∧
      List.Forall₂ (fun h i => h.Yields series i) intervals investments ∧
      (intervals.zip investments).Pairwise fun p q =>
        p.2.Outranks q.2 ∧ (p.2.Ties q.2 → p.1.ClosesBefore series q.1)) ∧
    (∀ a b, precedes a b ↔ Outranks a b) ∧ (∀ a b, precedes a b ∧ precedes b a ↔ Ties a b) ∧
      (∀ a, precedes a a) ∧ (∀ a b, precedes a b ∨ precedes b a) ∧
      ∀ a b c, precedes a b → precedes b c → precedes a c := by
  refine ⟨?_, fun a b => precedes_iff_outranks, fun a b => ties_iff_precedes.symm, precedes_refl,
    fun a b => Bool.or_eq_true _ _ ▸ precedes_total a b, precedes_trans⟩
  cases close : inCloseOrder series with
  | error cause => simp [reconstruct, close, Except.map] at ok
  | ok closed =>
    have sorted : closed.mergeSort precedes = investments := by
      simpa [reconstruct, close, Except.map] using ok
    have wellFormed := wellFormed_of_inCloseOrder close
    obtain ⟨pairs, investmentsOf, intervalsOf, yields, ordered⟩ := intervals_inCloseOrder close
    -- Each investment is sorted together with its interval.
    let ranked := pairs.mergeSort fun p q => precedes p.2 q.2
    have same : ranked.Perm pairs := List.mergeSort_perm _ _
    have values : ranked.map (·.2) = investments := by
      rw [← sorted, ← investmentsOf]
      exact List.map_mergeSort fun p _ q _ => rfl
    have intervals : (ranked.map (·.1)).Perm
        ((Series.closings series).map (Closing.interval series)) :=
      intervalsOf ▸ same.map _
    refine ⟨ranked.map (·.1), intervals.nodup_iff.mpr (Series.intervals_nodup wellFormed),
      fun h => by rw [intervals.mem_iff, Series.mem_intervals_iff], ?_, ?_⟩
    · rw [← values, List.forall₂_map_left_iff, List.forall₂_map_right_iff, List.forall₂_same]
      exact fun p member => yields p (same.mem_iff.mp member)
    · rw [← List.zip_of_prod rfl values]
      have stable := pairwise_mergeSort_of_ties (fun p q => precedes p.2 q.2)
        (fun p q r => precedes_trans p.2 q.2 r.2) (fun p q => precedes_total p.2 q.2) ordered
      refine stable.imp ?_
      rintro p q ⟨before, tied⟩
      exact ⟨precedes_iff_outranks.mp before, fun ties => tied (ties_iff_precedes.mp ties).2⟩

def tenths (count : Int) : Decimal := (Decimal.make? count 1).getD .zero

/-- Two at the start, of which one cost nothing; one more at a time; and again one of each kind. -/
def tying : List Snapshot :=
  [⟨march 11 rfl, .hundred, ⟨"USD", .zero, .zero⟩, [free "Z", boughtForTen "A" 20]⟩,
    ⟨march 12 rfl, .hundred, ⟨"USD", .zero, .zero⟩,
      [{ boughtForTen "B" 20 with marketValue := tenths 200 }]⟩,
    ⟨march 13 rfl, .hundred, ⟨"USD", .zero, .zero⟩, [free "Y", boughtForTen "C" 30]⟩]
where
  free (symbol : String) : Position := { boughtForTen symbol 5 with averageEntryPrice := .zero }

def ranked : List Investment :=
  [⟨"C", march 12 rfl, march 13 rfl, .ofUInt64 10, .ofUInt64 30⟩,
    ⟨"A", march 11 rfl, march 11 rfl, .ofUInt64 10, .ofUInt64 20⟩,
    ⟨"B", march 11 rfl, march 12 rfl, .ofUInt64 10, tenths 200⟩,
    ⟨"Z", march 11 rfl, march 11 rfl, .zero, .ofUInt64 5⟩,
    ⟨"Y", march 12 rfl, march 13 rfl, .zero, .ofUInt64 5⟩]

/-- The ratios 2 and 2.0 tie, and so do two ratios that are undefined. -/
theorem reconstruct_ranks_tying : reconstruct tying = .ok ranked ∧
    ∃ intervals : List HoldingInterval, intervals.Nodup ∧
      (∀ h, h ∈ intervals ↔ h.Maximal tying) ∧
      List.Forall₂ (fun h i => h.Yields tying i) intervals ranked ∧
      (intervals.zip ranked).Pairwise fun p q =>
        p.2.Outranks q.2 ∧ (p.2.Ties q.2 → p.1.ClosesBefore tying q.1) := by
  have ok : reconstruct tying = .ok ranked := by cbv
  exact ⟨ok, (reconstruct_ranks ok).1⟩

end Investment
end StrategySearch
