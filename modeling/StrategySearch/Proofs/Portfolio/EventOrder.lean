import StrategySearch.Portfolio.Event
import StrategySearch.Proofs.Portfolio.Series

/-! The events of a series in their order: those of each snapshot follow one another as seeds, closes
and opens, and no event is later than those of the next snapshot. -/

set_option autoImplicit false

namespace StrategySearch

namespace PositionEvent

theorem before_of_lt {a b : PositionEvent} (lt : a.instant < b.instant) : before a b := by
  simp [before, Instant.lt_iff_compare.mp lt]

theorem before_of_rank_le {a b : PositionEvent} (same : a.instant = b.instant)
    (le : a.kind.rank ≤ b.kind.rank) : before a b := by
  simp only [before, same, Instant.compare_self, bne_iff_ne, Ordering.then]
  exact Nat.compare_ne_gt.mpr le

def finals (index : Nat) (series : List Snapshot) : List PositionEvent :=
  (series.getLast?.map fun s =>
    s.positions.map (of .close s.instant (index + (series.length - 1)))).getD []

def leaving (s t : Snapshot) : List Position := s.positions.filter fun p => !t.holds p.symbol

def arriving (s t : Snapshot) : List Position := t.positions.filter fun p => !s.holds p.symbol

theorem changes_cons_cons (index : Nat) (s t : Snapshot) (rest : List Snapshot) :
    changes index (s :: t :: rest) ++ finals index (s :: t :: rest) =
      (leaving s t).map (of .close s.instant index) ++
        ((arriving s t).map (of .open s.instant (index + 1)) ++
          (changes (index + 1) (t :: rest) ++ finals (index + 1) (t :: rest))) := by
  have last : index + (rest.length + 1) = index + 1 + rest.length := by omega
  simp [changes, finals, leaving, arriving, last]

theorem ofSeries_cons (s : Snapshot) (rest : List Snapshot) :
    ofSeries (s :: rest) =
      s.positions.map (of .seed s.instant 0) ++ (changes 0 (s :: rest) ++ finals 0 (s :: rest)) := by
  simp [ofSeries, finals]

def Follows (s : Snapshot) (e : PositionEvent) : Prop :=
  s.instant < e.instant ∨ e.instant = s.instant ∧ e.kind ≠ .seed

theorem follows_changes {index : Nat} {s : Snapshot} {rest : List Snapshot} {e : PositionEvent}
    (increasing : (s :: rest).Pairwise fun a b => a.instant < b.instant)
    (member : e ∈ changes index (s :: rest) ++ finals index (s :: rest)) : Follows s e := by
  induction rest generalizing index s with
  | nil =>
    obtain ⟨p, -, rfl⟩ : ∃ p ∈ s.positions, of .close s.instant index p = e := by
      simpa [changes, finals] using member
    exact .inr ⟨rfl, nofun⟩
  | cons t rest ih =>
    obtain ⟨later, tail⟩ := List.pairwise_cons.mp increasing
    rw [changes_cons_cons] at member
    rcases List.mem_append.mp member with member | member
    · obtain ⟨p, -, rfl⟩ := List.mem_map.mp member
      exact .inr ⟨rfl, nofun⟩
    rcases List.mem_append.mp member with member | member
    · obtain ⟨p, -, rfl⟩ := List.mem_map.mp member
      exact .inr ⟨rfl, nofun⟩
    · have first := later t List.mem_cons_self
      rcases ih tail member with after | ⟨same, -⟩
      · exact .inl (Instant.lt_trans first after)
      · exact .inl (same ▸ first)

theorem pairwise_sameMoment (kind : EventKind) (t : Instant) (index : Nat)
    (positions : List Position) : (positions.map (of kind t index)).Pairwise (before · ·) :=
  List.pairwise_map.mpr (List.pairwise_of_forall fun _ _ => before_of_rank_le rfl (Nat.le_refl _))

theorem pairwise_changes {series : List Snapshot} (index : Nat)
    (increasing : series.Pairwise fun a b => a.instant < b.instant) :
    (changes index series ++ finals index series).Pairwise (before · ·) := by
  induction series generalizing index with
  | nil => exact .nil
  | cons s rest ih =>
    cases rest with
    | nil => simpa [changes, finals] using pairwise_sameMoment .close s.instant index s.positions
    | cons t rest =>
      obtain ⟨later, tail⟩ := List.pairwise_cons.mp increasing
      -- All that comes later is at a later instant, so only the two kinds of one instant are left.
      have after : ∀ kind i p, ∀ e ∈ changes (index + 1) (t :: rest) ++
          finals (index + 1) (t :: rest), before (of kind s.instant i p) e := by
        intro kind i p e member
        have first := later t List.mem_cons_self
        rcases follows_changes tail member with gap | ⟨same, -⟩
        · exact before_of_lt (Instant.lt_trans first gap)
        · exact before_of_lt (same ▸ first)
      rw [changes_cons_cons]
      refine List.pairwise_append.mpr ⟨pairwise_sameMoment _ _ _ _,
        List.pairwise_append.mpr ⟨pairwise_sameMoment _ _ _ _, ih _ tail, ?_⟩, ?_⟩
      · intro a opening e member
        obtain ⟨p, -, rfl⟩ := List.mem_map.mp opening
        exact after _ _ _ e member
      · intro a closing e member
        obtain ⟨p, -, rfl⟩ := List.mem_map.mp closing
        rcases List.mem_append.mp member with member | member
        · obtain ⟨q, -, rfl⟩ := List.mem_map.mp member
          exact before_of_rank_le rfl (by simp [of, EventKind.rank])
        · exact after _ _ _ e member

/-- The events of a series are collected in their order, so that sorting them changes nothing. -/
theorem pair_ofSeries {series : List Snapshot}
    (increasing : series.Pairwise fun a b => a.instant < b.instant) :
    pair (ofSeries series) = pairFrom [] (ofSeries series) := by
  unfold pair
  congr 1
  apply List.mergeSort_of_pairwise
  cases series with
  | nil => exact .nil
  | cons s rest =>
    rw [ofSeries_cons]
    refine List.pairwise_append.mpr
      ⟨pairwise_sameMoment _ _ _ _, pairwise_changes _ increasing, ?_⟩
    -- A seed ranks before all other events of its instant.
    intro a seed e member
    obtain ⟨p, -, rfl⟩ := List.mem_map.mp seed
    rcases follows_changes increasing member with after | ⟨same, -⟩
    · exact before_of_lt after
    · exact before_of_rank_le same.symm (Nat.zero_le _)

end PositionEvent
end StrategySearch
