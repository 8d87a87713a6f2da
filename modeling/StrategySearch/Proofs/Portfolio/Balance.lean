import StrategySearch.Proofs.Portfolio.Pairing
import StrategySearch.Proofs.StableSort

/-! When the closes of arbitrary events can all be paired: no symbol may be closed more often than it
was opened, at any point of the order in which the events are taken. -/

set_option autoImplicit false

namespace StrategySearch

namespace PositionEvent

variable {events sorted opens rest : List PositionEvent} {symbol : String}

/-! ## The order of the events -/

/-- The events by date and kind; events of one date and kind stand as they came. -/
structure StablySorted (events sorted : List PositionEvent) : Prop where
  ordered : sorted.Pairwise fun a b =>
    a.instant < b.instant ∨ a.instant = b.instant ∧ a.kind.rank ≤ b.kind.rank
  stable : ∀ (t : Instant) (kind : EventKind),
    sorted.filter (fun e => e.instant = t ∧ e.kind = kind) =
      events.filter (fun e => e.instant = t ∧ e.kind = kind)

theorem before_iff {a b : PositionEvent} : before a b ↔
    a.instant < b.instant ∨ a.instant = b.instant ∧ a.kind.rank ≤ b.kind.rank := by
  unfold before
  cases order : Instant.compare a.instant b.instant with
  | lt => simp [Instant.lt_iff_compare, order]
  | eq =>
    simp [Instant.eq_of_compare_eq order, Instant.lt_irrefl, Nat.compare_ne_gt]
  | gt =>
    have apart : a.instant ≠ b.instant := fun same => by
      simp [same, Instant.compare_self] at order
    simp [Instant.lt_iff_compare, order, apart]

theorem before_trans (a b c : PositionEvent) (first : before a b) (second : before b c) :
    before a c := by
  rw [before_iff] at first second ⊢
  rcases first with first | ⟨same, first⟩
  · rcases second with second | ⟨same, -⟩
    · exact .inl (Instant.lt_trans first second)
    · exact .inl (same ▸ first)
  · rcases second with second | ⟨same', second⟩
    · exact .inl (same ▸ second)
    · exact .inr ⟨same.trans same', Nat.le_trans first second⟩

theorem before_total (a b : PositionEvent) : before a b || before b a := by
  rw [Bool.or_eq_true, before_iff, before_iff]
  rcases Instant.lt_trichotomy a.instant b.instant with less | same | more
  · exact .inl (.inl less)
  · exact (Nat.le_total a.kind.rank b.kind.rank).imp (fun le => .inr ⟨same, le⟩)
      fun le => .inr ⟨same.symm, le⟩
  · exact .inr (.inl more)

theorem stablySorted_mergeSort (events : List PositionEvent) :
    StablySorted events (events.mergeSort before) where
  ordered := (List.pairwise_mergeSort before_trans before_total events).imp before_iff.mp
  stable t kind := by
    refine filter_mergeSort_of_ties before before_trans before_total (fun a b left right => ?_) _
    obtain ⟨rfl, rfl⟩ := of_decide_eq_true left
    obtain ⟨instant, kind⟩ := of_decide_eq_true right
    exact before_of_rank_le instant.symm (Nat.le_of_eq (congrArg EventKind.rank kind.symm))

theorem pair_filter (events : List PositionEvent) (keep : PositionEvent → Bool) :
    pair (events.filter keep) = pairFrom [] ((events.mergeSort before).filter keep) := by
  rw [pair, mergeSort_filter before before_trans before_total]

/-! ## When every close finds an opening -/

def openings (symbol : String) (events : List PositionEvent) : Nat :=
  events.countP fun e => e.kind != .close && e.symbol == symbol

def closings (symbol : String) (events : List PositionEvent) : Nat :=
  events.countP fun e => e.kind == .close && e.symbol == symbol

/-- No symbol is closed more often than it was opened so far. -/
def Balanced (events : List PositionEvent) : Prop :=
  ∀ symbol first, first <+: events → closings symbol first ≤ openings symbol first

theorem openings_cons (symbol : String) (e : PositionEvent) (events : List PositionEvent) :
    openings symbol (e :: events) =
      openings symbol events + if e.kind ≠ .close ∧ e.symbol = symbol then 1 else 0 := by
  simp [openings, List.countP_cons]

theorem closings_cons (symbol : String) (e : PositionEvent) (events : List PositionEvent) :
    closings symbol (e :: events) =
      closings symbol events + if e.kind = .close ∧ e.symbol = symbol then 1 else 0 := by
  simp [closings, List.countP_cons]

theorem pairFrom_open {e : PositionEvent} (opening : e.kind ≠ .close) :
    pairFrom opens (e :: rest) = pairFrom (e :: opens) rest := by
  cases kind : e.kind with
  | close => exact absurd kind opening
  | seed => simp only [pairFrom, kind]
  | «open» => simp only [pairFrom, kind]

theorem pairFrom_missing {e : PositionEvent} (close : e.kind = .close)
    (missing : opens.find? (·.symbol == e.symbol) = none) :
    pairFrom opens (e :: rest) = .error (.unmatchedClose e.symbol e.instant) := by
  simp only [pairFrom, close, missing]

theorem eraseP_of_find? {α : Type} {p : α → Bool} {as : List α} {a : α}
    (found : as.find? p = some a) :
    ∃ earlier later, as = earlier ++ a :: later ∧ as.eraseP p = earlier ++ later ∧ p a ∧
      ∀ b ∈ earlier, ¬ p b := by
  obtain ⟨same, earlier, later, rfl, other⟩ := List.find?_eq_some_iff_append.mp found
  have misses : ∀ b ∈ earlier, ¬ p b := by simpa using other
  exact ⟨earlier, later, rfl,
    by rw [List.eraseP_append_right _ misses, List.eraseP_cons_of_pos same], same, misses⟩

theorem countP_eraseP {o : PositionEvent} (found : opens.find? (·.symbol == symbol) = some o)
    (other : String) :
    opens.countP (·.symbol == other) =
      (opens.eraseP (·.symbol == symbol)).countP (·.symbol == other) +
        (if symbol = other then 1 else 0) := by
  obtain ⟨earlier, later, split, remain, same, -⟩ := eraseP_of_find? found
  rw [beq_iff_eq] at same
  rw [remain, split]
  simp only [List.countP_append, List.countP_cons, same, beq_iff_eq]
  omega

theorem forall_prefix_cons {p : List PositionEvent → Prop} {e : PositionEvent} :
    (∀ first, first <+: e :: rest → p first) ↔
      p [] ∧ ∀ first, first <+: rest → p (e :: first) := by
  simp only [List.prefix_cons_iff]
  constructor
  · exact fun all => ⟨all [] (.inl rfl), fun first begins => all _ (.inr ⟨first, rfl, begins⟩)⟩
  · rintro ⟨empty, all⟩ - (rfl | ⟨first, rfl, begins⟩)
    · exact empty
    · exact all first begins

/-- The positions that are open already count as openings of what is to come. -/
theorem pairFrom_isOk_iff (opens rest : List PositionEvent) :
    (∃ holdings, pairFrom opens rest = .ok holdings) ↔
      ∀ symbol first, first <+: rest →
        closings symbol first ≤ opens.countP (·.symbol == symbol) + openings symbol first := by
  induction rest generalizing opens with
  | nil => simp [pairFrom, closings]
  | cons e rest ih =>
    by_cases close : e.kind = .close
    · cases found : opens.find? (·.symbol == e.symbol) with
      | none =>
        rw [pairFrom_missing close found]
        refine iff_of_false (by simp) fun enough => ?_
        have none : opens.countP (·.symbol == e.symbol) = 0 := by
          simpa [List.countP_eq_zero, List.find?_eq_none] using found
        have := enough e.symbol [e] (by simp)
        simp [closings, openings, close, none] at this
      | some o =>
        have step : (∃ holdings, pairFrom opens (e :: rest) = .ok holdings) ↔
            ∃ holdings, pairFrom (opens.eraseP (·.symbol == e.symbol)) rest = .ok holdings := by
          rw [pairFrom_close close found]
          cases pairFrom (opens.eraseP (·.symbol == e.symbol)) rest <;> simp [Except.map]
        rw [step, ih]
        refine forall_congr' fun symbol => ?_
        -- One opening less is left for what follows, and one close less is to come.
        simp only [forall_prefix_cons, countP_eraseP found symbol, openings_cons, closings_cons,
          close, ne_eq, not_true, false_and, true_and, if_false]
        refine ⟨fun enough => ⟨Nat.zero_le _, fun first begins => ?_⟩,
          fun enough first begins => ?_⟩
        · have := enough first begins
          omega
        · have := enough.2 first begins
          omega
    · rw [pairFrom_open close, ih]
      refine forall_congr' fun symbol => ?_
      simp only [forall_prefix_cons, List.countP_cons, beq_iff_eq, openings_cons, closings_cons,
        close, ne_eq, not_false_eq_true, false_and, true_and, if_false]
      refine ⟨fun enough => ⟨Nat.zero_le _, fun first begins => ?_⟩,
        fun enough first begins => ?_⟩
      · have := enough first begins
        omega
      · have := enough.2 first begins
        omega

end PositionEvent
end StrategySearch
