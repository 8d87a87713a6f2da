import Mathlib.Data.List.Forall2
import StrategySearch.Proofs.Portfolio.EventOrder

/-! What the closes of a well-formed series are paired with.

Open positions are seen as one stack of instants for each symbol. Between two snapshots the stack of
a symbol holds exactly the instant at which its current run opened, if the earlier snapshot holds the
symbol, and nothing otherwise. So every close finds its open, and pairing never fails.
-/

set_option autoImplicit false

namespace StrategySearch

namespace PositionEvent

variable {opens rest : List PositionEvent} {positions : List Position} {symbol : String}

/-- The instants of the open positions of a symbol, latest first. -/
def stack (opens : List PositionEvent) (symbol : String) : List Instant :=
  (opens.filter (·.symbol == symbol)).map (·.instant)

theorem stack_cons (e : PositionEvent) (opens : List PositionEvent) (symbol : String) :
    stack (e :: opens) symbol =
      if e.symbol = symbol then e.instant :: stack opens symbol else stack opens symbol := by
  by_cases same : e.symbol = symbol <;> simp [stack, same]

theorem stack_append (first second : List PositionEvent) (symbol : String) :
    stack (first ++ second) symbol = stack first symbol ++ stack second symbol := by
  simp [stack]

theorem stack_opening (kind : EventKind) (t : Instant) (index : Nat)
    (unique : (positions.map (·.symbol)).Nodup) (symbol : String) :
    stack (positions.map (of kind t index)).reverse symbol =
      if symbol ∈ positions.map (·.symbol) then [t] else [] := by
  have seen : stack (positions.map (of kind t index)).reverse symbol =
      ((positions.filter (·.symbol == symbol)).map fun _ => t).reverse := by
    simp [stack, List.filter_map, List.map_map, Function.comp_def, of]
  rw [seen]
  by_cases member : symbol ∈ positions.map (·.symbol)
  · obtain ⟨p, there, rfl⟩ := List.mem_map.mp member
    rw [if_pos member, Snapshot.filter_symbol_of_mem unique there]
    rfl
  · have none : positions.filter (·.symbol == symbol) = [] := by
      simp only [List.filter_eq_nil_iff, beq_iff_eq]
      exact fun p there same => member (List.mem_map.mpr ⟨p, there, same⟩)
    rw [if_neg member, none]
    rfl

theorem find?_of_stack {t : Instant} {later : List Instant}
    (top : stack opens symbol = t :: later) :
    ∃ o, opens.find? (·.symbol == symbol) = some o ∧ o.instant = t ∧
      ∀ other, stack (opens.eraseP (·.symbol == symbol)) other =
        if other = symbol then later else stack opens other := by
  induction opens with
  | nil => cases top
  | cons e opens ih =>
    rw [stack_cons] at top
    -- Either this is the open that is taken, or it stays and the search goes on behind it.
    by_cases same : e.symbol = symbol
    · rw [if_pos same] at top
      obtain ⟨rfl, rfl⟩ := List.cons.inj top
      refine ⟨e, by simp [same], rfl, fun other => ?_⟩
      rw [List.eraseP_cons_of_pos (by simp [same]), stack_cons, same]
      by_cases own : other = symbol
      · simp [own]
      · simp [own, Ne.symm own]
    · rw [if_neg same] at top
      obtain ⟨o, found, instant, remain⟩ := ih top
      refine ⟨o, by simp [same, found], instant, fun other => ?_⟩
      rw [List.eraseP_cons_of_neg (by simp [same]), stack_cons, stack_cons, remain other]
      by_cases own : other = symbol
      · simp [own, same]
      · simp [own]

theorem pairFrom_opening {kind : EventKind} (opening : kind ≠ .close) (t : Instant) (index : Nat)
    (positions : List Position) (opens rest : List PositionEvent) :
    pairFrom opens (positions.map (of kind t index) ++ rest) =
      pairFrom ((positions.map (of kind t index)).reverse ++ opens) rest := by
  induction positions generalizing opens with
  | nil => rfl
  | cons p positions ih =>
    rw [List.map_cons, List.reverse_cons, List.append_assoc, List.singleton_append, ← ih]
    cases kind with
    | close => exact absurd rfl opening
    | seed => rfl
    | «open» => rfl

theorem pairFrom_close {e o : PositionEvent} (close : e.kind = .close)
    (found : opens.find? (·.symbol == e.symbol) = some o) (rest : List PositionEvent) :
    pairFrom opens (e :: rest) =
      (pairFrom (opens.eraseP (·.symbol == e.symbol)) rest).map (⟨o, e⟩ :: ·) := by
  simp only [pairFrom, close, found]

theorem pairFrom_closing (t : Instant) (index : Nat) (opened : String → Option Instant)
    (unique : (positions.map (·.symbol)).Nodup)
    (held : ∀ p ∈ positions, ∃ d, opened p.symbol = some d ∧ stack opens p.symbol = [d]) :
    ∃ taken left,
      List.Forall₂ (fun p (h : Holding) => h.closed = of .close t index p ∧
        opened p.symbol = some h.opened.instant) positions taken ∧
      (∀ symbol, stack left symbol =
        if symbol ∈ positions.map (·.symbol) then [] else stack opens symbol) ∧
      ∀ rest, pairFrom opens (positions.map (of .close t index) ++ rest) =
        (pairFrom left rest).map (taken ++ ·) := by
  induction positions generalizing opens with
  | nil =>
    refine ⟨[], opens, .nil, by simp, fun rest => ?_⟩
    rw [List.map_nil, List.nil_append]
    cases pairFrom opens rest <;> rfl
  | cons p positions ih =>
    obtain ⟨new, unique⟩ := List.nodup_cons.mp unique
    obtain ⟨d, start, top⟩ := held p List.mem_cons_self
    obtain ⟨o, found, instant, remain⟩ := find?_of_stack top
    -- The others have symbols of their own, so their stacks are untouched.
    obtain ⟨taken, left, pairs, remaining, run⟩ := ih unique fun q member => by
      obtain ⟨d, start, top⟩ := held q (List.mem_cons_of_mem p member)
      have other : q.symbol ≠ p.symbol := fun same =>
        new (List.mem_map.mpr ⟨q, member, same⟩)
      exact ⟨d, start, by rw [remain, if_neg other, top]⟩
    refine ⟨⟨o, of .close t index p⟩ :: taken, left, .cons ⟨rfl, instant ▸ start⟩ pairs, ?_,
      fun rest => ?_⟩
    · intro symbol
      rw [remaining, remain]
      by_cases own : symbol = p.symbol <;> simp [own]
    · rw [List.map_cons, List.cons_append, pairFrom_close (e := of .close t index p) rfl found]
      change ((pairFrom (opens.eraseP (·.symbol == p.symbol)) _).map _) = _
      rw [run]
      cases pairFrom left rest <;> rfl

end PositionEvent
end StrategySearch
