import StrategySearch.Proofs.Portfolio.Balance

/-! What the closes of arbitrary events are paired with.

Nothing is known of the events but their order after sorting, so openings and closes are told apart by
their places in the sorted list. The places of the openings that are free mirror the open positions,
latest first; the pairs made so far say which openings are no longer free.
-/

set_option autoImplicit false

namespace StrategySearch

namespace PositionEvent

variable {events sorted opens rest : List PositionEvent} {symbol : String}

def OpensAt (sorted : List PositionEvent) (symbol : String) (k : Nat) : Prop :=
  ∃ e, sorted[k]? = some e ∧ e.kind ≠ .close ∧ e.symbol = symbol

def closePlaces (sorted : List PositionEvent) (n : Nat) : List Nat :=
  (List.range n).filter fun k => (sorted[k]?.map (·.kind)) == some .close

/-- At `c` stands a close, and `o` is the latest place before it at which its symbol is opened and
which is not taken yet. -/
structure Latest (sorted : List PositionEvent) (taken : List Nat) (o c : Nat) : Prop where
  earlier : o < c
  opens : ∃ e, sorted[c]? = some e ∧ e.kind = .close ∧ OpensAt sorted e.symbol o ∧
    ∀ k, o < k → k < c → OpensAt sorted e.symbol k → k ∈ taken
  free : o ∉ taken

/-- The closes among the first `n` events, in their order, each with the latest opening of its symbol
that no earlier close took. -/
structure Matching (sorted : List PositionEvent) (n : Nat) (pairs : List (Nat × Nat)) : Prop where
  closes : pairs.map Prod.snd = closePlaces sorted n
  latest : ∀ earlier p later, pairs = earlier ++ p :: later →
    Latest sorted (earlier.map Prod.fst) p.1 p.2

def Joins (sorted : List PositionEvent) (p : Nat × Nat) (h : Holding) : Prop :=
  sorted[p.1]? = some h.opened ∧ sorted[p.2]? = some h.closed

/-- The close at `c` finds no opening of its symbol that the pairs leave free. -/
structure Stuck (sorted : List PositionEvent) (pairs : List (Nat × Nat)) (c : Nat)
    (e : PositionEvent) : Prop where
  close : sorted[c]? = some e ∧ e.kind = .close
  matching : Matching sorted c pairs
  taken : ∀ k, k < c → OpensAt sorted e.symbol k → k ∈ pairs.map Prod.fst

/-- What is known after the first `n` events: the pairs made so far, and the open positions with their
places, latest first. -/
structure Reached (sorted : List PositionEvent) (n : Nat) (pairs : List (Nat × Nat))
    (marked : List (Nat × PositionEvent)) : Prop where
  matching : Matching sorted n pairs
  descending : marked.Pairwise fun x y => y.1 < x.1
  free : ∀ k e, (k, e) ∈ marked ↔
    k < n ∧ sorted[k]? = some e ∧ e.kind ≠ .close ∧ k ∉ pairs.map Prod.fst

section Places

variable {n k : Nat} {e o : PositionEvent} {pairs : List (Nat × Nat)}
  {marked : List (Nat × PositionEvent)} {holdings : List Holding} {cause : Failure}

theorem closePlaces_of_close (here : sorted[n]? = some e) (close : e.kind = .close) :
    closePlaces sorted (n + 1) = closePlaces sorted n ++ [n] := by
  simp [closePlaces, List.range_succ, here, close]

theorem closePlaces_of_opening (here : sorted[n]? = some e) (opening : e.kind ≠ .close) :
    closePlaces sorted (n + 1) = closePlaces sorted n := by
  simp [closePlaces, List.range_succ, here, opening]

theorem Matching.nil (sorted : List PositionEvent) : Matching sorted 0 [] :=
  ⟨rfl, fun _ _ _ same => by simp at same⟩

theorem Matching.fst_lt_snd (matching : Matching sorted n pairs) {p : Nat × Nat}
    (member : p ∈ pairs) : p.1 < p.2 := by
  obtain ⟨earlier, later, split⟩ := List.append_of_mem member
  exact (matching.latest earlier p later split).earlier

theorem Matching.fst_lt (matching : Matching sorted n pairs) (taken : k ∈ pairs.map Prod.fst) :
    k < n := by
  obtain ⟨p, member, rfl⟩ := List.mem_map.mp taken
  have close : p.2 ∈ closePlaces sorted n := matching.closes ▸ List.mem_map.mpr ⟨p, member, rfl⟩
  have last : p.2 < n := List.mem_range.mp (List.mem_filter.mp close).1
  exact Nat.lt_trans (matching.fst_lt_snd member) last

theorem Matching.append (matching : Matching sorted n pairs) (here : sorted[n]? = some e)
    (close : e.kind = .close) (latest : Latest sorted (pairs.map Prod.fst) k n) :
    Matching sorted (n + 1) (pairs ++ [(k, n)]) where
  closes := by rw [List.map_append, matching.closes, closePlaces_of_close here close]; rfl
  latest earlier p later split := by
    -- The split is at the new pair or before it.
    rcases later.eq_nil_or_concat with rfl | ⟨rest, q, rfl⟩
    · obtain ⟨rfl, last⟩ := List.append_inj' split rfl
      cases last
      exact latest
    · rw [List.concat_eq_append, ← List.cons_append, ← List.append_assoc] at split
      exact matching.latest earlier p rest (List.append_inj' split rfl).1

theorem Matching.nodup (matching : Matching sorted n pairs) : (pairs.map Prod.fst).Nodup := by
  rw [List.nodup_iff_pairwise_ne, List.pairwise_iff_getElem]
  intro i j left right before same
  rw [List.length_map] at left right
  rw [List.getElem_map, List.getElem_map] at same
  have split : pairs = pairs.take j ++ pairs[j] :: pairs.drop (j + 1) := by simp
  refine (matching.latest _ _ _ split).free (List.mem_map.mpr ⟨pairs[i], ?_, same⟩)
  exact List.mem_take_iff_getElem.mpr ⟨i, by omega, rfl⟩

theorem Reached.opening (reached : Reached sorted n pairs marked) (here : sorted[n]? = some e)
    (opening : e.kind ≠ .close) : Reached sorted (n + 1) pairs ((n, e) :: marked) where
  matching := ⟨by rw [closePlaces_of_opening here opening, reached.matching.closes],
    reached.matching.latest⟩
  descending := List.pairwise_cons.mpr
    ⟨fun x member => ((reached.free x.1 x.2).mp member).1, reached.descending⟩
  free k d := by
    rw [List.mem_cons, reached.free, Prod.mk.injEq]
    constructor
    · rintro (⟨rfl, rfl⟩ | ⟨below, there⟩)
      · exact ⟨Nat.lt_succ_self _, here, opening, fun taken =>
          Nat.lt_irrefl _ (reached.matching.fst_lt taken)⟩
      · exact ⟨Nat.lt_succ_of_lt below, there⟩
    · rintro ⟨below, there, rest⟩
      rcases Nat.lt_succ_iff_lt_or_eq.mp below with below | rfl
      · exact .inr ⟨below, there, rest⟩
      · exact .inl ⟨rfl, Option.some.inj (there.symm.trans here)⟩

theorem Reached.latest (reached : Reached sorted n pairs marked) (here : sorted[n]? = some e)
    (close : e.kind = .close) (found : marked.find? (·.2.symbol == e.symbol) = some (k, o)) :
    Latest sorted (pairs.map Prod.fst) k n := by
  obtain ⟨earlier, later, split, -, same, other⟩ := eraseP_of_find? found
  have member : (k, o) ∈ marked := List.mem_of_find?_eq_some found
  obtain ⟨below, there, opening, free⟩ := (reached.free k o).mp member
  refine ⟨below, ⟨e, here, close, ⟨o, there, opening, by simpa using same⟩, ?_⟩, free⟩
  rintro j above before ⟨d, place, opening', symbol⟩
  by_contra untaken
  -- A free opening further on stands before the one that was found, so it has another symbol.
  have inside := (reached.free j d).mpr ⟨before, place, opening', untaken⟩
  have order := reached.descending
  rw [split] at inside order
  obtain ⟨-, order, -⟩ := List.pairwise_append.mp order
  rcases List.mem_append.mp inside with first | second
  · exact other _ first (by simp [symbol])
  · rcases List.mem_cons.mp second with same | second
    · cases same
      exact Nat.lt_irrefl _ above
    · exact Nat.lt_asymm above ((List.pairwise_cons.mp order).1 _ second)

theorem Reached.mem_eraseP {j : Nat} {d : PositionEvent} (reached : Reached sorted n pairs marked)
    (found : marked.find? (·.2.symbol == symbol) = some (k, o)) :
    (j, d) ∈ marked.eraseP (·.2.symbol == symbol) ↔ (j, d) ∈ marked ∧ j ≠ k := by
  obtain ⟨earlier, later, split, remain, -, -⟩ := eraseP_of_find? found
  have order := reached.descending
  rw [split] at order
  obtain ⟨-, below, above⟩ := List.pairwise_append.mp order
  rw [remain, split]
  constructor
  · intro member
    refine ⟨by simp only [List.mem_append, List.mem_cons] at member ⊢; tauto, ?_⟩
    rintro rfl
    rcases List.mem_append.mp member with member | member
    · exact Nat.lt_irrefl _ (above _ member (j, o) List.mem_cons_self)
    · exact Nat.lt_irrefl _ ((List.pairwise_cons.mp below).1 (j, d) member)
  · rintro ⟨member, apart⟩
    simpa [apart] using member

theorem Reached.close (reached : Reached sorted n pairs marked) (here : sorted[n]? = some e)
    (close : e.kind = .close) (found : marked.find? (·.2.symbol == e.symbol) = some (k, o)) :
    Reached sorted (n + 1) (pairs ++ [(k, n)]) (marked.eraseP (·.2.symbol == e.symbol)) where
  matching := reached.matching.append here close (reached.latest here close found)
  descending := reached.descending.sublist List.eraseP_sublist
  free j d := by
    rw [reached.mem_eraseP found, reached.free, List.map_append, List.mem_append]
    constructor
    · rintro ⟨⟨below, there, opening, untaken⟩, apart⟩
      exact ⟨Nat.lt_succ_of_lt below, there, opening, by simp [apart]; simpa using untaken⟩
    · rintro ⟨below, there, opening, untaken⟩
      rw [not_or] at untaken
      refine ⟨⟨Nat.lt_of_le_of_ne (Nat.le_of_lt_succ below) ?_, there, opening, untaken.1⟩,
        by simpa using untaken.2⟩
      rintro rfl
      exact opening (Option.some.inj (there.symm.trans here) ▸ close)

theorem Reached.stuck (reached : Reached sorted n pairs marked) (here : sorted[n]? = some e)
    (close : e.kind = .close) (missing : marked.find? (·.2.symbol == e.symbol) = none) :
    Stuck sorted pairs n e where
  close := ⟨here, close⟩
  matching := reached.matching
  taken k below := by
    rintro ⟨d, there, opening, symbol⟩
    by_contra untaken
    have inside := (reached.free k d).mpr ⟨below, there, opening, untaken⟩
    exact List.find?_eq_none.mp missing _ inside (by simp [symbol])

def Outcome (sorted : List PositionEvent) (pairs : List (Nat × Nat)) :
    Except Failure (List Holding) → Prop
  | .ok holdings => ∃ later, Matching sorted sorted.length (pairs ++ later) ∧
      List.Forall₂ (Joins sorted) later holdings
  | .error cause => ∃ later c e, Stuck sorted (pairs ++ later) c e ∧
      cause = .unmatchedClose e.symbol e.instant

theorem Reached.run {done : List PositionEvent} (split : sorted = done ++ rest)
    (reached : Reached sorted done.length pairs marked) :
    Outcome sorted pairs (pairFrom (marked.map Prod.snd) rest) := by
  induction rest generalizing done pairs marked with
  | nil =>
    rw [List.append_nil] at split
    exact ⟨[], by simpa [split] using reached.matching, .nil⟩
  | cons e rest ih =>
    have here : sorted[done.length]? = some e := by simp [split]
    have next : sorted = (done ++ [e]) ++ rest := by simp [split]
    have length : (done ++ [e]).length = done.length + 1 := by simp
    by_cases close : e.kind = .close
    · -- The open positions carry their places; the search looks at the symbols alone.
      have find : (marked.map Prod.snd).find? (·.symbol == e.symbol) =
          (marked.find? (·.2.symbol == e.symbol)).map Prod.snd := List.find?_map ..
      cases found : marked.find? (·.2.symbol == e.symbol) with
      | none =>
        rw [pairFrom_missing close (by rw [find, found]; rfl)]
        exact ⟨[], done.length, e, by simpa using reached.stuck here close found, rfl⟩
      | some x =>
        obtain ⟨k, o⟩ := x
        have there := ((reached.free k o).mp (List.mem_of_find?_eq_some found)).2.1
        have ends := ih next (length ▸ reached.close here close found)
        rw [pairFrom_close close (o := o) (by rw [find, found]; rfl), List.eraseP_map]
        simp only [Function.comp_def]
        cases run : pairFrom ((marked.eraseP (·.2.symbol == e.symbol)).map Prod.snd) rest with
        | error cause =>
          rw [run] at ends
          obtain ⟨later, c, d, stuck, text⟩ := ends
          exact ⟨(k, done.length) :: later, c, d, by simpa using stuck, text⟩
        | ok holdings =>
          rw [run] at ends
          obtain ⟨later, matching, joins⟩ := ends
          exact ⟨(k, done.length) :: later, by simpa using matching, .cons ⟨there, here⟩ joins⟩
    · rw [pairFrom_open close]
      exact ih next (length ▸ reached.opening here close)

theorem filter_eraseP_same (found : opens.find? (·.symbol == symbol) = some o) :
    (opens.eraseP (·.symbol == symbol)).filter (·.symbol == symbol) =
      (opens.filter (·.symbol == symbol)).eraseP (·.symbol == symbol) := by
  obtain ⟨earlier, later, split, remain, same, other⟩ := eraseP_of_find? found
  rw [remain, split, List.filter_append, List.filter_append, List.filter_eq_nil_iff.mpr other,
    List.filter_cons_of_pos (p := fun e : PositionEvent => e.symbol == symbol) same]
  simp only [List.nil_append]
  rw [List.eraseP_cons_of_pos (p := fun e : PositionEvent => e.symbol == symbol) same]

theorem filter_eraseP_other {other : String} (apart : other ≠ symbol)
    (found : opens.find? (·.symbol == other) = some o) :
    (opens.eraseP (·.symbol == other)).filter (·.symbol == symbol) =
      opens.filter (·.symbol == symbol) := by
  obtain ⟨earlier, later, split, remain, same, -⟩ := eraseP_of_find? found
  rw [beq_iff_eq] at same
  rw [remain, split]
  simp [same, apart]

theorem pairFrom_cons_ok (run : pairFrom opens (e :: rest) = .ok holdings) :
    e.kind ≠ .close ∧ pairFrom (e :: opens) rest = .ok holdings ∨
      e.kind = .close ∧ ∃ o later, opens.find? (·.symbol == e.symbol) = some o ∧
        pairFrom (opens.eraseP (·.symbol == e.symbol)) rest = .ok later ∧
        holdings = ⟨o, e⟩ :: later := by
  by_cases close : e.kind = .close
  · cases found : opens.find? (·.symbol == e.symbol) with
    | none => simp [pairFrom_missing close found] at run
    | some o =>
      rw [pairFrom_close close found] at run
      cases remaining : pairFrom (opens.eraseP (·.symbol == e.symbol)) rest with
      | error cause => simp [remaining, Except.map] at run
      | ok later =>
        rw [remaining] at run
        exact .inr ⟨close, o, later, rfl, rfl, (Except.ok.inj run).symm⟩
  · exact .inl ⟨close, by rwa [pairFrom_open close] at run⟩

/-- A close and the opening it takes belong to one symbol, so the events of the other symbols can be
left out. -/
theorem pairFrom_filter (symbol : String) (run : pairFrom opens rest = .ok holdings) :
    pairFrom (opens.filter (·.symbol == symbol)) (rest.filter (·.symbol == symbol)) =
      .ok (holdings.filter (·.closed.symbol == symbol)) := by
  induction rest generalizing opens holdings with
  | nil =>
    cases run
    rfl
  | cons e rest ih =>
    by_cases own : e.symbol = symbol
    · rw [List.filter_cons_of_pos (by simp [own])]
      rcases pairFrom_cons_ok run with ⟨opening, tail⟩ | ⟨close, o, later, found, tail, rfl⟩
      · rw [pairFrom_open opening, ← ih tail, List.filter_cons_of_pos (by simp [own])]
      · subst own
        have kept : (opens.filter (·.symbol == e.symbol)).find? (·.symbol == e.symbol) = some o := by
          simpa only [List.find?_filter, and_self, Bool.decide_eq_true] using found
        rw [pairFrom_close close kept, ← filter_eraseP_same found, ih tail,
          List.filter_cons_of_pos (by simp)]
        rfl
    · rw [List.filter_cons_of_neg (by simp [own])]
      rcases pairFrom_cons_ok run with ⟨-, tail⟩ | ⟨-, o, later, found, tail, rfl⟩
      · rw [← ih tail, List.filter_cons_of_neg (by simp [own])]
      · rw [← filter_eraseP_other own found, ih tail, List.filter_cons_of_neg (by simp [own])]

theorem pairFrom_closed (run : pairFrom opens rest = .ok holdings) :
    holdings.map (·.closed) = rest.filter (·.kind == .close) := by
  induction rest generalizing opens holdings with
  | nil =>
    cases run
    rfl
  | cons e rest ih =>
    rcases pairFrom_cons_ok run with ⟨opening, tail⟩ | ⟨close, o, later, found, tail, rfl⟩
    · rw [List.filter_cons_of_neg (by simpa using opening), ih tail]
    · rw [List.filter_cons_of_pos (by simp [close]), List.map_cons, ih tail]

/-- No pair closes before it opens: of its two events the opening stands first. -/
theorem StablySorted.instant_le (order : StablySorted events sorted)
    (matching : Matching sorted n pairs) (joins : List.Forall₂ (Joins sorted) pairs holdings)
    {h : Holding} (member : h ∈ holdings) : h.opened.instant ≤ h.closed.instant := by
  obtain ⟨i, bound, rfl⟩ := List.getElem_of_mem member
  obtain ⟨opened, closed⟩ := joins.get (joins.length_eq ▸ bound) bound
  obtain ⟨left, opened⟩ := List.getElem?_eq_some_iff.mp opened
  obtain ⟨right, closed⟩ := List.getElem?_eq_some_iff.mp closed
  have earlier := matching.fst_lt_snd (List.get_mem pairs ⟨i, joins.length_eq ▸ bound⟩)
  have ordered := List.pairwise_iff_getElem.mp order.ordered _ _ left right earlier
  rw [opened, closed] at ordered
  rcases ordered with less | ⟨same, -⟩
  · exact Instant.le_of_lt less
  · exact same ▸ Instant.le_refl _

/-- Pairs are made just when no symbol is closed more often than it was opened. Each close then takes
the latest opening of its symbol that is left, whatever the other symbols do; else the first close
that finds none is named. -/
theorem pair_eq_matching (events : List PositionEvent) :
    ∃ sorted, StablySorted events sorted ∧
      ((∃ holdings, pair events = .ok holdings) ↔ Balanced sorted) ∧
      (∀ holdings, pair events = .ok holdings →
        holdings.map (·.closed) = sorted.filter (·.kind == .close) ∧
        (∃ pairs, Matching sorted sorted.length pairs ∧ (pairs.map Prod.fst).Nodup ∧
          List.Forall₂ (Joins sorted) pairs holdings) ∧
        (∀ symbol, pair (events.filter (·.symbol == symbol)) =
          .ok (holdings.filter (·.closed.symbol == symbol))) ∧
        ∀ h ∈ holdings, h.opened.instant ≤ h.closed.instant) ∧
      (∀ cause, pair events = .error cause →
        ∃ pairs c e, Stuck sorted pairs c e ∧ cause = .unmatchedClose e.symbol e.instant) := by
  have order := stablySorted_mergeSort events
  have start : Reached (events.mergeSort before) ([] : List PositionEvent).length [] [] :=
    ⟨.nil _, .nil, by simp⟩
  have outcome := start.run (List.nil_append _).symm
  refine ⟨events.mergeSort before, order, ?_, fun holdings run => ?_, fun cause run => ?_⟩
  · simpa [Balanced, pair] using pairFrom_isOk_iff [] (events.mergeSort before)
  · unfold pair at run
    rw [List.map_nil, run] at outcome
    obtain ⟨pairs, matching, joins⟩ := outcome
    refine ⟨pairFrom_closed run, ⟨pairs, matching, matching.nodup, joins⟩, fun symbol => ?_,
      fun h member => order.instant_le matching joins member⟩
    rw [pair_filter]
    exact pairFrom_filter symbol run
  · unfold pair at run
    rw [List.map_nil, run] at outcome
    exact outcome

end Places

end PositionEvent
end StrategySearch
