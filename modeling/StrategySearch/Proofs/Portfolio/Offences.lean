import Mathlib.Data.List.Chain
import StrategySearch.Proofs.Portfolio.Series

/-! Where a series of snapshots first breaks a rule.

The check of a series names the first neighbours whose instants do not increase. Only if there are
none it names the first snapshot that holds a symbol twice, with the first such symbol.
-/

set_option autoImplicit false

namespace StrategySearch

namespace Snapshot

-- A symbol is repeated if it was seen before or stands among the positions that were passed.
theorem firstRepeat?_eq_some_iff {seen : List String} {positions : List Position}
    {symbol : String} :
    firstRepeat? seen positions = some symbol ↔ ∃ passed p rest,
      positions = passed ++ p :: rest ∧ p.symbol = symbol ∧ (passed.map (·.symbol)).Nodup ∧
        (∀ q ∈ passed, q.symbol ∉ seen) ∧ (symbol ∈ seen ∨ symbol ∈ passed.map (·.symbol)) := by
  induction positions generalizing seen with
  | nil => simp [firstRepeat?]
  | cons p rest ih =>
    simp only [firstRepeat?, List.contains_iff_mem]
    -- A symbol that was seen ends the walk, whatever follows.
    by_cases again : p.symbol ∈ seen
    · rw [if_pos again, Option.some.injEq]
      constructor
      · rintro rfl
        exact ⟨[], p, rest, rfl, rfl, List.nodup_nil, List.forall_mem_nil _, .inl again⟩
      · rintro ⟨passed, q, rest', same, rfl, -, fresh, -⟩
        cases passed with
        | nil => exact congrArg Position.symbol (List.cons.inj same).1
        | cons first passed =>
          obtain ⟨rfl, -⟩ := List.cons.inj same
          exact absurd again (fresh p List.mem_cons_self)
    · rw [if_neg again, ih]
      constructor
      · rintro ⟨passed, q, rest', rfl, rfl, unique, fresh, known⟩
        have new : p.symbol ∉ passed.map (·.symbol) := by
          intro member
          obtain ⟨r, there, same⟩ := List.mem_map.mp member
          exact fresh r there (same ▸ List.mem_cons_self)
        refine ⟨p :: passed, q, rest', rfl, rfl, List.nodup_cons.mpr ⟨new, unique⟩, ?_, ?_⟩
        · intro r member
          rcases List.mem_cons.mp member with rfl | member
          · exact again
          · exact fun old => fresh r member (List.mem_cons_of_mem _ old)
        · simpa [or_assoc, or_comm, or_left_comm] using known
      · rintro ⟨passed, q, rest', same, rfl, unique, fresh, known⟩
        cases passed with
        | nil =>
          obtain ⟨rfl, -⟩ := List.cons.inj same
          simp [again] at known
        | cons first passed =>
          obtain ⟨rfl, rfl⟩ := List.cons.inj same
          obtain ⟨new, unique⟩ := List.nodup_cons.mp unique
          refine ⟨passed, q, rest', rfl, rfl, unique, ?_, ?_⟩
          · intro r member old
            rcases List.mem_cons.mp old with twice | old
            · exact new (List.mem_map.mpr ⟨r, member, twice⟩)
            · exact fresh r (List.mem_cons_of_mem _ member) old
          · simpa [or_assoc, or_comm, or_left_comm] using known

theorem duplicate?_eq_some_iff {s : Snapshot} {symbol : String} :
    s.duplicate? = some symbol ↔ ∃ passed p rest, s.positions = passed ++ p :: rest ∧
      p.symbol = symbol ∧ (passed.map (·.symbol)).Nodup ∧ symbol ∈ passed.map (·.symbol) := by
  simp [duplicate?, firstRepeat?_eq_some_iff]

theorem firstDisorder?_eq_some_iff {series : List Snapshot} {before after : Snapshot} :
    firstDisorder? series = some (before, after) ↔ ∃ earlier later,
      series = earlier ++ before :: after :: later ∧
        (earlier ++ [before]).IsChain (fun s t => s.instant < t.instant) ∧
        ¬ before.instant < after.instant := by
  induction series with
  | nil => simp [firstDisorder?]
  | cons s rest ih =>
    cases rest with
    | nil =>
      refine iff_of_false (by simp [firstDisorder?]) ?_
      rintro ⟨earlier, later, same, -⟩
      have lengths := congrArg List.length same
      simp only [List.length_append, List.length_cons, List.length_nil] at lengths
      omega
    | cons t rest =>
      simp only [firstDisorder?]
      by_cases grows : s.instant < t.instant
      · rw [if_pos grows, ih]
        constructor
        · rintro ⟨earlier, later, same, chain, stuck⟩
          refine ⟨s :: earlier, later, by rw [same, List.cons_append], ?_, stuck⟩
          -- The next snapshot is the head of what was passed, so the chain grows in front.
          rw [List.cons_append]
          cases earlier with
          | nil =>
            obtain ⟨rfl, -⟩ := List.cons.inj same
            exact List.isChain_pair.mpr grows
          | cons first earlier =>
            obtain ⟨rfl, -⟩ := List.cons.inj same
            exact List.isChain_cons_cons.mpr ⟨grows, chain⟩
        · rintro ⟨earlier, later, same, chain, stuck⟩
          cases earlier with
          | nil =>
            obtain ⟨rfl, rest⟩ := List.cons.inj same
            obtain ⟨rfl, -⟩ := List.cons.inj rest
            exact absurd grows stuck
          | cons first earlier =>
            exact ⟨earlier, later, (List.cons.inj same).2, chain.tail, stuck⟩
      · rw [if_neg grows, Option.some.injEq, Prod.mk.injEq]
        constructor
        · rintro ⟨rfl, rfl⟩
          exact ⟨[], rest, rfl, List.isChain_singleton _, grows⟩
        · rintro ⟨earlier, later, same, chain, stuck⟩
          cases earlier with
          | nil =>
            obtain ⟨rfl, rest⟩ := List.cons.inj same
            exact ⟨rfl, (List.cons.inj rest).1⟩
          | cons first earlier =>
            -- Otherwise these neighbours would be part of the chain.
            obtain ⟨rfl, rest⟩ := List.cons.inj same
            cases earlier with
            | nil =>
              obtain ⟨rfl, -⟩ := List.cons.inj rest
              exact absurd (List.isChain_pair.mp chain) grows
            | cons second earlier =>
              obtain ⟨rfl, -⟩ := List.cons.inj rest
              exact absurd (List.isChain_cons_cons.mp chain).1 grows

end Snapshot

namespace Series

/-- The first offence of a series, judged by order and then by duplicates. -/
inductive Offends (series : List Snapshot) : Failure → Prop where
  | disorder {earlier later : List Snapshot} {before after : Snapshot} :
      series = earlier ++ before :: after :: later →
      (earlier ++ [before]).IsChain (fun s t => s.instant < t.instant) →
      ¬ before.instant < after.instant →
      Offends series (.invalid "snapshot timestamps must be strictly increasing"
        s!"{before.instant} followed by {after.instant}")
  | duplicate {earlier later : List Snapshot} {s : Snapshot} {passed rest : List Position}
      {p : Position} :
      series.Pairwise (fun s t => s.instant < t.instant) →
      series = earlier ++ s :: later →
      (∀ t ∈ earlier, (t.positions.map (·.symbol)).Nodup) →
      s.positions = passed ++ p :: rest →
      (passed.map (·.symbol)).Nodup → p.symbol ∈ passed.map (·.symbol) →
      Offends series (.invalid s!"duplicate position in snapshot {s.instant}" p.symbol)

variable {series : List Snapshot} {cause : Failure}

theorem findSome?_duplicate_eq_some_iff {s : Snapshot} {symbol : String} :
    (series.findSome? fun s => s.duplicate?.map fun symbol => (s, symbol)) = some (s, symbol) ↔
      ∃ earlier later, series = earlier ++ s :: later ∧ s.duplicate? = some symbol ∧
        ∀ t ∈ earlier, (t.positions.map (·.symbol)).Nodup := by
  simp only [List.findSome?_eq_some_iff, Option.map_eq_some_iff, Option.map_eq_none_iff,
    Snapshot.duplicate?_eq_none_iff, Prod.mk.injEq]
  constructor
  · rintro ⟨earlier, t, later, split, ⟨symbol', found, rfl, rfl⟩, clean⟩
    exact ⟨earlier, later, split, found, clean⟩
  · rintro ⟨earlier, later, split, found, clean⟩
    exact ⟨earlier, s, later, split, ⟨symbol, found, rfl, rfl⟩, clean⟩

theorem offends_iff : Offends series cause ↔
    (∃ before after, Snapshot.firstDisorder? series = some (before, after) ∧
      cause = .invalid "snapshot timestamps must be strictly increasing"
        s!"{before.instant} followed by {after.instant}") ∨
    Snapshot.firstDisorder? series = none ∧
      ∃ s symbol, (series.findSome? fun s => s.duplicate?.map fun symbol => (s, symbol)) =
          some (s, symbol) ∧
        cause = .invalid s!"duplicate position in snapshot {s.instant}" symbol := by
  simp only [Snapshot.firstDisorder?_eq_some_iff, firstDisorder?_eq_none_iff,
    findSome?_duplicate_eq_some_iff, Snapshot.duplicate?_eq_some_iff]
  constructor
  · intro offends
    cases offends with
    | disorder split chain stuck => exact .inl ⟨_, _, ⟨_, _, split, chain, stuck⟩, rfl⟩
    | duplicate increasing split clean held unique again =>
      exact .inr ⟨increasing, _, _, ⟨_, _, split, ⟨_, _, _, held, rfl, unique, again⟩, clean⟩, rfl⟩
  · rintro (⟨before, after, ⟨earlier, later, split, chain, stuck⟩, rfl⟩ |
      ⟨increasing, s, _, ⟨_, _, split, ⟨_, _, _, held, rfl, unique, again⟩, clean⟩, rfl⟩)
    · exact .disorder split chain stuck
    · exact .duplicate increasing split clean held unique again

theorem validateSeries_eq_error_iff :
    Snapshot.validateSeries series = .error cause ↔ Offends series cause := by
  rw [offends_iff]
  unfold Snapshot.validateSeries
  cases Snapshot.firstDisorder? series with
  | some pair => simp [eq_comm, Prod.ext_iff]
  | none =>
    cases series.findSome? fun s => s.duplicate?.map fun symbol => (s, symbol) with
    | some pair => simp [eq_comm, Prod.ext_iff]
    | none => simp

end Series
end StrategySearch
