import StrategySearch.Proofs.Propose.Climb

/-!
What a signature settles. It belongs to one candidate, whatever the names and texts are, so a search
that keeps signatures knows which candidates it was told of: those it passes over, in its queue, among
its samples or among the neighbours, are no others.
-/

set_option autoImplicit false

namespace StrategySearch

namespace SearchSpace

variable {space : SearchSpace} {current : ParameterSet} {multipliers : List Float} {realSteps : Nat}
  {seen taken : List String} {found : List ParameterSet} {tried : ParameterSet → Prop}

theorem neighbours_untried (known : ∀ c : ParameterSet, c.signature ∈ seen ↔ tried c)
    (ok : space.neighbours multipliers realSteps current seen = .ok (found, taken)) :
    ∃ all, space.variations multipliers realSteps current = .ok all ∧
      ∀ v, v ∈ found ↔ v ∈ all ∧ ¬ tried v := by
  obtain ⟨all, varied, admits⟩ := neighbours_admits ok
  refine ⟨all, varied, fun v => ?_⟩
  rw [← known]
  constructor
  · exact fun member => ⟨admits.chosen v member, admits.new v member⟩
  · rintro ⟨member, free⟩
    -- What took the signature of an untried variation is a neighbour, and so the variation itself.
    have covered := (admits.seen_iff v.signature).mp (admits.covers v member)
    obtain ⟨c, inside, same⟩ := List.mem_map.mp (covered.resolve_left free)
    exact ByName.signature_injective same ▸ inside

end SearchSpace

namespace LocalSearch

variable {γ : Type} {space : SearchSpace} {s : LocalSearch γ} {tried : ParameterSet → Prop}
  {c : ParameterSet}

theorem update_evaluated (s : LocalSearch γ) (parameters : ParameterSet) (objective : Float) :
    c.signature ∈ (s.update parameters objective).evaluated ↔
      c.signature ∈ s.evaluated ∨ c = parameters := by
  have one : c = parameters ↔ c.signature = parameters.signature :=
    ⟨congrArg _, ByName.signature_injective⟩
  simp only [update, List.contains_iff_mem, one]
  split
  · next there => exact (or_iff_left_of_imp fun same => same ▸ there).symm
  · rw [List.mem_cons, or_comm]

theorem expand_evaluated {ready : LocalSearch γ} (ok : s.expand space = .ok ready) :
    ready.evaluated = s.evaluated := by
  unfold expand at ok
  split at ok
  · cases ok
    rfl
  · simp only at ok
    split at ok
    · cases ok
      rfl
    · obtain ⟨queued, -, ok⟩ := bind_eq_ok_iff.mp ok
      cases ok
      rfl

section

variable [WordSource γ]

theorem propose_evaluated (space : SearchSpace) (s : LocalSearch γ) :
    (s.propose space).2.evaluated = s.evaluated := by
  unfold propose
  match found : s.expand space with
  | .error _ => rfl
  | .ok ready =>
    rw [← expand_evaluated found]
    match taken : dequeue ready.evaluated ready.queue with
    | (some _, _) => simp only [taken]
    | (none, _) =>
      simp only [taken]
      rfl

/-- What a search takes for tried was tried. It skips nothing else of a queue, draws no other sample
again, and leaves out no other neighbour. -/
structure Knows (space : SearchSpace) (tried : ParameterSet → Prop) (s : LocalSearch γ) : Prop where
  evaluated : ∀ c, s.isEvaluated c = true ↔ tried c
  dequeued : ∀ queue, ∃ skipped,
    queue = skipped ++ (dequeue s.evaluated queue).1.toList ++ (dequeue s.evaluated queue).2 ∧
      (∀ c ∈ skipped, tried c) ∧ ∀ c ∈ (dequeue s.evaluated queue).1, ¬ tried c
  drawn : ∀ fuel c, ¬ tried c → (drawNew space s.evaluated fuel c : Draw γ ParameterSet) = pure c
  neighbours : ∀ multipliers realSteps current found taken,
    space.neighbours multipliers realSteps current s.evaluated = .ok (found, taken) →
      ∃ all, space.variations multipliers realSteps current = .ok all ∧
        ∀ v, v ∈ found ↔ v ∈ all ∧ ¬ tried v

theorem knows_of_evaluated (known : ∀ c : ParameterSet, c.signature ∈ s.evaluated ↔ tried c) :
    Knows space tried s where
  evaluated c := by rw [isEvaluated, List.contains_iff_mem, known]
  dequeued queue := by
    match taken : dequeue s.evaluated queue with
    | (some candidate, rest) =>
      obtain ⟨skipped, parts, old, new⟩ := dequeue_some taken
      refine ⟨skipped, by simpa using parts, fun c member => (known c).mp (old c member), ?_⟩
      rintro _ ⟨⟩
      exact mt (known candidate).mpr new
    | (none, rest) =>
      obtain ⟨rfl, old⟩ := dequeue_none taken
      exact ⟨queue, by simp, fun c member => (known c).mp (old c member), nofun⟩
  drawn fuel c untried := by
    cases fuel with
    | zero => rfl
    | succ fuel =>
      rw [drawNew, if_neg]
      rw [List.contains_iff_mem, known]
      exact untried
  neighbours _ _ _ _ _ := SearchSpace.neighbours_untried known

namespace Session

theorem step_evaluated (s : Session γ) (call : Call) :
    c.signature ∈ (s.step space call).search.evaluated ↔
      c.signature ∈ s.search.evaluated ∨ ∃ objective, call = .update c objective := by
  cases call with
  | update parameters objective =>
    refine (update_evaluated s.search parameters objective).trans (or_congr_right ⟨?_, ?_⟩)
    · rintro rfl
      exact ⟨objective, rfl⟩
    · rintro ⟨_, same⟩
      exact (Call.update.inj same).1.symm
  | propose =>
    have kept : (s.step space .propose).search.evaluated = s.search.evaluated := by
      rw [← propose_evaluated space s.search]
      simp only [step]
      split
      · next candidate after proposed => rw [proposed]; rfl
      · next after proposed => rw [proposed]
    have none : ¬ ∃ objective, Call.propose = .update c objective := by
      rintro ⟨objective, same⟩
      cases same
    rw [kept, or_iff_left none]

theorem foldl_evaluated (s : Session γ) (calls : List Call) :
    c.signature ∈ (calls.foldl (step space) s).search.evaluated ↔
      c.signature ∈ s.search.evaluated ∨ ∃ objective, Call.update c objective ∈ calls := by
  induction calls generalizing s with
  | nil => simp
  | cons call calls ih =>
    rw [List.foldl_cons, ih, step_evaluated, or_assoc, ← exists_or]
    simp only [List.mem_cons, eq_comm]

/-- Candidates of one signature have the same names with the same values, and a search takes a candidate
for tried if it was told of that very candidate. -/
theorem signature_identifies :
    (∀ first second : ParameterSet, first.signature = second.signature ↔
      first.names = second.names ∧ ∀ name, first.get? name = second.get? name) ∧
    ∀ (space : SearchSpace) (source : γ) (calls : List Call),
      Knows space (fun c => ∃ objective, Call.update c objective ∈ calls)
        (run space source calls).search := by
  refine ⟨fun first second => ⟨fun same => ?_, fun same => ?_⟩, fun space source calls => ?_⟩
  · cases ByName.signature_injective same
    exact ⟨rfl, fun _ => rfl⟩
  · rw [ByName.ext_get? same.2]
  · refine knows_of_evaluated fun c => ?_
    rw [run, foldl_evaluated]
    exact or_iff_right (List.not_mem_nil (a := c.signature))

end Session
end
end LocalSearch
end StrategySearch
