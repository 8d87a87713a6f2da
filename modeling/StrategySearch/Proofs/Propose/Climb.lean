import StrategySearch.Proofs.Double.Order
import StrategySearch.Proofs.Propose.Local
import StrategySearch.Proofs.Signature
import StrategySearch.Proofs.Space.Neighbours

/-! What hill climbing proposes over its whole life.

The incumbent is the first of the best that was told. The queue holds neighbours of the candidate that
was expanded last. That may be another one than the incumbent, as long as nothing is proposed: a
proposal expands the incumbent first. Since a signature belongs to one candidate only, an expansion
that is skipped was made for the incumbent itself.
-/

set_option autoImplicit false

namespace StrategySearch

namespace LocalSearch

inductive Call where
  | propose
  | update (parameters : ParameterSet) (objective : Float)

def Call.told? : Call → Option (ParameterSet × Float)
  | .propose => none
  | .update parameters objective => some (parameters, objective)

/-- A search with what it was told and what it proposed, latest first. -/
structure Session (γ : Type) where
  search : LocalSearch γ
  told : List (ParameterSet × Float)
  /-- Each proposal with the signature of the candidate that was expanded by then. -/
  proposed : List (Option String × ParameterSet)

/-- Samples that are drawn from a source in turn, with what they leave of it. -/
inductive Draws {γ : Type} [WordSource γ] (space : SearchSpace) :
    γ → List ParameterSet → γ → Prop where
  | none {source : γ} : Draws space source [] source
  | next {source source' rest : γ} {first : ParameterSet} {others : List ParameterSet} :
      space.sample.run.run source = (.ok first, source') → Draws space source' others rest →
      Draws space source (first :: others) rest

variable {γ : Type} {space : SearchSpace}

/-- The first of the best that was told, the oldest first: nothing before it comes up to it and
nothing after it is above it. -/
inductive FirstTold : List (ParameterSet × Float) → Option (ParameterSet × Float) → Prop where
  | nothing : FirstTold [] none
  | split {before after : List (ParameterSet × Float)} {best : ParameterSet × Float} :
      (∀ b ∈ before, ¬ best.2 ≤ b.2) → (∀ a ∈ after, ¬ best.2 < a.2) →
      FirstTold (before ++ best :: after) (some best)

namespace FirstTold

variable {told : List (ParameterSet × Float)} {s : LocalSearch γ}

theorem mem {best : ParameterSet × Float} (first : FirstTold told (some best)) : best ∈ told := by
  cases first with
  | split => exact List.mem_append_right _ List.mem_cons_self

theorem update (first : FirstTold told s.incumbent) (parameters : ParameterSet) (objective : Float) :
    FirstTold (told ++ [(parameters, objective)]) (s.update parameters objective).incumbent := by
  unfold LocalSearch.update
  generalize s.incumbent = incumbent at first
  cases first with
  | nothing => exact @FirstTold.split [] [] (parameters, objective) nofun nofun
  | @split before after best lower notHigher =>
    by_cases higher : best.2 < objective
    · simp only [higher, decide_true, if_true]
      -- What came up to the new best would have been above the old one.
      refine @FirstTold.split _ [] (parameters, objective) (fun b member reaches => ?_) nofun
      have above : best.2 < b.2 := Double.lt_of_lt_of_le higher reaches
      rcases List.mem_append.mp member with member | member
      · exact lower b member (Double.le_of_lt above)
      · rcases List.mem_cons.mp member with rfl | member
        · exact Double.not_lt_self _ above
        · exact notHigher b member above
    · simp only [higher, decide_false, Bool.false_eq_true, if_false]
      rw [List.append_assoc, List.cons_append]
      refine .split lower fun a member => ?_
      rcases List.mem_append.mp member with member | member
      · exact notHigher a member
      · rwa [List.mem_singleton.mp member]

end FirstTold

theorem dequeue_some {evaluated : List String} {queue rest : List ParameterSet}
    {candidate : ParameterSet} (taken : dequeue evaluated queue = (some candidate, rest)) :
    ∃ skipped, queue = skipped ++ candidate :: rest ∧
      (∀ c ∈ skipped, c.signature ∈ evaluated) ∧ candidate.signature ∉ evaluated := by
  induction queue with
  | nil => cases taken
  | cons first others ih =>
    simp only [dequeue, List.contains_iff_mem] at taken
    split at taken
    · next old =>
      obtain ⟨skipped, rfl, each, new⟩ := ih taken
      exact ⟨first :: skipped, rfl, List.forall_mem_cons.mpr ⟨old, each⟩, new⟩
    · next new =>
      cases taken
      exact ⟨[], rfl, List.forall_mem_nil _, new⟩

theorem dequeue_none {evaluated : List String} {queue rest : List ParameterSet}
    (taken : dequeue evaluated queue = (none, rest)) :
    rest = [] ∧ ∀ c ∈ queue, c.signature ∈ evaluated := by
  induction queue with
  | nil =>
    cases taken
    exact ⟨rfl, nofun⟩
  | cons first others ih =>
    simp only [dequeue, List.contains_iff_mem] at taken
    split at taken
    · next old => exact ⟨(ih taken).1, List.forall_mem_cons.mpr ⟨old, (ih taken).2⟩⟩
    · cases taken

section

variable [WordSource γ]

theorem sample_ok (fits : space.Fits) (source : γ) :
    ∃ candidate rest, space.sample.run.run source = (.ok candidate, rest) := by
  obtain ⟨candidate, drawn, -⟩ := (SearchSpace.answers fits).1 source
  exact ⟨candidate, _, Prod.ext drawn rfl⟩

theorem drawNew_draws (fits : space.Fits) (evaluated : List String) (fuel : Nat) (source : γ)
    (first : ParameterSet) : ∃ passed others candidate rest,
      (drawNew space evaluated fuel first).run.run source = (.ok candidate, rest) ∧
      first :: others = passed ++ [candidate] ∧ Draws space source others rest ∧
      (∀ p ∈ passed, p.signature ∈ evaluated) ∧ passed.length ≤ fuel ∧
      (candidate.signature ∈ evaluated → passed.length = fuel) := by
  induction fuel generalizing source first with
  | zero => exact ⟨[], [], first, source, rfl, rfl, .none, nofun, le_rfl, fun _ => rfl⟩
  | succ fuel ih =>
    simp only [drawNew, List.contains_iff_mem]
    split
    · next old =>
      obtain ⟨next, source', drawn⟩ := sample_ok fits source
      obtain ⟨passed, others, candidate, rest, drawn', same, draws, each, few, full⟩ :=
        ih source' next
      refine ⟨first :: passed, next :: others, candidate, rest, ?_, by rw [same]; rfl,
        .next drawn draws, List.forall_mem_cons.mpr ⟨old, each⟩, Nat.succ_le_succ few,
        fun scored => congrArg Nat.succ (full scored)⟩
      rw [Draw.run_bind drawn, drawn']
    · next new =>
      exact ⟨[], [], first, source, rfl, rfl, .none, nofun, Nat.zero_le _, fun old => absurd old new⟩

theorem random_draws (fits : space.Fits) (evaluated : List String) (source : γ) :
    ∃ passed candidate rest, (random space evaluated).run.run source = (.ok candidate, rest) ∧
      Draws space source (passed ++ [candidate]) rest ∧
      (∀ p ∈ passed, p.signature ∈ evaluated) ∧ passed.length ≤ retries ∧
      (candidate.signature ∈ evaluated → passed.length = retries) := by
  obtain ⟨first, source', drawn⟩ := sample_ok fits source
  obtain ⟨passed, others, candidate, rest, drawn', same, draws, bounds⟩ :=
    drawNew_draws fits evaluated retries source' first
  refine ⟨passed, candidate, rest, ?_, same ▸ .next drawn draws, bounds⟩
  rw [random, Draw.run_bind drawn, drawn']

end

namespace Session

def start (source : γ) : Session γ := ⟨LocalSearch.start source, [], []⟩

def record (s : Session γ) (after : LocalSearch γ) (candidate : ParameterSet) : Session γ :=
  { s with search := after, proposed := (after.expanded, candidate) :: s.proposed }

/-- A proposal that fails leaves no record. -/
def step [WordSource γ] (space : SearchSpace) (s : Session γ) : Call → Session γ
  | .update parameters objective =>
    { s with
      search := s.search.update parameters objective
      told := (parameters, objective) :: s.told }
  | .propose =>
    match s.search.propose space with
    | (.ok candidate, after) => s.record after candidate
    | (.error _, after) => { s with search := after }

def run [WordSource γ] (space : SearchSpace) (source : γ) (calls : List Call) : Session γ :=
  calls.foldl (step space) (start source)

def Scored (s : Session γ) (candidate : ParameterSet) : Prop :=
  ∃ t ∈ s.told, t.1.signature = candidate.signature

/-- What was proposed since a candidate was expanded, if it is the last one that was. -/
def since (s : Session γ) (best : ParameterSet) : List ParameterSet :=
  (s.proposed.takeWhile (·.1 == some best.signature)).map Prod.snd

/-- The current incumbent has one value replaced, which gives a candidate that was not scored. A value
that is no number differs from itself, so it is said besides that the candidate is another one. -/
structure Climbs (space : SearchSpace) (s : Session γ) (candidate : ParameterSet) : Prop where
  replaces : ∃ best ∈ s.search.incumbent, space.Replaces best.1 candidate ∧ candidate ≠ best.1
  unscored : ¬ s.Scored candidate

/-- A sample is taken, once the variations of the incumbent are used up. It was scored before only if
so were as many others that were passed over for it. -/
structure Wanders [WordSource γ] (space : SearchSpace) (s : Session γ) (candidate : ParameterSet)
    (rest : γ) : Prop where
  exhausted : ∀ best ∈ s.search.incumbent, ∃ all,
    space.variations multipliers realSteps best.1 = .ok all ∧
      ∀ v ∈ all, s.Scored v ∨ v ∈ s.since best.1
  drawn : ∃ passed, Draws space s.search.source (passed ++ [candidate]) rest ∧
    (∀ p ∈ passed, s.Scored p) ∧ passed.length ≤ retries ∧
      (s.Scored candidate → passed.length = retries)

def Expanded (s : Session γ) : Prop :=
  ∀ best ∈ s.search.incumbent, s.search.expanded = some best.1.signature

/-- The queue belongs to the candidate that was expanded, and of its variations nothing is lost. -/
structure Coherent (space : SearchSpace) (s : Session γ) : Prop where
  evaluated : ∀ c : ParameterSet, c.signature ∈ s.search.evaluated ↔ s.Scored c
  first : FirstTold s.told.reverse s.search.incumbent
  idle : s.search.incumbent = none → s.search.queue = []
  queued : ∀ best : ParameterSet, s.search.expanded = some best.signature →
    ∀ c ∈ s.search.queue, space.Replaces best c
  covered : ∀ best : ParameterSet, s.search.expanded = some best.signature → ∃ all,
    space.variations multipliers realSteps best = .ok all ∧
      ∀ v ∈ all, s.Scored v ∨ v ∈ s.since best ∨ v ∈ s.search.queue

variable {s : Session γ} {candidate : ParameterSet}

theorem Coherent.known (coherent : s.Coherent space) {best : ParameterSet × Float}
    (found : s.search.incumbent = some best) : s.Scored best.1 :=
  ⟨best, List.mem_reverse.mp (found ▸ coherent.first).mem, rfl⟩

theorem start_coherent (source : γ) : (start source).Coherent space where
  evaluated c := by simp [start, LocalSearch.start, Scored]
  first := .nothing
  idle _ := rfl
  queued _ := nofun
  covered _ := nofun

theorem update_coherent [WordSource γ] (coherent : s.Coherent space) (parameters : ParameterSet)
    (objective : Float) : (s.step space (.update parameters objective)).Coherent space where
  evaluated c := by
    have earlier := coherent.evaluated c
    simp only [Scored] at earlier
    simp only [step, LocalSearch.update, Scored, List.contains_iff_mem, List.mem_cons,
      exists_eq_or_imp, ← earlier]
    split
    · next there =>
      refine ⟨.inr, ?_⟩
      rintro (same | inside)
      · exact same ▸ there
      · exact inside
    · rw [List.mem_cons, eq_comm]
  first := by
    simp only [step, List.reverse_cons]
    exact coherent.first.update parameters objective
  idle unknown := by
    have first := coherent.first.update parameters objective
    rw [show (s.search.update parameters objective).incumbent = none from unknown] at first
    generalize told : s.told.reverse ++ [(parameters, objective)] = all at first
    cases first
    exact absurd told (by simp)
  queued := coherent.queued
  covered best expanded := by
    obtain ⟨all, varied, each⟩ := coherent.covered best expanded
    exact ⟨all, varied, fun v member =>
      (each v member).imp_left (Exists.imp fun _ => And.imp_left (List.mem_cons_of_mem _))⟩

theorem expand_coherent (fits : space.Fits) (coherent : s.Coherent space) :
    ∃ ready, s.search.expand space = .ok ready ∧
      ({ s with search := ready } : Session γ).Coherent space ∧
      ({ s with search := ready } : Session γ).Expanded ∧
      ready.incumbent = s.search.incumbent ∧ ready.source = s.search.source := by
  unfold expand
  cases incumbent : s.search.incumbent with
  | none =>
    refine ⟨s.search, rfl, coherent, fun best found => ?_, incumbent, rfl⟩
    cases incumbent.symm.trans found
  | some best =>
    obtain ⟨best, objective⟩ := best
    simp only
    split
    · next marked =>
      refine ⟨s.search, rfl, coherent, fun other found => ?_, incumbent, rfl⟩
      cases incumbent.symm.trans found
      exact marked
    · obtain ⟨⟨queue, taken⟩, found⟩ :=
        SearchSpace.neighbours_ok fits multipliers realSteps best s.search.evaluated
      obtain ⟨replace, -, -, takes, all, varied, covers⟩ := SearchSpace.neighbours_spec found
      rw [found]
      -- The mark is the signature of the incumbent, which no other candidate has.
      have marks : ∀ {other : ParameterSet}, some best.signature = some other.signature →
          best = other := fun same => ByName.signature_injective (Option.some.inj same)
      refine ⟨_, rfl, ⟨coherent.evaluated, incumbent ▸ coherent.first, nofun,
        fun other marked => ?_, fun other marked => ?_⟩, fun other found => ?_, rfl, rfl⟩
      · obtain rfl := marks marked
        exact replace
      · obtain rfl := marks marked
        refine ⟨all, varied, fun v member => ?_⟩
        rcases (takes v.signature).mp (covers v member) with old | new
        · exact .inl ((coherent.evaluated v).mp old)
        · obtain ⟨c, inside, same⟩ := List.mem_map.mp new
          exact .inr (.inr (ByName.signature_injective same ▸ inside))
      · cases found
        rfl

theorem since_record {queue : List ParameterSet} {source : γ} {best : ParameterSet}
    (marked : s.search.expanded = some best.signature) :
    (s.record { s.search with queue := queue, source := source } candidate).since best =
      candidate :: s.since best := by
  simp [Session.since, record, marked]

theorem record_coherent {queue : List ParameterSet} (coherent : s.Coherent space)
    (kept : ∀ c ∈ queue, c ∈ s.search.queue)
    (lost : ∀ c ∈ s.search.queue, c ∈ queue ∨ c = candidate ∨ s.Scored c) (source : γ) :
    (s.record { s.search with queue := queue, source := source } candidate).Coherent space where
  evaluated := coherent.evaluated
  first := coherent.first
  idle unknown := List.eq_nil_iff_forall_not_mem.mpr fun c inside => by
    simpa [coherent.idle unknown] using kept c inside
  queued best marked c inside := coherent.queued best marked c (kept c inside)
  covered best marked := by
    obtain ⟨all, varied, each⟩ := coherent.covered best marked
    refine ⟨all, varied, fun v member => ?_⟩
    have mark : s.search.expanded = some best.signature := marked
    rw [since_record mark, List.mem_cons]
    rcases each v member with scored | since | queued
    · exact .inl scored
    · exact .inr (.inl (.inr since))
    · rcases lost v queued with inside | rfl | scored
      · exact .inr (.inr inside)
      · exact .inr (.inl (.inl rfl))
      · exact .inl scored

theorem dequeue_climbs {queue : List ParameterSet} (coherent : s.Coherent space)
    (expanded : s.Expanded)
    (taken : dequeue s.search.evaluated s.search.queue = (some candidate, queue)) :
    Climbs space s candidate ∧
      (s.record { s.search with queue := queue } candidate).Coherent space := by
  obtain ⟨skipped, parts, old, new⟩ := dequeue_some taken
  have kept : ∀ c ∈ queue, c ∈ s.search.queue := fun c mem => by simp [parts, mem]
  have lost : ∀ c ∈ s.search.queue, c ∈ queue ∨ c = candidate ∨ s.Scored c := fun c mem => by
    simp only [parts, List.mem_append, List.mem_cons] at mem
    rcases mem with out | rfl | mem
    · exact .inr (.inr ((coherent.evaluated c).mp (old c out)))
    · exact .inr (.inl rfl)
    · exact .inl mem
  have inside : candidate ∈ s.search.queue := by simp [parts]
  refine ⟨⟨?_, mt (coherent.evaluated candidate).mpr new⟩, record_coherent coherent kept lost _⟩
  cases found : s.search.incumbent with
  | none => simp [coherent.idle found] at inside
  | some best =>
    refine ⟨best, rfl, coherent.queued best.1 (expanded best found) candidate inside, ?_⟩
    rintro rfl
    exact new ((coherent.evaluated _).mpr (coherent.known found))

variable [WordSource γ]

theorem random_wanders {queue : List ParameterSet} (fits : space.Fits) (coherent : s.Coherent space)
    (expanded : s.Expanded) (taken : dequeue s.search.evaluated s.search.queue = (none, queue)) :
    ∃ candidate rest,
      (random space s.search.evaluated).run.run s.search.source = (.ok candidate, rest) ∧
      Wanders space s candidate rest ∧
      (s.record { s.search with queue := queue, source := rest } candidate).Coherent space := by
  obtain ⟨rfl, old⟩ := dequeue_none taken
  obtain ⟨passed, candidate, rest, drawn, draws, each, few, full⟩ :=
    random_draws fits s.search.evaluated s.search.source
  have scored (c : ParameterSet) := coherent.evaluated c
  have kept : ∀ c ∈ ([] : List ParameterSet), c ∈ s.search.queue := nofun
  have lost : ∀ c ∈ s.search.queue, c ∈ [] ∨ c = candidate ∨ s.Scored c := fun c mem =>
    .inr (.inr ((scored c).mp (old c mem)))
  refine ⟨candidate, rest, drawn, ⟨fun best found => ?_, passed, draws, fun p mem => ?_, few,
    fun again => full ((scored candidate).mpr again)⟩, record_coherent coherent kept lost rest⟩
  · obtain ⟨all, varied, left⟩ := coherent.covered best.1 (expanded best found)
    refine ⟨all, varied, fun v member => ?_⟩
    rcases left v member with done | since | queued
    · exact .inl done
    · exact .inr since
    · exact .inl ((scored v).mp (old v queued))
  · exact (scored p).mp (each p mem)

theorem propose_spec (fits : space.Fits) (coherent : s.Coherent space) :
    ∃ candidate after, s.search.propose space = (.ok candidate, after) ∧
      (s.step space .propose).Coherent space ∧
      (Climbs space s candidate ∨ Wanders space s candidate after.source) := by
  obtain ⟨ready, done, readied, expanded, incumbent, source⟩ := expand_coherent fits coherent
  simp only [step, propose, done]
  match taken : dequeue ready.evaluated ready.queue with
  | (some candidate, queue) =>
    obtain ⟨climbs, recorded⟩ := dequeue_climbs readied expanded taken
    exact ⟨candidate, _, rfl, recorded, .inl ⟨incumbent ▸ climbs.replaces, climbs.unscored⟩⟩
  | (none, queue) =>
    obtain ⟨candidate, rest, drawn, wanders, recorded⟩ := random_wanders fits readied expanded taken
    simp only [drawn]
    exact ⟨candidate, _, rfl, recorded, .inr ⟨incumbent ▸ wanders.exhausted, source ▸ wanders.drawn⟩⟩

theorem step_coherent (fits : space.Fits) (coherent : s.Coherent space) (call : Call) :
    (s.step space call).Coherent space := by
  cases call with
  | propose =>
    obtain ⟨-, -, -, stepped, -⟩ := propose_spec fits coherent
    exact stepped
  | update parameters objective => exact update_coherent coherent parameters objective

theorem run_coherent (fits : space.Fits) (source : γ) (calls : List Call) :
    (run space source calls).Coherent space := by
  have each : ∀ s : Session γ, s.Coherent space → (calls.foldl (step space) s).Coherent space := by
    induction calls with
    | nil => exact fun _ => id
    | cons call calls ih => exact fun s coherent => ih _ (step_coherent fits coherent call)
  exact each _ (start_coherent source)

theorem told_step (space : SearchSpace) (s : Session γ) (call : Call) :
    (s.step space call).told = call.told?.toList ++ s.told := by
  cases call with
  | update => rfl
  | propose =>
    simp only [step]
    split <;> rfl

theorem told_run (space : SearchSpace) (source : γ) (calls : List Call) :
    (run space source calls).told.reverse = calls.filterMap Call.told? := by
  have each : ∀ s : Session γ, (calls.foldl (step space) s).told.reverse =
      s.told.reverse ++ calls.filterMap Call.told? := by
    induction calls with
    | nil => simp
    | cons call calls ih =>
      intro s
      rw [List.foldl_cons, ih, told_step]
      cases call <;> simp [Call.told?, List.filterMap_cons]
  exact each (start source)

/-- Whatever a search was asked and told, its incumbent is the first of the best that it was told, and
there is a next proposal: that incumbent with one value replaced, not scored yet, or a sample, if
nothing else is left around the incumbent. -/
theorem climbs_or_wanders (fits : space.Fits) (source : γ) (calls : List Call) :
    FirstTold (calls.filterMap Call.told?) (run space source calls).search.incumbent ∧
    ∃ candidate after, (run space source calls).search.propose space = (.ok candidate, after) ∧
      (Climbs space (run space source calls) candidate ∨
        Wanders space (run space source calls) candidate after.source) := by
  have coherent := run_coherent fits source calls
  obtain ⟨candidate, after, proposed, -, either⟩ := propose_spec fits coherent
  exact ⟨told_run space source calls ▸ coherent.first, candidate, after, proposed, either⟩

def single (n : Int) : ParameterSet := .ofList [("x", .integer n)]

/-- The incumbent moves while the neighbours of the former one are queued. -/
def moving : List Call := [.update (single 3) 1.0, .propose, .update (single 4) 2.0]

def moved : Session WordList := run oneToFive ⟨[]⟩ moving

theorem incumbent_moved : moved.search.incumbent.map Prod.fst = some (single 4) := by
  have signature : (moved.search.incumbent.map Prod.fst).map ByName.signature =
      some (single 4).signature := by decide +kernel
  exact Option.map_injective (fun _ _ => ByName.signature_injective) signature

theorem unused_moved {all : List ParameterSet}
    (varied : oneToFive.variations multipliers realSteps (single 4) = .ok all) :
    single 2 ∈ all ∧ ¬ (moved.Scored (single 2) ∨ single 2 ∈ moved.since (single 4)) := by
  have around : (oneToFive.variations multipliers realSteps (single 4)).toOption.map
      (·.map ByName.signature) = some (List.map ByName.signature [single 2, single 3, single 5]) := by
    decide +kernel
  have scored : (single 2).signature ∉ moved.told.map (·.1.signature) := by decide +kernel
  have since : (moved.since (single 4)).isEmpty := by decide +kernel
  rw [varied] at around
  obtain rfl := List.map_injective_iff.mpr (fun _ _ => ByName.signature_injective) (Option.some.inj around)
  refine ⟨List.mem_cons_self, ?_⟩
  rintro (⟨t, member, same⟩ | member)
  · exact scored (List.mem_map.mpr ⟨t, member, same⟩)
  · rw [List.isEmpty_iff.mp since] at member
    cases member

/-- The next proposal is next to the new incumbent, and not another of those that were queued. -/
theorem climbs_or_wanders_moving : oneToFive.Fits ∧
    moved.search.incumbent.map Prod.fst = some (single 4) ∧
    FirstTold [(single 3, 1.0), (single 4, 2.0)] moved.search.incumbent ∧
    (moved.search.propose oneToFive).1 = .ok (single 2) ∧ Climbs oneToFive moved (single 2) := by
  have next : (moved.search.propose oneToFive).1.toOption.map ByName.signature =
      some (single 2).signature := by decide +kernel
  obtain ⟨first, candidate, after, proposed, either⟩ :=
    climbs_or_wanders oneToFive_fits (⟨[]⟩ : WordList) moving
  change moved.search.propose oneToFive = _ at proposed
  rw [proposed] at next
  obtain rfl : candidate = single 2 := ByName.signature_injective (Option.some.inj next)
  refine ⟨oneToFive_fits, incumbent_moved, first, congrArg Prod.fst proposed,
    either.resolve_right fun wanders => ?_⟩
  obtain ⟨best, found, same⟩ := Option.map_eq_some_iff.mp incumbent_moved
  obtain ⟨all, varied, used⟩ := wanders.exhausted best found
  rw [same] at varied used
  obtain ⟨member, unused⟩ := unused_moved varied
  exact unused (used (single 2) member)

end Session
end LocalSearch
end StrategySearch
