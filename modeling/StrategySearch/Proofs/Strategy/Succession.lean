import StrategySearch.Proofs.Ends
import StrategySearch.Proofs.Strategy.Update

/-!
Candidates that are applied one after another, each to the bundle that the one before it left.
Applying reads of a bundle only what it does not write, so candidates with the same names leave no
trace of each other.
-/

set_option autoImplicit false

namespace StrategySearch

theorem BundleOf.at?_replace {ι ρ : Type} (a b : BundleOf ι ρ) (place : Place) (j : Json) :
    (a.at? place).map (·.replace j) = (b.at? place).map (·.replace j) := by
  have same : a.map (fun _ => j) (fun _ => j) = b.map (fun _ => j) (fun _ => j) := rfl
  have places := congrArg (·.at? place) same
  simp only [at?_map] at places
  exact places

namespace Bundle

variable {a b c updated : Bundle} {strategy : Strategy} {parameters : ParameterSet}
  {names : List String} {wording : Json.Wording}

theorem Written.unique {d written other : Draft}
    (w : Written strategy parameters.entries d written)
    (o : Written strategy parameters.entries d other) : written = other := by
  refine BundleOf.ext_places fun place => ?_
  by_cases named : ∃ e ∈ parameters.entries, strategy.place? e.1 = some place
  · obtain ⟨e, mem, own⟩ := named
    obtain ⟨home, content, placed, held, changed⟩ := w.placed e mem
    obtain ⟨home', content', placed', held', changed'⟩ := o.placed e mem
    cases own.symm.trans placed
    cases own.symm.trans placed'
    cases held.symm.trans held'
    rw [changed, changed']
  · have free : ∀ e ∈ parameters.entries, strategy.place? e.1 ≠ some place :=
      fun e mem own => named ⟨e, mem, own⟩
    rw [w.kept place free, o.kept place free]

/-- Applying succeeds just when the draft with all parameters in their places settles. -/
theorem apply_eq_ok_iff : b.apply wording strategy parameters = .ok updated ↔
    ∃ written, Written strategy parameters.entries b.draft written ∧
      written.settle? = some updated := by
  unfold apply
  rcases foldlM_assign_cases strategy parameters.ordered b.draft with
    ⟨written, run, w⟩ | ⟨⟨context, payload, stop⟩, e, mem, refuses⟩
  · rw [run]
    have settles : (∃ other, Written strategy parameters.entries b.draft other ∧
        other.settle? = some updated) ↔ written.settle? = some updated :=
      ⟨fun ⟨other, o, settle⟩ => w.unique o ▸ settle, fun settle => ⟨written, w, settle⟩⟩
    rw [settles]
    simp only [bind, Except.bind]
    cases written.settle? <;> simp [pure, Except.pure]
  · rw [stop]
    refine iff_of_false nofun ?_
    rintro ⟨written, w, settle⟩
    exact not_accepts_of_refuses refuses (accepts_of_settle? w settle mem)

/-! ### What a bundle keeps -/

def Free (strategy : Strategy) (names : List String) (place : Place) : Prop :=
  ∀ name ∈ names, strategy.place? name ≠ some place

theorem free_names_iff {place : Place} : Free strategy parameters.names place ↔
    ∀ e ∈ parameters.entries, strategy.place? e.1 ≠ some place := by
  simp only [Free, ByName.names, List.forall_mem_map]

def AgreeBeside (strategy : Strategy) (names : List String) (a b : Bundle) : Prop :=
  ∀ place, Free strategy names place → a.at? place = b.at? place

namespace AgreeBeside

theorem symm (agree : AgreeBeside strategy names a b) : AgreeBeside strategy names b a :=
  fun place free => (agree place free).symm

theorem congr_names {others : List String} (agree : AgreeBeside strategy names a b)
    (same : ∀ name, name ∈ others ↔ name ∈ names) : AgreeBeside strategy others a b :=
  fun place free => agree place fun name mem => free name ((same name).mpr mem)

theorem written {written : Draft} (agree : AgreeBeside strategy parameters.names a b)
    (w : Written strategy parameters.entries a.draft written) :
    Written strategy parameters.entries b.draft written where
  placed e mem := by
    obtain ⟨place, content, home, held, changed⟩ := w.placed e mem
    have kinds := BundleOf.at?_replace a.draft b.draft place (encoded e.1 e.2)
    rw [held, Option.map_some, eq_comm, Option.map_eq_some_iff] at kinds
    obtain ⟨other, held', same⟩ := kinds
    exact ⟨place, other, home, held', by rw [changed, same]⟩
  kept place free := by
    rw [w.kept place free, at?_draft, at?_draft, agree place (free_names_iff.mpr free)]

/-- What is overwritten has no influence. -/
theorem apply_iff (agree : AgreeBeside strategy parameters.names a b) :
    a.apply wording strategy parameters = .ok updated ↔
      b.apply wording strategy parameters = .ok updated := by
  rw [apply_eq_ok_iff, apply_eq_ok_iff]
  exact exists_congr fun _ => and_congr_left fun _ => ⟨agree.written, agree.symm.written⟩

theorem of_apply (finite : b.Finite) (ok : b.apply wording strategy parameters = .ok updated) :
    AgreeBeside strategy parameters.names updated b := by
  obtain ⟨written, w, settle⟩ := apply_eq_ok_iff.mp ok
  exact fun place free => kept_of_settle? (finite place) w settle (free_names_iff.mp free)

end AgreeBeside

/-! ### Candidates in turn -/

def applyAll (wording : Json.Wording) (b : Bundle) (strategy : Strategy) (candidates : List ParameterSet) :
    Except Failure Bundle :=
  candidates.foldlM (fun b candidate => b.apply wording strategy candidate) b

theorem applyAll_cons {candidate : ParameterSet} {rest : List ParameterSet} :
    b.applyAll wording strategy (candidate :: rest) = .ok updated ↔
      ∃ next, b.apply wording strategy candidate = .ok next ∧
        next.applyAll wording strategy rest = .ok updated := by
  rw [applyAll, List.foldlM_cons, bind_eq_ok_iff]
  exact Iff.rfl

/-- From a bundle that differs from the first one at most where candidates write, the run is that of
the last candidate alone. -/
theorem applyAll_iff (finite : b.Finite) {candidate : ParameterSet} {rest : List ParameterSet}
    (named : ∀ p ∈ candidate :: rest, ∀ name, name ∈ p.names ↔ name ∈ names)
    (agree : AgreeBeside strategy names c b) :
    c.applyAll wording strategy (candidate :: rest) = .ok updated ↔
      (∀ p ∈ candidate :: rest, ∃ u, b.apply wording strategy p = .ok u) ∧
        b.apply wording strategy ((candidate :: rest).getLast (List.cons_ne_nil _ _)) = .ok updated := by
  induction rest generalizing c candidate with
  | nil =>
    have same := named candidate List.mem_cons_self
    rw [applyAll_cons, List.forall_mem_singleton]
    simp only [(agree.congr_names same).apply_iff]
    constructor
    · rintro ⟨u, ok, rest⟩
      obtain rfl : u = updated := Except.ok.inj rest
      exact ⟨⟨u, ok⟩, ok⟩
    · rintro ⟨-, ok⟩
      exact ⟨updated, ok, rfl⟩
  | cons second rest ih =>
    obtain ⟨same, others⟩ := List.forall_mem_cons.mp named
    -- The bundle that is left behind differs from the first one as before.
    have left {next : Bundle} (ok : b.apply wording strategy candidate = .ok next) :
        AgreeBeside strategy names next b :=
      (AgreeBeside.of_apply finite ok).congr_names fun name => (same name).symm
    rw [applyAll_cons, List.forall_mem_cons]
    simp only [(agree.congr_names same).apply_iff]
    constructor
    · rintro ⟨next, ok, run⟩
      obtain ⟨accepted, last⟩ := (ih others (left ok)).mp run
      exact ⟨⟨⟨next, ok⟩, accepted⟩, last⟩
    · rintro ⟨⟨⟨next, ok⟩, accepted⟩, last⟩
      exact ⟨next, ok, (ih others (left ok)).mpr ⟨accepted, last⟩⟩

/-- Candidates with the same names can be applied in turn just when each of them can be applied
alone, and what they leave is what the last one makes of the first bundle. -/
theorem applyAll_forgets (wording : Json.Wording) (b : Bundle) (finite : b.Finite)
    (strategy : Strategy) (candidates : List ParameterSet) (nonempty : candidates ≠ [])
    (alike : ∀ p ∈ candidates, ∀ q ∈ candidates, ∀ name, name ∈ p.names ↔ name ∈ q.names) :
    ((∀ p ∈ candidates, ∃ u, b.apply wording strategy p = .ok u) →
      ∃ u, b.applyAll wording strategy candidates = .ok u ∧
        b.apply wording strategy (candidates.getLast nonempty) = .ok u) ∧
    ∀ u, b.applyAll wording strategy candidates = .ok u →
      (∀ p ∈ candidates, ∃ u, b.apply wording strategy p = .ok u) ∧
        b.apply wording strategy (candidates.getLast nonempty) = .ok u := by
  obtain ⟨candidate, rest, rfl⟩ := List.exists_cons_of_ne_nil nonempty
  have run (u : Bundle) : b.applyAll wording strategy (candidate :: rest) = .ok u ↔
      (∀ p ∈ candidate :: rest, ∃ u, b.apply wording strategy p = .ok u) ∧
        b.apply wording strategy ((candidate :: rest).getLast nonempty) = .ok u :=
    applyAll_iff finite (fun p mem => alike p mem candidate List.mem_cons_self) fun _ _ => rfl
  constructor
  · intro accepted
    obtain ⟨u, ok⟩ := accepted _ (List.getLast_mem nonempty)
    exact ⟨u, (run u).mpr ⟨accepted, ok⟩, ok⟩
  · exact fun u => (run u).mp

/-- Other values for the names of `retuning`; here the length of the analysis is a whole real. -/
def returning : ParameterSet :=
  ⟨[("analysisLengthInDays", .real 90.0), ("buyWaitTimeInDays", .integer 5),
    ("limitPriceDamping", .real 0.25)], by decide⟩

theorem applyAll_forgets_returning :
    tuned.Finite ∧ (∀ p ∈ [retuning, returning], ∃ u, tuned.apply .brief .trendFollowing p = .ok u) ∧
      ∃ u, tuned.applyAll .brief .trendFollowing [retuning, returning] = .ok u ∧
        tuned.apply .brief .trendFollowing returning = .ok u := by
  have answers : ∀ p ∈ [retuning, returning], (tuned.apply .brief .trendFollowing p).isOk := by
    decide +kernel
  have accepted : ∀ p ∈ [retuning, returning], ∃ u, tuned.apply .brief .trendFollowing p = .ok u := by
    intro p mem
    have ok := answers p mem
    cases applied : tuned.apply .brief .trendFollowing p with
    | ok u => exact ⟨u, rfl⟩
    | error cause => rw [applied] at ok; cases ok
  have alike : ∀ p ∈ [retuning, returning], ∀ q ∈ [retuning, returning],
      ∀ name, name ∈ p.names ↔ name ∈ q.names := by
    have same : returning.names = retuning.names := rfl
    simp [same]
  exact ⟨finite_tuned, accepted,
    (applyAll_forgets .brief tuned finite_tuned .trendFollowing _ (List.cons_ne_nil _ _) alike).1 accepted⟩

end Bundle
end StrategySearch
