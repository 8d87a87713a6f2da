import StrategySearch.Proofs.Strategy.Encoding

/-!
Applying parameters to a bundle is an update of typed fields: it succeeds just when every parameter
has a place that takes its value, it sets these places and leaves all others.
-/

set_option autoImplicit false

namespace StrategySearch

/-! ### Parameters that fit -/

/-- The place of a parameter: the damping has its own, all others are in the group of the
strategy. -/
def Strategy.place? (strategy : Strategy) (name : String) : Option Place :=
  if name = dampingName then some .damping
  else strategy.group?.map fun group => .field group name

theorem Strategy.place?_eq_damping {strategy : Strategy} {name : String} :
    strategy.place? name = some .damping ↔ name = dampingName := by
  unfold place?
  split <;> simp_all

theorem Strategy.place?_eq_field {strategy : Strategy} {name field : String}
    {group : ParameterGroup} : strategy.place? name = some (.field group field) ↔
      name ≠ dampingName ∧ strategy.group? = some group ∧ name = field := by
  unfold place?
  split <;> simp_all

theorem Strategy.place?_injective {strategy : Strategy} {name other : String} {place : Place}
    (home : strategy.place? name = some place) (same : strategy.place? other = some place) :
    name = other := by
  cases place with
  | damping => rw [place?_eq_damping.mp home, place?_eq_damping.mp same]
  | field group field => rw [(place?_eq_field.mp home).2.2, (place?_eq_field.mp same).2.2]

namespace Bundle

def Finite (b : Bundle) : Prop :=
  ∀ place x, b.at? place = some (.real x) → x.isFinite = true

def Accepts (b : Bundle) (strategy : Strategy) (name : String) (value : ParameterValue) : Prop :=
  ∃ place old, strategy.place? name = some place ∧ b.at? place = some old ∧ old.Admits value

/-- Every parameter is in its place and nothing else has changed. -/
structure Updates (b : Bundle) (strategy : Strategy) (parameters : ParameterSet)
    (updated : Bundle) : Prop where
  written : ∀ e ∈ parameters.entries, ∃ place content, strategy.place? e.1 = some place ∧
    updated.at? place = some content ∧ content.Equals e.2
  kept : ∀ place, (∀ e ∈ parameters.entries, strategy.place? e.1 ≠ some place) →
    updated.at? place = b.at? place

/-! ### Settling what was written -/

section Settling

variable {b : Bundle} {strategy : Strategy} {name : String} {value : ParameterValue}
  {place : Place} {k : Int32} {old settled : Content Int32 Float}

/-- Integer fields are in groups, where whole reals count as integers. -/
theorem encoded_of_whole (home : strategy.place? name = some place)
    (held : b.at? place = some (.whole k)) : encoded name value = integral value := by
  cases place with
  | damping => cases held
  | field group field => exact if_neg (Strategy.place?_eq_field.mp home).1

theorem equals_of_settles (home : strategy.place? name = some place)
    (held : b.at? place = some old) (settles : (old.replace (encoded name value)).Settles settled) :
    settled.Equals value := by
  cases old with
  | whole k =>
    obtain ⟨n, rfl, read⟩ := Content.settles_replace_whole.mp settles
    rw [encoded_of_whole home held] at read
    exact int32?_integral.mp read
  | real x =>
    obtain ⟨y, rfl, read⟩ := Content.settles_replace_real.mp settles
    exact (carries_encoded name value).equals y read

theorem exists_settles_iff (home : strategy.place? name = some place)
    (held : b.at? place = some old) :
    (∃ settled, (old.replace (encoded name value)).Settles settled) ↔ old.Admits value := by
  cases old with
  | whole k =>
    simp only [Content.settles_replace_whole, Content.admits_whole, encoded_of_whole home held,
      int32?_integral]
    exact ⟨fun ⟨_, n, _, equals⟩ => ⟨n, equals⟩, fun ⟨n, equals⟩ => ⟨_, n, rfl, equals⟩⟩
  | real x =>
    simp only [Content.settles_replace_real, ← (carries_encoded name value).admits x,
      Option.isSome_iff_exists]
    exact ⟨fun ⟨_, y, _, read⟩ => ⟨y, read⟩, fun ⟨y, read⟩ => ⟨_, y, rfl, read⟩⟩

end Settling

/-! ### Writing parameters into a draft -/

structure Written (strategy : Strategy) (entries : List (String × ParameterValue))
    (d written : Draft) : Prop where
  placed : ∀ e ∈ entries, ∃ place c, strategy.place? e.1 = some place ∧ d.at? place = some c ∧
    written.at? place = some (c.replace (encoded e.1 e.2))
  kept : ∀ place, (∀ e ∈ entries, strategy.place? e.1 ≠ some place) →
    written.at? place = d.at? place

def Refuses (strategy : Strategy) (d : Draft) (e : String × ParameterValue) : Prop :=
  ∀ place c, strategy.place? e.1 = some place → d.at? place = some c → e.2.float? = none

theorem assign_cases (strategy : Strategy) (d : Draft) (name : String) (value : ParameterValue) :
    (∃ written place c, assign strategy d name value = .ok written ∧
      strategy.place? name = some place ∧ d.at? place = some c ∧
      ∀ other, written.at? other =
        if other = place then some (c.replace (encoded name value)) else d.at? other) ∨
    (∃ context payload, assign strategy d name value = .error (.invalid context payload)) ∧
      Refuses strategy d (name, value) := by
  unfold assign
  by_cases damping : name = dampingName
  · have home : strategy.place? name = some .damping := Strategy.place?_eq_damping.mpr damping
    rw [if_pos damping]
    -- Only the damping has to be a number here; fields are judged when the draft settles.
    cases numeric : value.float? with
    | none =>
      refine .inr ⟨⟨_, _, rfl⟩, ?_⟩
      intro place c _ _
      exact numeric
    | some x =>
      refine .inl ⟨_, .damping, _, rfl, home, rfl, fun other => ?_⟩
      rw [Draft.at?_damping, encoded, if_pos damping]
      split
      · next same => rw [same]; rfl
      · rfl
  · rw [if_neg damping]
    cases group : strategy.group? with
    | none =>
      have homeless : strategy.place? name = none := by simp [Strategy.place?, damping, group]
      refine .inr ⟨⟨_, _, rfl⟩, ?_⟩
      intro place c home _
      cases homeless.symm.trans home
    | some owner =>
      have home : strategy.place? name = some (.field owner name) :=
        Strategy.place?_eq_field.mpr ⟨damping, group, rfl⟩
      cases write : d.write? owner name (integral value) with
      | none =>
        -- A group without the field holds nothing at that place.
        refine .inr ⟨⟨_, _, by simp only [write]; rfl⟩, ?_⟩
        intro place c same held
        cases home.symm.trans same
        cases (Draft.write?_eq_none.mp write).symm.trans held
      | some written =>
        have present : ∃ c, d.at? (.field owner name) = some c := by
          rw [← Option.isSome_iff_exists, Option.isSome_iff_ne_none]
          intro absent
          cases (Draft.write?_eq_none.mpr absent).symm.trans write
        obtain ⟨c, held⟩ := present
        refine .inl ⟨written, _, c, by simp [write], home, held, fun other => ?_⟩
        rw [Draft.at?_write? write, encoded, if_neg damping]
        split
        · next same => rw [same, held, Option.map_some]
        · rfl

/-- Writing all parameters, with names that differ, writes each once or stops at one that the
draft refuses. -/
theorem foldlM_assign_cases (strategy : Strategy) {entries : List (String × ParameterValue)}
    (distinct : entries.Pairwise fun a b => a.1 < b.1) (d : Draft) :
    (∃ written, entries.foldlM (fun d e => assign strategy d e.1 e.2) d = .ok written ∧
      Written strategy entries d written) ∨
    (∃ context payload, entries.foldlM (fun d e => assign strategy d e.1 e.2) d =
        .error (.invalid context payload)) ∧
      ∃ e ∈ entries, Refuses strategy d e := by
  induction entries generalizing d with
  | nil => exact .inl ⟨d, rfl, ⟨by simp, by simp⟩⟩
  | cons first rest ih =>
    obtain ⟨below, distinct⟩ := List.pairwise_cons.mp distinct
    have apart (e) (mem : e ∈ rest) : e.1 ≠ first.1 := fun same =>
      String.lt_irrefl first.1 (same ▸ below e mem)
    rw [List.foldlM_cons]
    rcases assign_cases strategy d first.1 first.2 with
      ⟨middle, home, c, write, placed, held, view⟩ | ⟨⟨context, payload, stop⟩, refuses⟩
    · rw [write]
      have still (place : Place) (other : place ≠ home) : middle.at? place = d.at? place := by
        rw [view, if_neg other]
      rcases ih distinct middle with ⟨written, run, later⟩ | ⟨stop, e, mem, refuses⟩
      · refine .inl ⟨written, run, ?_, ?_⟩
        · intro e mem
          rcases List.mem_cons.mp mem with rfl | mem
          · -- No later parameter has this place, so what is written there stays.
            refine ⟨home, c, placed, held, ?_⟩
            rw [later.kept, view, if_pos rfl]
            exact fun e mem own => apart e mem (Strategy.place?_injective own placed)
          · obtain ⟨place, c, own, present, changed⟩ := later.placed e mem
            refine ⟨place, c, own, ?_, changed⟩
            rw [← still, present]
            rintro rfl
            exact apart e mem (Strategy.place?_injective own placed)
        · intro place free
          rw [later.kept place fun e mem => free e (List.mem_cons_of_mem _ mem), still]
          rintro rfl
          exact free first List.mem_cons_self placed
      · refine .inr ⟨stop, e, List.mem_cons_of_mem _ mem, ?_⟩
        intro place c own present
        refine refuses place c own ?_
        rw [still, present]
        rintro rfl
        exact apart e mem (Strategy.place?_injective own placed)
    · rw [stop]
      exact .inr ⟨⟨context, payload, rfl⟩, first, List.mem_cons_self, refuses⟩

/-! ### Applying parameters -/

section Apply

variable {b updated : Bundle} {strategy : Strategy} {parameters : ParameterSet} {written : Draft}

theorem at?_draft (place : Place) :
    b.draft.at? place = (b.at? place).map (Content.map (fun n => .integer n.toInt) Json.ofFloat) :=
  BundleOf.at?_map _ _ _ _

theorem settles_draft {old settled : Content Int32 Float}
    (finite : ∀ x, old = .real x → x.isFinite = true) :
    (old.map (fun n => .integer n.toInt) Json.ofFloat).Settles settled ↔ old = settled := by
  cases old with
  | whole k =>
    cases settled <;> simp [Content.Settles, Content.map, Json.int32?_eq_some, Int32.toInt_inj]
  | real x =>
    cases settled <;> simp [Content.Settles, Content.map, Json.float?_ofFloat, finite x rfl]

theorem not_accepts_of_refuses {e : String × ParameterValue}
    (refuses : Refuses strategy b.draft e) : ¬ b.Accepts strategy e.1 e.2 := by
  rintro ⟨place, old, home, held, admits⟩
  have numeric := refuses place _ home (by rw [at?_draft, held, Option.map_some])
  cases h : e.2 with
  | integer n => rw [h] at numeric; cases numeric
  | real x => rw [h] at numeric; cases numeric
  | category name => rw [h] at admits; cases old <;> exact admits

theorem written_at? (w : Written strategy parameters.entries b.draft written)
    {e : String × ParameterValue} (mem : e ∈ parameters.entries) :
    ∃ place old, strategy.place? e.1 = some place ∧ b.at? place = some old ∧
      written.at? place = some (old.replace (encoded e.1 e.2)) := by
  obtain ⟨place, c, home, held, changed⟩ := w.placed e mem
  rw [at?_draft, Option.map_eq_some_iff] at held
  obtain ⟨old, held, rfl⟩ := held
  rw [Content.replace_map] at changed
  exact ⟨place, old, home, held, changed⟩

theorem kept_of_settle? {place : Place} (finite : ∀ x, b.at? place = some (.real x) → x.isFinite = true)
    (w : Written strategy parameters.entries b.draft written)
    (settle : written.settle? = some updated)
    (free : ∀ e ∈ parameters.entries, strategy.place? e.1 ≠ some place) :
    updated.at? place = b.at? place := by
  have untouched := w.kept place free
  rw [at?_draft] at untouched
  cases held : b.at? place with
  | none =>
    rw [held, Option.map_none] at untouched
    exact Draft.absent_of_settle? settle untouched
  | some old =>
    rw [held, Option.map_some] at untouched
    obtain ⟨settled, found, settles⟩ := Draft.settles_at? settle untouched
    have stays := (settles_draft fun x same => finite x (held.trans (congrArg some same))).mp settles
    rw [found, stays]

theorem updates_of_settle? (finite : b.Finite)
    (w : Written strategy parameters.entries b.draft written)
    (settle : written.settle? = some updated) : b.Updates strategy parameters updated where
  written e mem := by
    obtain ⟨place, old, home, held, changed⟩ := written_at? w mem
    obtain ⟨settled, found, settles⟩ := Draft.settles_at? settle changed
    exact ⟨place, settled, home, found, equals_of_settles home held settles⟩
  kept place free := kept_of_settle? (finite place) w settle free

theorem accepts_of_settle? (w : Written strategy parameters.entries b.draft written)
    (settle : written.settle? = some updated) {e : String × ParameterValue}
    (mem : e ∈ parameters.entries) : b.Accepts strategy e.1 e.2 := by
  obtain ⟨place, old, home, held, changed⟩ := written_at? w mem
  obtain ⟨settled, -, settles⟩ := Draft.settles_at? settle changed
  exact ⟨place, old, home, held, (exists_settles_iff home held).mp ⟨settled, settles⟩⟩

theorem exists_settle?_of_accepts (finite : b.Finite)
    (w : Written strategy parameters.entries b.draft written)
    (accepts : ∀ e ∈ parameters.entries, b.Accepts strategy e.1 e.2) :
    ∃ updated, written.settle? = some updated := by
  refine Draft.exists_settle? fun place c present => ?_
  by_cases named : ∃ e ∈ parameters.entries, strategy.place? e.1 = some place
  · obtain ⟨e, mem, own⟩ := named
    obtain ⟨home, old, placed, held, changed⟩ := written_at? w mem
    obtain ⟨home', old', placed', held', admits⟩ := accepts e mem
    cases own.symm.trans placed
    cases placed.symm.trans placed'
    cases held.symm.trans held'
    cases present.symm.trans changed
    exact (exists_settles_iff placed held).mpr admits
  · have untouched := w.kept place fun e mem own => named ⟨e, mem, own⟩
    rw [present, at?_draft] at untouched
    obtain ⟨old, held, rfl⟩ := Option.map_eq_some_iff.mp untouched.symm
    exact ⟨old, (settles_draft fun x same => finite place x (same ▸ held)).mpr rfl⟩

end Apply

/-- Applying parameters is an update of typed fields. -/
theorem apply_updates (wording : Json.Wording) (b : Bundle) (finite : b.Finite)
    (strategy : Strategy) (parameters : ParameterSet) :
    ((∀ e ∈ parameters.entries, b.Accepts strategy e.1 e.2) →
      ∃ updated, b.apply wording strategy parameters = .ok updated ∧
        b.Updates strategy parameters updated) ∧
    (¬ (∀ e ∈ parameters.entries, b.Accepts strategy e.1 e.2) →
      ∃ context payload, b.apply wording strategy parameters = .error (.validation context payload)) := by
  unfold apply
  rcases foldlM_assign_cases strategy parameters.ordered b.draft with
    ⟨written, run, w⟩ | ⟨⟨context, payload, stop⟩, e, mem, refuses⟩
  · rw [run]
    constructor
    · intro accepts
      obtain ⟨updated, settle⟩ := exists_settle?_of_accepts finite w accepts
      refine ⟨updated, ?_, updates_of_settle? finite w settle⟩
      simp only [bind, Except.bind, settle]
      rfl
    · intro refused
      -- Every parameter was written, so one that is refused does not fit its place.
      cases settle : written.settle? with
      | none => exact ⟨_, _, by simp only [bind, Except.bind, settle]; rfl⟩
      | some updated => exact absurd (fun e mem => accepts_of_settle? w settle mem) refused
  · rw [stop]
    constructor
    · intro accepts
      exact absurd (accepts e mem) (not_accepts_of_refuses refuses)
    · intro _
      exact ⟨_, _, rfl⟩

section Retuning

def tuned : Bundle :=
  ⟨0.5, ⟨10, 2, 3, 0.25⟩, ⟨30, 60⟩, ⟨30, 90, 3, 5⟩, ⟨0.75, 120, 30, -0.5, 0.125, 0.25⟩⟩

/-- The length of the analysis has a field in three groups; the wait is a whole real. -/
def retuning : ParameterSet :=
  ⟨[("analysisLengthInDays", .integer 45), ("buyWaitTimeInDays", .real 7.0),
    ("limitPriceDamping", .integer 1)], by decide⟩

theorem finite_tuned : tuned.Finite := by
  intro place x held
  cases place with
  | damping =>
    cases held
    rfl
  | field group name =>
    obtain ⟨before, after, split, -⟩ := List.lookup_eq_some_iff.mp held
    have mem : (name, Content.real x) ∈ tuned.contents group := by simp [split]
    cases group
    · simp [tuned, BundleOf.contents, BasicOptions.contents] at mem
      obtain ⟨-, rfl⟩ := mem
      rfl
    · simp [BundleOf.contents, BuyLosersOptions.contents] at mem
    · simp [BundleOf.contents, BuyWinnersOptions.contents] at mem
    · simp [tuned, BundleOf.contents, PcaOptions.contents] at mem
      obtain ⟨-, rfl⟩ | ⟨-, rfl⟩ | ⟨-, rfl⟩ | ⟨-, rfl⟩ := mem <;> rfl

theorem apply_updates_retuning :
    tuned.Finite ∧ (∀ e ∈ retuning.entries, tuned.Accepts .trendFollowing e.1 e.2) ∧
      ∃ updated, tuned.apply .brief .trendFollowing retuning = .ok updated ∧
        tuned.Updates .trendFollowing retuning updated := by
  have accepts : ∀ e ∈ retuning.entries, tuned.Accepts .trendFollowing e.1 e.2 := by
    intro e mem
    simp only [retuning, List.mem_cons, List.not_mem_nil, or_false] at mem
    rcases mem with rfl | rfl | rfl
    · exact ⟨.field .buyWinners "analysisLengthInDays", .whole 90, rfl, rfl, 45, rfl⟩
    · exact ⟨.field .buyWinners "buyWaitTimeInDays", .whole 5, rfl, rfl, 7, rfl⟩
    · exact ⟨.damping, .real 0.5, rfl, rfl, trivial⟩
  exact ⟨finite_tuned, accepts, (apply_updates .brief tuned finite_tuned .trendFollowing retuning).1 accepts⟩

end Retuning

end Bundle

end StrategySearch
