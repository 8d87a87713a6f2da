import Mathlib.Data.List.Forall2

/-! Lists that correspond element by element. -/

set_option autoImplicit false

namespace StrategySearch

variable {ε α β γ : Type}

theorem mapM_eq_ok_iff {f : α → Except ε β} {as : List α} {bs : List β} :
    as.mapM f = .ok bs ↔ List.Forall₂ (fun a b => f a = .ok b) as bs := by
  induction as generalizing bs with
  | nil =>
    rw [List.mapM_nil, List.forall₂_nil_left_iff]
    exact ⟨fun same => (Except.ok.inj same).symm, fun empty => empty ▸ rfl⟩
  | cons a as ih =>
    rw [List.mapM_cons, List.forall₂_cons_left_iff]
    cases head : f a with
    | error e => exact ⟨nofun, fun ⟨b, _, found, _, _⟩ => nomatch found⟩
    | ok b =>
      cases tail : as.mapM f with
      | error e =>
        refine ⟨nofun, fun ⟨_, bs, _, rest, _⟩ => ?_⟩
        rw [ih.mpr rest] at tail
        cases tail
      | ok bs' =>
        constructor
        · intro same
          cases same
          exact ⟨b, bs', rfl, ih.mp tail, rfl⟩
        · rintro ⟨_, bs, found, rest, rfl⟩
          cases found
          rw [ih.mpr rest] at tail
          cases tail
          rfl

/-- Of the elements that cannot be mapped the first one gives the failure. -/
theorem mapM_eq_error_iff {f : α → Except ε β} {g : γ → Option ε} {as : List α} {cs : List γ}
    {e : ε} (alike : List.Forall₂ (fun a c => ∀ e, f a = .error e ↔ g c = some e) as cs) :
    as.mapM f = .error e ↔ cs.findSome? g = some e := by
  induction alike with
  | nil => exact ⟨nofun, nofun⟩
  | @cons a c as cs same _ ih =>
    rw [List.mapM_cons, List.findSome?_cons]
    cases head : f a with
    | error e' =>
      have fails : g c = some e' := (same e').mp head
      rw [fails]
      constructor
      · rintro ⟨⟩
        rfl
      · rintro ⟨⟩
        rfl
    | ok b =>
      have passes : g c = none := by
        refine Option.eq_none_iff_forall_ne_some.mpr fun e' fails => ?_
        have refused := (same e').mpr fails
        rw [head] at refused
        cases refused
      rw [passes, ← ih]
      cases as.mapM f with
      | error e' => exact Iff.rfl
      | ok bs => exact ⟨nofun, nofun⟩

theorem mapM_append_cons_eq_error {f : α → Except ε β} {before after : List α} {a : α} {e : ε}
    (passes : ∀ b ∈ before, ∃ c, f b = .ok c) (fails : f a = .error e) :
    (before ++ a :: after).mapM f = .error e := by
  induction before with
  | nil =>
    rw [List.nil_append, List.mapM_cons, fails]
    rfl
  | cons first rest ih =>
    obtain ⟨c, found⟩ := passes first List.mem_cons_self
    rw [List.cons_append, List.mapM_cons, found,
      ih fun b member => passes b (List.mem_cons_of_mem _ member)]
    rfl

theorem forall_mem_of_forall₂ {P : α → Prop} {as : List α} {bs : List β}
    (each : List.Forall₂ (fun a _ => P a) as bs) : ∀ a ∈ as, P a := by
  induction each with
  | nil => nofun
  | cons head _ ih => exact List.forall_mem_cons.mpr ⟨head, ih⟩

theorem exists_partner {R : α → β → Prop} {as : List α} {bs : List β}
    (each : List.Forall₂ R as bs) {a : α} (member : a ∈ as) : ∃ b ∈ bs, R a b := by
  induction each with
  | nil => cases member
  | @cons head partner _ _ fits _ ih =>
    rcases List.mem_cons.mp member with rfl | member
    · exact ⟨partner, List.mem_cons_self, fits⟩
    · obtain ⟨b, inside, fits⟩ := ih member
      exact ⟨b, List.mem_cons_of_mem _ inside, fits⟩

theorem forall₂_trans {R : α → β → Prop} {S : β → γ → Prop} {as : List α} {bs : List β}
    {cs : List γ} (first : List.Forall₂ R as bs) (second : List.Forall₂ S bs cs) :
    List.Forall₂ (fun a c => ∃ b, R a b ∧ S b c) as cs := by
  induction first generalizing cs with
  | nil => cases second; exact .nil
  | cons head tail ih =>
    cases second with
    | cons head' tail' => exact .cons ⟨_, head, head'⟩ (ih tail')

/-- Partners are mapped together, each pair to what suits its first member. -/
theorem exists_mapM_zip {R : α → β → Prop} {S : α → γ → Prop} {f : α × β → Except ε γ}
    {as : List α} {bs : List β} (each : List.Forall₂ R as bs)
    (step : ∀ a ∈ as, ∀ b, R a b → ∃ c, f (a, b) = .ok c ∧ S a c) :
    ∃ cs, (as.zip bs).mapM f = .ok cs ∧ List.Forall₂ S as cs := by
  induction each with
  | nil => exact ⟨[], rfl, .nil⟩
  | @cons a b as bs head _ ih =>
    obtain ⟨c, found, suits⟩ := step a List.mem_cons_self b head
    obtain ⟨cs, others, rest⟩ := ih fun a member => step a (List.mem_cons_of_mem _ member)
    refine ⟨c :: cs, ?_, .cons suits rest⟩
    rw [List.zip_cons_cons, List.mapM_cons, found, others]
    rfl

theorem mapM_eq_some_iff {f : α → Option β} {as : List α} {bs : List β} :
    as.mapM f = some bs ↔ List.Forall₂ (fun a b => f a = some b) as bs := by
  induction as generalizing bs with
  | nil => simp [eq_comm]
  | cons a as ih =>
    simp only [List.mapM_cons, List.forall₂_cons_left_iff, Option.bind_eq_bind,
      Option.bind_eq_some_iff, Option.pure_def, Option.some.injEq, ih]
    constructor
    · rintro ⟨b, found, rest, others, rfl⟩
      exact ⟨b, rest, found, others, rfl⟩
    · rintro ⟨b, rest, found, others, rfl⟩
      exact ⟨b, found, rest, others, rfl⟩

theorem forall₂_trans_iff {R : α → β → Prop} {S : β → γ → Prop} {as : List α} {cs : List γ} :
    (∃ bs, List.Forall₂ R as bs ∧ List.Forall₂ S bs cs) ↔
      List.Forall₂ (fun a c => ∃ b, R a b ∧ S b c) as cs := by
  constructor
  · rintro ⟨bs, first, second⟩
    exact forall₂_trans first second
  · intro both
    induction both with
    | nil => exact ⟨[], .nil, .nil⟩
    | cons head _ ih =>
      obtain ⟨b, left, right⟩ := head
      obtain ⟨bs, first, second⟩ := ih
      exact ⟨b :: bs, .cons left first, .cons right second⟩

end StrategySearch
