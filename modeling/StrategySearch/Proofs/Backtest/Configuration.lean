import StrategySearch.Proofs.Backtest.Remote
import StrategySearch.Proofs.Strategy.Update

/-! What configuring a strategy writes.

Nothing is written before the stored parameters are read and the new ones fit them. So whatever of
the world reading leaves alone is the same after a candidate was refused. Parameters that fit are
written after the selection of the strategy, and only if that succeeded.
-/

set_option autoImplicit false

namespace StrategySearch

variable {σ α β : Type}

namespace Http

def Exchange.Succeeds (exchange : Exchange) : Prop :=
  ∃ response, exchange = .answered response ∧ response.succeeded

theorem Request.accept_eq_ok_iff {request : Request} {exchange : Exchange} {response : Response} :
    request.accept exchange = .ok response ↔
      exchange = .answered response ∧ response.succeeded := by
  cases exchange with
  | dropped reason => simp [accept]
  | answered answer =>
    by_cases success : answer.succeeded
    · simp only [accept, if_pos success, Except.ok.injEq, Exchange.answered.injEq]
      exact ⟨fun same => ⟨same, same ▸ success⟩, And.left⟩
    · simp only [accept, if_neg success, reduceCtorEq, Exchange.answered.injEq, false_iff]
      exact fun both => success (both.1 ▸ both.2)

theorem Request.succeeds_iff {request : Request} {exchange : Exchange} :
    exchange.Succeeds ↔ ∃ response, request.accept exchange = .ok response := by
  simp only [accept_eq_ok_iff, Exchange.Succeeds]

def Preserves (view : σ → β) (x : StateM σ α) : Prop := ∀ s, view (x s).2 = view s

namespace Preserves

variable {γ : Type} {view : σ → β}

theorem pure (a : α) : Preserves view (Pure.pure a : StateM σ α) := fun _ => rfl

theorem bind {x : StateM σ α} {f : α → StateM σ γ} (first : Preserves view x)
    (rest : ∀ a, Preserves view (f a)) : Preserves view (x >>= f) :=
  fun s => (rest (x s).1 (x s).2).trans (first s)

theorem andThen {x : ExceptT Failure (StateM σ) α} {f : α → ExceptT Failure (StateM σ) γ}
    (first : Preserves view x.run) (rest : ∀ a, Preserves view (f a).run) :
    Preserves view (x >>= f).run := by
  show Preserves view (x.run >>= ExceptT.bindCont f)
  refine first.bind fun answer => ?_
  cases answer with
  | error cause => exact pure (Except.error cause)
  | ok a => exact rest a

end Preserves

/-- Documents that are read, and waits, leave the view as it is. -/
structure Transport.Keeps (transport : Transport (StateM σ)) (view : σ → β) : Prop where
  read : ∀ request : Request, request.method = .get → Preserves view (transport.send request)
  pause : ∀ milliseconds, Preserves view (transport.pause milliseconds)

theorem Transport.Keeps.retry {transport : Transport (StateM σ)} {view : σ → β}
    (keeps : transport.Keeps view) {attempt : StateM σ (Except Failure α)}
    (once : Preserves view attempt) (left : Nat) :
    Preserves view (transport.retry attempt left) := by
  induction left with
  | zero => exact once
  | succ left ih =>
    refine once.bind fun answer => ?_
    cases answer with
    | ok a => exact .pure (Except.ok a)
    | error cause =>
      by_cases transient : cause.isTransient
      · simp only [transient, if_true]
        exact (keeps.pause repeatDelay).bind fun _ => ih
      · simp only [transient]
        exact .pure (Except.error cause)

theorem Client.preserves_read {client : Client (StateM σ)} {view : σ → β}
    (keeps : client.transport.Keeps view) (path : String) :
    Preserves view (client.read path).run := by
  refine keeps.retry ?_ repeats
  refine Preserves.andThen ?_ fun response => .pure response.text
  exact (keeps.read _ rfl).bind fun exchange => .pure _

end Http

theorem Bundle.apply_refuses {wording : Json.Wording} {b : Bundle} {strategy : Strategy}
    {parameters : ParameterSet} (unfit : ¬ ∀ e ∈ parameters.entries, b.Accepts strategy e.1 e.2) :
    ∃ context payload, b.apply wording strategy parameters = .error (.validation context payload) := by
  unfold Bundle.apply
  rcases foldlM_assign_cases strategy parameters.ordered b.draft with
    ⟨written, run, w⟩ | ⟨⟨context, payload, stop⟩, -⟩
  · rw [run]
    cases settle : written.settle? with
    | none => exact ⟨_, _, by simp only [bind, Except.bind, settle]; rfl⟩
    | some updated => exact absurd (fun e mem => accepts_of_settle? w settle mem) unfit
  · rw [stop]
    exact ⟨_, _, rfl⟩

namespace Remote

open Http

variable {client : Client (StateM σ)} {strategy : Strategy} {parameters : ParameterSet}
  {s s₀ s₁ s₂ s' : σ} {stored : Except Failure Bundle} {applied : Bundle} {cause : Failure}
  {exchange exchange' : Exchange} {response : Response}

theorem run_bind_ok {x : ExceptT Failure (StateM σ) α} {f : α → ExceptT Failure (StateM σ) β}
    {a : α} (ran : x.run s = (.ok a, s')) : (x >>= f).run s = (f a).run s' := by
  show ExceptT.bindCont f (x.run s).1 (x.run s).2 = _
  rw [ran]
  rfl

theorem run_bind_error {x : ExceptT Failure (StateM σ) α} {f : α → ExceptT Failure (StateM σ) β}
    (ran : x.run s = (.error cause, s')) : (x >>= f).run s = (.error cause, s') := by
  show ExceptT.bindCont f (x.run s).1 (x.run s).2 = _
  rw [ran]
  rfl

theorem run_send {method : Method} {path : String} {body : Option Json}
    (sends : client.transport.send (client.request method path body) s = (exchange, s')) :
    (client.send method path body).run s =
      ((client.request method path body).accept exchange, s') :=
  congrArg (fun after : Exchange × σ =>
    ((client.request method path body).accept after.1, after.2)) sends

theorem run_write {path : String} {document : Json}
    (put : client.transport.send (client.request .put path (some document)) s = (exchange, s')) :
    (client.write path document).run s =
      (((client.request .put path (some document)).accept exchange).map fun _ => (), s') := by
  have ran := run_send put
  unfold Client.write
  cases accepted : (client.request .put path (some document)).accept exchange with
  | error cause =>
    rw [accepted] at ran
    exact run_bind_error ran
  | ok response =>
    rw [accepted] at ran
    exact run_bind_ok ran

def fitted (wording : Json.Wording) (strategy : Strategy) (parameters : ParameterSet)
    (stored : Except Failure Bundle) : Except Failure Bundle :=
  stored >>= (·.apply wording strategy parameters)

theorem configure_refused (read : (bundle client).run s = (stored, s'))
    (unfit : fitted client.wording strategy parameters stored = .error cause) :
    (configure client strategy parameters).run s = (.error cause, s') := by
  unfold configure
  cases stored with
  | error refusal =>
    cases unfit
    exact run_bind_error read
  | ok b =>
    rw [run_bind_ok read]
    refine run_bind_error ?_
    exact congrArg (·, s') unfit

theorem configure_fitted (read : (bundle client).run s = (stored, s'))
    (fit : fitted client.wording strategy parameters stored = .ok applied) :
    (configure client strategy parameters).run s =
      (client.write "strategy/selection" (.record [("name", .text strategy.name)]) >>= fun _ =>
        client.write "strategy" applied.toJson).run s' := by
  unfold configure
  cases stored with
  | error refusal => cases fit
  | ok b =>
    rw [run_bind_ok read]
    refine run_bind_ok ?_
    exact congrArg (·, s') fit

theorem configure_unselected (read : (bundle client).run s = (stored, s'))
    (fit : fitted client.wording strategy parameters stored = .ok applied)
    (selecting : client.transport.send (selection client strategy) s' = (exchange, s₁))
    (failed : (selection client strategy).accept exchange = .error cause) :
    (configure client strategy parameters).run s = (.error cause, s₁) := by
  have selected := run_write selecting
  rw [configure_fitted read fit]
  refine run_bind_error (selected.trans ?_)
  rw [selection] at failed
  rw [failed]
  rfl

theorem configure_selected (read : (bundle client).run s = (stored, s'))
    (fit : fitted client.wording strategy parameters stored = .ok applied)
    (selecting : client.transport.send (selection client strategy) s' = (exchange, s₁))
    (accepted : (selection client strategy).accept exchange = .ok response)
    (replacing : client.transport.send (replacement client applied) s₁ = (exchange', s₂)) :
    (configure client strategy parameters).run s =
      (((replacement client applied).accept exchange').map fun _ => (), s₂) := by
  have selected := run_write selecting
  rw [selection] at accepted
  rw [accepted] at selected
  rw [configure_fitted read fit, run_bind_ok selected]
  exact run_write replacing

def sent (recorded : StateM (σ × List Sent) α) (s : σ) : List Sent := (recorded (s, [])).2.2

theorem run_bundle_recorded (client : Client (StateM σ)) (s : σ) :
    (bundle client.recorded).run (s, []) =
        (((bundle client).run s).1, (((bundle client).run s).2,
          sent (bundle client.recorded).run s)) ∧
      Reads client "strategy" (storedBundle client.wording) (sent (bundle client.recorded).run s)
        ((bundle client).run s).1 := by
  obtain ⟨record, same, reads⟩ := records_bundle client s []
  have whole : sent (bundle client.recorded).run s = record := congrArg (·.2.2) same
  rw [whole]
  exact ⟨same, reads⟩

theorem send_recorded {request : Request} (record : List Sent)
    (send : client.transport.send request s = (exchange, s')) :
    client.recorded.transport.send request (s, record) =
      (exchange, (s', record ++ [⟨request, exchange⟩])) :=
  congrArg (fun after : Exchange × σ =>
    (after.1, (after.2, record ++ [Sent.mk request after.1]))) send

theorem preserves_bundle {view : σ → β} (keeps : client.transport.Keeps view) :
    Preserves view (bundle client).run :=
  (client.preserves_read keeps "strategy").andThen fun document => .pure (storedBundle client.wording document)

/-- If the stored parameters cannot be read, or the new ones do not fit them, nothing is written, and
what reading leaves alone is as it was. If they fit, the strategy is selected, and only after that
has succeeded the changed parameters are written. -/
theorem configure_writes (client : Client (StateM σ)) (strategy : Strategy)
    (parameters : ParameterSet) {answer : Except Failure Unit}
    (read : (bundle client).run s = (stored, s₀))
    (ran : (configure client strategy parameters).run s = (answer, s')) :
    let reads := sent (bundle client.recorded).run s
    let whole := sent (configure client.recorded strategy parameters).run s
    Reads client "strategy" (storedBundle client.wording) reads stored ∧
      (∀ b, stored = .ok b → (¬ ∀ e ∈ parameters.entries, b.Accepts strategy e.1 e.2) →
        ∃ context payload,
          fitted client.wording strategy parameters stored = .error (.validation context payload)) ∧
      (∀ cause, fitted client.wording strategy parameters stored = .error cause →
        answer = .error cause ∧ whole = reads ∧ changes whole = [] ∧ s' = s₀ ∧
          ∀ {β : Type} (view : σ → β), client.transport.Keeps view → view s' = view s) ∧
      ∀ applied selecting s₁ replacing s₂, fitted client.wording strategy parameters stored = .ok applied →
        client.transport.send (selection client strategy) s₀ = (selecting, s₁) →
        client.transport.send (replacement client applied) s₁ = (replacing, s₂) →
        (¬ selecting.Succeeds → (∃ cause, answer = .error cause) ∧ s' = s₁ ∧
          whole = reads ++ [⟨selection client strategy, selecting⟩]) ∧
        (selecting.Succeeds → (answer = .ok () ↔ replacing.Succeeds) ∧ s' = s₂ ∧
          whole = reads ++ [⟨selection client strategy, selecting⟩,
            ⟨replacement client applied, replacing⟩]) := by
  -- What is said of any client is also said of the one with the record.
  obtain ⟨recorded, reads⟩ := run_bundle_recorded client s
  rw [read] at recorded reads
  refine ⟨reads, ?_, ?_, ?_⟩
  · rintro b rfl unfit
    exact Bundle.apply_refuses unfit
  · intro cause unfit
    have ran' := configure_refused recorded unfit
    obtain ⟨rfl, rfl⟩ := Prod.mk.inj (ran.symm.trans (configure_refused read unfit))
    have whole : sent (configure client.recorded strategy parameters).run s =
        sent (bundle client.recorded).run s := congrArg (·.2.2) ran'
    rw [whole]
    refine ⟨rfl, rfl, reads.changes_eq_nil, rfl, ?_⟩
    intro β view keeps
    have same := preserves_bundle keeps s
    rwa [read] at same
  · intro applied exchange s₁ exchange' s₂ fit selecting replacing
    have selecting' := send_recorded (sent (bundle client.recorded).run s) selecting
    constructor
    · intro fails
      cases accepted : (selection client strategy).accept exchange with
      | ok response => exact absurd (Request.succeeds_iff.mpr ⟨response, accepted⟩) fails
      | error cause =>
        have ran' := configure_unselected recorded fit selecting' accepted
        obtain ⟨rfl, rfl⟩ :=
          Prod.mk.inj (ran.symm.trans (configure_unselected read fit selecting accepted))
        exact ⟨⟨cause, rfl⟩, rfl, congrArg (·.2.2) ran'⟩
    · intro succeeds
      obtain ⟨response, accepted⟩ :=
        (@Request.succeeds_iff (selection client strategy) exchange).mp succeeds
      have ran' := configure_selected recorded fit selecting' accepted (send_recorded _ replacing)
      obtain ⟨rfl, rfl⟩ :=
        Prod.mk.inj (ran.symm.trans (configure_selected read fit selecting accepted replacing))
      refine ⟨?_, rfl, (congrArg (·.2.2) ran').trans (List.append_assoc _ _ _)⟩
      rw [@Request.succeeds_iff (replacement client applied) exchange']
      cases (replacement client applied).accept exchange' <;> simp [Except.map]

section Storing

structure Store where
  selected : String
  document : String

def storing : Client (StateM Store) where
  transport := {
    send := fun request store =>
      match request.method, request.url, request.body with
      | .get, "/strategy", _ => (.answered ⟨200, none, .ok store.document⟩, store)
      | .put, "/strategy/selection", some selected =>
        (.answered ⟨200, none, .ok ""⟩, { store with selected := selected })
      | .put, "/strategy", some document =>
        (.answered ⟨200, none, .ok ""⟩, { store with document := document })
      | _, _, _ => (.answered ⟨404, none, .ok ""⟩, store)
    pause := fun _ => pure ()
  }
  wording := .brief
  base := ""
  credentials := none

theorem keeps_storing : storing.transport.Keeps id where
  read request reads store := by
    simp only [storing, reads]
    split <;> trivial
  pause milliseconds := .pure ()

def unselected : Store where
  selected := ""
  document := "[0.5,[10,2,3,0.25],[30,60],[30,90,3,5],[0.75,120,30,-0.5,0.125,0.25]]"

def endless : ParameterSet :=
  ⟨[("buyWaitTimeInDays", .integer 2147483648)], List.pairwise_singleton _ _⟩

theorem not_accepts_endless (b : Bundle) :
    ¬ ∀ e ∈ endless.entries, b.Accepts .trendFollowing e.1 e.2 := by
  intro accepts
  obtain ⟨place, old, home, held, admits⟩ := accepts _ List.mem_cons_self
  cases home
  cases held
  obtain ⟨k, same⟩ := admits
  have := k.toInt_lt
  omega

theorem readable_unselected : ((bundle storing).run unselected).1.isOk := by decide +kernel

theorem fits_retuning :
    (fitted .brief .trendFollowing Bundle.retuning ((bundle storing).run unselected).1).isOk := by
  decide +kernel

/-- A wait that is too long leaves no trace, and parameters that fit are written with their
strategy. -/
theorem configure_writes_storing :
    (∃ context payload, (configure storing .trendFollowing endless).run unselected =
      (.error (.validation context payload), unselected)) ∧
    ∃ stored applied, (bundle storing).run unselected = (stored, unselected) ∧
      fitted .brief .trendFollowing Bundle.retuning stored = .ok applied ∧
      (configure storing .trendFollowing Bundle.retuning).run unselected =
        (.ok (), ⟨"\x7b\"name\":\"Trend following strategy\"\x7d", applied.toJson.compact⟩) := by
  have readable := readable_unselected
  have fits := fits_retuning
  have same := preserves_bundle keeps_storing unselected
  -- What is read need not be computed: these facts about it are enough.
  generalize read : (bundle storing).run unselected = after at readable fits same
  obtain ⟨stored, s₀⟩ := after
  obtain rfl : s₀ = unselected := same
  constructor
  · cases ran : (configure storing .trendFollowing endless).run unselected with | mk answer s'
    obtain ⟨-, unfit, refused, -⟩ := configure_writes storing .trendFollowing endless read ran
    cases stored with
    | error cause => cases readable
    | ok b =>
      obtain ⟨context, payload, stops⟩ := unfit b rfl (not_accepts_endless b)
      obtain ⟨failed, -, -, kept, -⟩ := refused _ stops
      exact ⟨context, payload, Prod.ext failed kept⟩
  · cases ran : (configure storing .trendFollowing Bundle.retuning).run unselected with | mk answer s'
    cases fit : fitted .brief .trendFollowing Bundle.retuning stored with
    | error cause => rw [fit] at fits; cases fits
    | ok applied =>
      obtain ⟨-, -, -, writes⟩ := configure_writes storing .trendFollowing Bundle.retuning read ran
      obtain ⟨-, selected⟩ := writes applied _ _ _ _ fit rfl rfl
      obtain ⟨succeeds, written, -⟩ := selected ⟨_, rfl, rfl⟩
      exact ⟨stored, applied, rfl, fit, Prod.ext (succeeds.mpr ⟨_, rfl, rfl⟩) written⟩

end Storing

end Remote
end StrategySearch
