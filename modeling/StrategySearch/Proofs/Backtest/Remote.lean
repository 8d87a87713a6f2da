import StrategySearch.Backtest.Remote
import StrategySearch.Proofs.Http.Retry

/-! What the calls of the service send.

Whatever the transport answers, a submission and a cancellation are one request each, and a strategy
is configured by at most one selection and at most one document after it. All other requests are
those of a read, which is repeated for as long as its failures may mend, and is decoded after that.
-/

set_option autoImplicit false

namespace StrategySearch.Remote

open Http

variable {σ α : Type} (client : Client (StateM σ))

def Reads (path : String) (say : String → Except Failure α) (sent : List Sent)
    (answer : Except Failure α) : Prop :=
  ∃ document, Retried (client.request .get path none) 3 sent document ∧ answer = document >>= say

theorem records_reads (path : String) (say : String → Except Failure α) :
    Records (client.recorded.read path >>= fun document => ofExcept (say document)).run
      (client.read path >>= fun document => ofExcept (say document)).run
      (Reads client path say) := by
  apply (client.records_read path).andThen
  · intro sent cause retried
    exact ⟨_, retried, rfl⟩
  · intro sent document retried
    exact Records.pure ⟨_, by simpa using retried, rfl⟩

def storedBundle (wording : Json.Wording) (document : String) : Except Failure Bundle :=
  Failure.decode wording Bundle.ofJson? "invalid strategy parameters payload" document

theorem records_bundle :
    Records (bundle client.recorded).run (bundle client).run
      (Reads client "strategy" (storedBundle client.wording)) :=
  records_reads client "strategy" (storedBundle client.wording)

variable (strategy : Strategy) (parameters : ParameterSet)

def selection : Request :=
  client.request .put "strategy/selection" (some (.record [("name", .text strategy.name)]))

def replacement (applied : Bundle) : Request :=
  client.request .put "strategy" (some applied.toJson)

/-- The stored parameters are read and changed, unless that fails the strategy is selected, and
unless that fails the changed parameters are written. -/
inductive Configures : List Sent → Except Failure Unit → Prop where
  | refused {reads : List Sent} {stored : Except Failure Bundle} {cause : Failure} :
      Reads client "strategy" (storedBundle client.wording) reads stored →
      stored >>= (·.apply client.wording strategy parameters) = .error cause →
      Configures reads (.error cause)
  | unselected {reads : List Sent} {stored : Except Failure Bundle} {applied : Bundle}
      {exchange : Exchange} {cause : Failure} :
      Reads client "strategy" (storedBundle client.wording) reads stored →
      stored >>= (·.apply client.wording strategy parameters) = .ok applied →
      (selection client strategy).accept exchange = .error cause →
      Configures (reads ++ [⟨selection client strategy, exchange⟩]) (.error cause)
  | selected {reads written : List Sent} {stored : Except Failure Bundle} {applied : Bundle}
      {exchange : Exchange} {response : Response} {answer : Except Failure Unit} :
      Reads client "strategy" (storedBundle client.wording) reads stored →
      stored >>= (·.apply client.wording strategy parameters) = .ok applied →
      (selection client strategy).accept exchange = .ok response →
      (replacement client applied).Once (fun _ => .ok ()) written answer →
      Configures (reads ++ (⟨selection client strategy, exchange⟩ :: written)) answer

theorem records_write (path : String) (document : Json) :
    Records (client.recorded.write path document).run (client.write path document).run
      ((client.request .put path (some document)).Once fun _ => .ok ()) :=
  client.records_send .put path (some document) fun _ => .ok ()

theorem records_configure :
    Records (configure client.recorded strategy parameters).run
      (configure client strategy parameters).run (Configures client strategy parameters) := by
  apply (records_bundle client).andThen
  · intro reads cause failed
    exact .refused failed rfl
  intro reads stored found
  apply Records.andThen (A := fun sent answer => sent = [] ∧ answer = stored.apply client.wording strategy parameters)
    (Records.pure ⟨rfl, rfl⟩)
  · rintro _ cause ⟨rfl, failed⟩
    rw [List.append_nil]
    exact .refused found failed.symm
  rintro _ applied ⟨rfl, made⟩
  apply (records_write client _ _).andThen
  · rintro _ cause ⟨exchange, rfl, failed⟩
    refine .unselected found made.symm ?_
    change _ = (selection client strategy).accept exchange >>= _ at failed
    cases accepted : (selection client strategy).accept exchange with
    | error refusal =>
      rw [accepted] at failed
      exact congrArg Except.error (Except.error.inj failed).symm
    | ok response => rw [accepted] at failed; cases failed
  rintro _ ⟨⟩ ⟨exchange, rfl, done⟩
  apply (records_write client _ _).mono
  intro written answer once
  change _ = (selection client strategy).accept exchange >>= _ at done
  cases accepted : (selection client strategy).accept exchange with
  | error refusal => rw [accepted] at done; cases done
  | ok response => exact .selected found made.symm accepted once

def changes (sent : List Sent) : List (Method × String) :=
  (sent.filter (·.request.method ≠ .get)).map fun x => (x.request.method, x.request.url)

variable {client strategy parameters}

theorem changes_append (sent sent' : List Sent) :
    changes (sent ++ sent') = changes sent ++ changes sent' := by
  simp [changes]

theorem Reads.changes_eq_nil {path : String} {say : String → Except Failure α} {sent : List Sent}
    {answer : Except Failure α} (reads : Reads client path say sent answer) :
    changes sent = [] := by
  obtain ⟨document, retried, -⟩ := reads
  simp only [changes, List.map_eq_nil_iff, List.filter_eq_nil_iff]
  intro x member
  rw [retried.same x member]
  simp [Client.request]

theorem Configures.changes_prefix {sent : List Sent} {answer : Except Failure Unit}
    (configures : Configures client strategy parameters sent answer) :
    changes sent <+: [(.put, client.base ++ "/" ++ "strategy/selection"),
      (.put, client.base ++ "/" ++ "strategy")] := by
  cases configures with
  | refused reads => rw [reads.changes_eq_nil]; exact List.nil_prefix
  | unselected reads =>
    rw [changes_append, reads.changes_eq_nil]
    exact ⟨[_], rfl⟩
  | selected reads _ _ once =>
    obtain ⟨exchange', rfl, -⟩ := once
    rw [changes_append, reads.changes_eq_nil]
    exact List.prefix_rfl

/-- No request that may change the service is repeated, and each read is sent again only after a
failure that may mend, three times at most. -/
theorem calls_send (client : Client (StateM σ)) :
    (∀ submission, Records (submit client.recorded submission).run (submit client submission).run
        ((client.request .post "backtests" (some submission.toJson)).Once (jobCreated client.wording))) ∧
      (∀ id, Records (cancel client.recorded id).run (cancel client id).run
        ((client.request .delete (jobPath id) none).Once fun _ => .ok ())) ∧
      (∀ strategy parameters, Records (configure client.recorded strategy parameters).run
        (configure client strategy parameters).run fun sent answer =>
          Configures client strategy parameters sent answer ∧
            changes sent <+: [(.put, client.base ++ "/" ++ "strategy/selection"),
              (.put, client.base ++ "/" ++ "strategy")]) ∧
      Records (bundle client.recorded).run (bundle client).run
        (Reads client "strategy" (storedBundle client.wording)) ∧
      (∀ id, Records (poll client.recorded id).run (poll client id).run
        (Reads client (jobPath id) (jobState client.wording))) ∧
      ∀ id, Records (fetch client.recorded id).run (fetch client id).run
        (Reads client (jobPath id ++ "/assets-states") (Feed.parse client.wording)) := by
  refine ⟨fun submission => ?_, fun id => ?_, fun strategy parameters => ?_, ?_, fun id => ?_,
    fun id => ?_⟩
  · exact client.records_send .post "backtests" (some submission.toJson) (jobCreated client.wording)
  · exact client.records_send .delete (jobPath id) none fun _ => .ok ()
  · apply (records_configure client strategy parameters).mono
    intro sent answer configures
    exact ⟨configures, configures.changes_prefix⟩
  · exact records_bundle client
  · exact records_reads client (jobPath id) (jobState client.wording)
  · exact records_reads client (jobPath id ++ "/assets-states") (Feed.parse client.wording)

end StrategySearch.Remote
