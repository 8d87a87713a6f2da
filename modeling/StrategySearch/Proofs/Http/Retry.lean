import StrategySearch.Http.Client

/-! What is sent for a read.

A transport that keeps a record answers like the same transport without one. The record of a read is
one request over and over, which ends with the first attempt that another one would not mend, or
when there were enough.
-/

set_option autoImplicit false

namespace StrategySearch.Http

variable {σ α β : Type}

structure Sent where
  request : Request
  exchange : Exchange

def Transport.recorded (transport : Transport (StateM σ)) :
    Transport (StateM (σ × List Sent)) where
  send request := fun (s, sent) =>
    let (exchange, s) := transport.send request s
    (exchange, (s, sent ++ [⟨request, exchange⟩]))
  pause milliseconds := fun (s, sent) => ((), ((transport.pause milliseconds s).2, sent))

def Client.recorded (client : Client (StateM σ)) : Client (StateM (σ × List Sent)) where
  transport := client.transport.recorded
  wording := client.wording
  base := client.base
  credentials := client.credentials

/-- Recorded, the computation goes the same way, and its record belongs to its answer. -/
def Records (recorded : StateM (σ × List Sent) α) (plain : StateM σ α)
    (belong : List Sent → α → Prop) : Prop :=
  ∀ s earlier, ∃ sent, recorded (s, earlier) = ((plain s).1, ((plain s).2, earlier ++ sent)) ∧
    belong sent (plain s).1

namespace Records

variable {recorded : StateM (σ × List Sent) α} {plain : StateM σ α} {A B : List Sent → α → Prop}
  {C : List Sent → β → Prop}

theorem pure {a : α} (belongs : A [] a) : Records (σ := σ) (Pure.pure a) (Pure.pure a) A := by
  intro s earlier
  exact ⟨[], by rw [List.append_nil]; rfl, belongs⟩

theorem mono (records : Records recorded plain A) (weaker : ∀ sent a, A sent a → B sent a) :
    Records recorded plain B := by
  intro s earlier
  obtain ⟨sent, same, belongs⟩ := records s earlier
  exact ⟨sent, same, weaker sent _ belongs⟩

theorem bind {f : α → StateM (σ × List Sent) β} {g : α → StateM σ β}
    (first : Records recorded plain A)
    (rest : ∀ sent a, A sent a → Records (f a) (g a) fun sent' b => C (sent ++ sent') b) :
    Records (recorded >>= f) (plain >>= g) C := by
  intro s earlier
  obtain ⟨sent, same, belongs⟩ := first s earlier
  obtain ⟨sent', same', belongs'⟩ := rest sent _ belongs (plain s).2 (earlier ++ sent)
  refine ⟨sent ++ sent', ?_, belongs'⟩
  show f (recorded (s, earlier)).1 (recorded (s, earlier)).2 = _
  rw [same, same', List.append_assoc]
  rfl

theorem andThen {first : ExceptT Failure (StateM (σ × List Sent)) α}
    {first' : ExceptT Failure (StateM σ) α} {f : α → ExceptT Failure (StateM (σ × List Sent)) β}
    {g : α → ExceptT Failure (StateM σ) β} {A : List Sent → Except Failure α → Prop}
    {C : List Sent → Except Failure β → Prop} (starts : Records first.run first'.run A)
    (fails : ∀ sent cause, A sent (.error cause) → C sent (.error cause))
    (goesOn : ∀ sent a, A sent (.ok a) →
      Records (f a).run (g a).run fun sent' b => C (sent ++ sent') b) :
    Records (first >>= f).run (first' >>= g).run C := by
  show Records (first.run >>= ExceptT.bindCont f) (first'.run >>= ExceptT.bindCont g) C
  refine starts.bind fun sent answer belongs => ?_
  cases answer with
  | error cause => exact pure (by simpa using fails sent cause belongs)
  | ok a => exact goesOn sent a belongs

end Records

def Request.Once (request : Request) (say : Response → Except Failure α) (sent : List Sent)
    (answer : Except Failure α) : Prop :=
  ∃ exchange, sent = [⟨request, exchange⟩] ∧ answer = request.accept exchange >>= say

def Request.received (request : Request) (exchange : Exchange) : Except Failure String :=
  request.accept exchange >>= Response.text

namespace Client

variable (client : Client (StateM σ))

theorem records_exchange (method : Method) (path : String) (body : Option Json) :
    Records (client.recorded.send method path body).run (client.send method path body).run
      fun sent answer => ∃ exchange, sent = [⟨client.request method path body, exchange⟩] ∧
        answer = (client.request method path body).accept exchange := by
  intro s earlier
  exact ⟨[⟨client.request method path body, _⟩], rfl, _, rfl, rfl⟩

theorem records_send (method : Method) (path : String) (body : Option Json)
    (say : Response → Except Failure α) :
    Records
      (client.recorded.send method path body >>= fun r => ExceptT.mk (pure (say r))).run
      (client.send method path body >>= fun r => ExceptT.mk (pure (say r))).run
      ((client.request method path body).Once say) := by
  apply (client.records_exchange method path body).andThen
  · rintro sent cause ⟨exchange, rfl, refused⟩
    exact ⟨exchange, rfl, by rw [← refused]; rfl⟩
  · rintro sent response ⟨exchange, rfl, accepted⟩
    exact Records.pure ⟨exchange, rfl, by rw [← accepted]; rfl⟩

theorem records_readOnce (path : String) :
    Records (client.recorded.readOnce path).run (client.readOnce path).run
      ((client.request .get path none).Once Response.text) :=
  client.records_send .get path none Response.text

end Client

/-- Nothing came back, or it broke off, or the service itself has failed. -/
inductive Exchange.IsTransient : Exchange → Prop where
  | dropped (reason : String) : IsTransient (.dropped reason)
  | brokenBody {response : Response} {reason : String} :
      response.succeeded → response.body = .error reason → IsTransient (.answered response)
  | serverError {response : Response} : 500 ≤ response.status → IsTransient (.answered response)

variable {request : Request} {exchange : Exchange}

theorem Response.status_lt_of_succeeded {response : Response} (success : response.succeeded) :
    response.status < 500 := by
  simp only [succeeded, Bool.and_eq_true, decide_eq_true_eq] at success
  omega

theorem Request.received_of_succeeded {response : Response} (success : response.succeeded) :
    request.received (.answered response) = response.text := by
  rw [received, accept, if_pos success]
  rfl

theorem Request.received_of_refused {response : Response} (refused : ¬ response.succeeded) :
    request.received (.answered response) = .error (request.refused response) := by
  rw [received, accept, if_neg refused]
  rfl

theorem Request.received_isTransient_iff :
    (∃ cause, request.received exchange = .error cause ∧ cause.isTransient) ↔
      exchange.IsTransient := by
  cases exchange with
  | dropped reason => exact iff_of_true ⟨_, rfl, rfl⟩ (.dropped reason)
  | answered response =>
    by_cases success : response.succeeded
    · rw [received_of_succeeded success, Response.text]
      cases came : response.body with
      | ok body =>
        refine iff_of_false (by simp) fun transient => ?_
        cases transient with
        | brokenBody _ broken => cases came.symm.trans broken
        | serverError failed =>
          exact Nat.not_le.mpr (Response.status_lt_of_succeeded success) failed
      | error reason => exact iff_of_true ⟨_, rfl, rfl⟩ (.brokenBody success came)
    · rw [received_of_refused success]
      constructor
      · rintro ⟨_, ⟨⟩, failed⟩
        exact .serverError (of_decide_eq_true failed)
      · intro transient
        cases transient with
        | brokenBody answered _ => exact absurd answered success
        | serverError failed => exact ⟨_, rfl, decide_eq_true failed⟩

theorem Request.not_isTransient_of_ok {document : String}
    (received : .ok document = request.received exchange) : ¬ exchange.IsTransient := by
  intro transient
  obtain ⟨cause, failed, -⟩ := received_isTransient_iff.mpr transient
  cases received.trans failed

theorem Request.isTransient_iff_of_error {cause : Failure}
    (received : .error cause = request.received exchange) :
    exchange.IsTransient ↔ cause.isTransient := by
  rw [← @received_isTransient_iff request, ← received]
  simp

/-- A read that may be repeated so many times: the exchanges and the answer of the last one. -/
inductive Attempts (request : Request) : Nat → List Sent → Except Failure String → Prop where
  | settled {left : Nat} {exchange : Exchange} : ¬ exchange.IsTransient →
      Attempts request left [⟨request, exchange⟩] (request.received exchange)
  | exhausted {exchange : Exchange} :
      Attempts request 0 [⟨request, exchange⟩] (request.received exchange)
  | again {left : Nat} {exchange : Exchange} {sent : List Sent} {answer : Except Failure String} :
      exchange.IsTransient → Attempts request left sent answer →
      Attempts request (left + 1) (⟨request, exchange⟩ :: sent) answer

theorem Records.pause (transport : Transport (StateM σ)) (milliseconds : Nat) :
    Records (transport.recorded.pause milliseconds) (transport.pause milliseconds)
      fun sent _ => sent = [] := by
  intro s earlier
  exact ⟨[], by rw [List.append_nil]; rfl, rfl⟩

theorem Records.retry {transport : Transport (StateM σ)}
    {recorded : StateM (σ × List Sent) (Except Failure String)}
    {plain : StateM σ (Except Failure String)}
    (once : Records recorded plain (request.Once Response.text)) (left : Nat) :
    Records (transport.recorded.retry recorded left) (transport.retry plain left)
      (Attempts request left) := by
  induction left with
  | zero =>
    apply once.mono
    rintro _ _ ⟨exchange, rfl, rfl⟩
    exact .exhausted
  | succ left ih =>
    refine once.bind ?_
    rintro _ answer ⟨exchange, rfl, received⟩
    change answer = request.received exchange at received
    cases answer with
    | ok document =>
      exact Records.pure (received ▸ .settled (Request.not_isTransient_of_ok received))
    | error cause =>
      -- Whether a read is repeated is told by its failure, and that by the exchange.
      have mends := Request.isTransient_iff_of_error received
      by_cases transient : cause.isTransient
      · simp only [transient, if_true]
        refine (Records.pause transport repeatDelay).bind ?_
        rintro _ ⟨⟩ rfl
        apply ih.mono
        intro sent answer attempts
        exact .again (mends.mpr transient) attempts
      · simp only [transient]
        exact Records.pure (received ▸ .settled fun again => transient (mends.mp again))

/-- One request, sent so many times at most: each time but the last because the time before might
mend, and the last one is answered for. -/
structure Retried (request : Request) (most : Nat) (sent : List Sent)
    (answer : Except Failure String) : Prop where
  count : 1 ≤ sent.length ∧ sent.length ≤ most
  same : ∀ x ∈ sent, x.request = request
  earlier : ∀ x ∈ sent.dropLast, x.exchange.IsTransient
  last : ∃ x, sent.getLast? = some x ∧ answer = request.received x.exchange ∧
    (x.exchange.IsTransient → sent.length = most)

theorem Attempts.retried {left : Nat} {sent : List Sent} {answer : Except Failure String}
    (attempts : Attempts request left sent answer) : Retried request (left + 1) sent answer := by
  induction attempts with
  | settled lasting => exact ⟨by simp, by simp, by simp, _, rfl, rfl, fun again => absurd again lasting⟩
  | exhausted => exact ⟨by simp, by simp, by simp, _, rfl, rfl, fun _ => rfl⟩
  | @again left exchange sent answer transient _ ih =>
    obtain ⟨x, isLast, answered, exhausts⟩ := ih.last
    have some : sent ≠ [] := List.ne_nil_of_length_pos ih.count.1
    refine ⟨?_, ?_, ?_, x, ?_, answered, ?_⟩
    · have := ih.count
      simp
      omega
    · simpa using ih.same
    · simpa [List.dropLast_cons_of_ne_nil some, transient] using ih.earlier
    · rw [List.getLast?_cons, isLast]
      rfl
    · simpa using exhausts

theorem Client.records_read (client : Client (StateM σ)) (path : String) :
    Records (client.recorded.read path).run (client.read path).run
      (Retried (client.request .get path none) 3) :=
  (Records.retry (client.records_readOnce path) repeats).mono fun _ _ attempts => attempts.retried

end StrategySearch.Http
