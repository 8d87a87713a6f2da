import StrategySearch.Failure
import StrategySearch.Http.Credentials
import StrategySearch.Http.Exchange
import StrategySearch.Json.Writer

/-! Requests under one address, with the credentials of one user. Reading is repeated after a
transient failure; nothing else is ever sent twice. -/

set_option autoImplicit false

namespace StrategySearch

namespace Http

def withoutOrderMark (s : String) : String :=
  match s.toList with
  | '\ufeff' :: rest => String.ofList rest
  | _ => s

def Response.text (r : Response) : Except Failure String :=
  match r.body with
  | .ok body => .ok (withoutOrderMark body)
  | .error reason => .error (.brokenBody reason)

def Request.refused (request : Request) (response : Response) : Failure :=
  .status request.method request.url response.status
    (Text.abridge Failure.payloadLimit (response.text.toOption.getD ""))

def Request.accept (request : Request) : Exchange → Except Failure Response
  | .dropped reason => .error (.transport s!"{request.method.name} {request.url}: {reason}")
  | .answered response =>
    if response.succeeded then .ok response else .error (request.refused response)

def repeats : Nat := 2

/-- The wait before a repetition, in milliseconds. -/
def repeatDelay : Nat := 3000

/-- Repeats an attempt while its failures are transient, so many times at most. -/
def Transport.retry {m : Type → Type} [Monad m] {α : Type} (transport : Transport m)
    (attempt : m (Except Failure α)) : Nat → m (Except Failure α)
  | 0 => attempt
  | left + 1 => do
    match ← attempt with
    | .ok a => pure (.ok a)
    | .error cause =>
      if cause.isTransient then do
        transport.pause repeatDelay
        transport.retry attempt left
      else pure (.error cause)

structure Client (m : Type → Type) where
  transport : Transport m
  wording : Json.Wording
  /-- Without slashes at its end. -/
  base : String
  credentials : Option Credentials

namespace Client

variable {m : Type → Type}

def start (transport : Transport m) (wording : Json.Wording) (address : String)
    (credentials : Option Credentials) : Client m where
  transport := transport
  wording := wording
  base := String.ofList (Text.dropEndWhile (· == '/') address.toList)
  credentials := credentials

def request (client : Client m) (method : Method) (path : String) (body : Option Json) :
    Request where
  method := method
  url := client.base ++ "/" ++ path
  authorization := client.credentials.map Credentials.authorization
  body := body.map Json.compact

variable [Monad m]

def send (client : Client m) (method : Method) (path : String) (body : Option Json) :
    ExceptT Failure m Response :=
  let request := client.request method path body
  ExceptT.mk (request.accept <$> client.transport.send request)

def readOnce (client : Client m) (path : String) : ExceptT Failure m String := do
  let response ← client.send .get path none
  ExceptT.mk (pure response.text)

def read (client : Client m) (path : String) : ExceptT Failure m String :=
  ExceptT.mk (client.transport.retry (client.readOnce path).run repeats)

def write (client : Client m) (path : String) (document : Json) : ExceptT Failure m Unit := do
  let _ ← client.send .put path (some document)

end Client
end Http
end StrategySearch
