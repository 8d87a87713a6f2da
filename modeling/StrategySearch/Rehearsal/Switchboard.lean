import StrategySearch.Http.Wire

/-! A host that answers from prepared replies instead of a network. Replies are listed by method and
path; the last one of a list is given again and again. -/

set_option autoImplicit false

namespace StrategySearch.Rehearsal

structure Reply where
  status : Nat
  body : String
  location : Option String
  dropped : Bool
  short : Bool

/-- How many bytes are announced and not sent when the body breaks off. -/
def Reply.shortfall : Nat := 10

/-- The reply as it is sent, the header with the location last and as it is given. -/
def Reply.wire (r : Reply) : String :=
  let size := r.body.utf8ByteSize + (if r.short then shortfall else 0)
  let location := (r.location.map fun value => s!"location: {value}\r\n").getD ""
  s!"HTTP/1.1 {r.status} -\r\ncontent-length: {size}\r\n" ++ location ++ "\r\n" ++ r.body

/-- A reply that cannot be read is as good as none. -/
def Reply.exchange (r : Reply) : Http.Exchange :=
  match if r.dropped then none else Http.Response.ofWire? r.wire.toUTF8.data.toList with
  | some response => .answered response
  | none => .dropped ""

structure Received where
  request : Http.Request
  path : String

structure Switchboard where
  host : String
  replies : List (String × List Reply)
  /-- Oldest first. -/
  received : List Received

namespace Switchboard

def unknown : Reply := ⟨404, "", none, false, false⟩

def take (key : String) : List (String × List Reply) → Reply × List (String × List Reply)
  | [] => (unknown, [])
  | (name, replies) :: rest =>
    if name = key then
      match replies with
      | [] => (unknown, (name, []) :: rest)
      | [reply] => (reply, (name, [reply]) :: rest)
      | reply :: later => (reply, (name, later) :: rest)
    else
      let (reply, rest) := take key rest
      (reply, (name, replies) :: rest)

def send (request : Http.Request) : StateM Switchboard Http.Exchange := fun s =>
  match Http.Address.ofUrl? request.url with
  | none => (.dropped "", s)
  | some address =>
    if address.secure || address.host != s.host then (.dropped "", s)
    else
      let (reply, replies) := take (request.method.name ++ " " ++ address.target) s.replies
      (reply.exchange,
        { s with replies := replies, received := s.received ++ [⟨request, address.target⟩] })

def transport : Http.Transport (StateM Switchboard) := ⟨send, fun _ => pure ()⟩

end Switchboard
end StrategySearch.Rehearsal
