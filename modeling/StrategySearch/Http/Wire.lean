import StrategySearch.Http.Address
import StrategySearch.Http.Exchange
import StrategySearch.Http.Head

/-! Requests and responses as bytes: a first line, headers, and a body. The length of a body is
given, or it comes in chunks, or it lasts to the end of the connection. -/

set_option autoImplicit false

namespace StrategySearch.Http

namespace Request

def hostText (address : Address) : String :=
  if address.port = (if address.secure then 443 else 80) then address.host
  else s!"{address.host}:{address.port}"

def headers (request : Request) (address : Address) : List (String × String) :=
  [("host", hostText address), ("accept", "*/*"), ("connection", "close")] ++
    (request.authorization.map fun value => ("authorization", value)).toList ++
    (match request.body with
      | some body =>
        [("content-type", "application/json"), ("content-length", toString body.utf8ByteSize)]
      | none => [])

def wire (request : Request) (address : Address) : String :=
  s!"{request.method.name} {address.target} HTTP/1.1\r\n" ++
    String.join ((request.headers address).map fun (name, value) => s!"{name}: {value}\r\n") ++
    "\r\n" ++ request.body.getD ""

end Request

namespace Response

def hexadecimal? (cs : List Char) : Option Nat :=
  if cs.isEmpty then none
  else cs.foldlM (fun n c => (Text.hexValue? c).map (n * 16 + ·)) 0

def chunkSize? (line : List Char) : List UInt8 → Option (Nat × List UInt8)
  | [] => none
  | 13 :: 10 :: rest =>
    let digits := line.reverse.takeWhile (· != ';')
    (hexadecimal? (Text.trimmed digits)).map fun size => (size, rest)
  | b :: rest => chunkSize? (Char.ofNat b.toNat :: line) rest

/-- The chunks up to the empty one. Each takes at least one step of the first number. -/
def chunks? : Nat → List UInt8 → Option (List UInt8)
  | 0, _ => none
  | fuel + 1, bytes => do
    let (size, rest) ← chunkSize? [] bytes
    if size = 0 then return []
    if rest.length < size + 2 then none
    return rest.take size ++ (← chunks? fuel (rest.drop (size + 2)))

inductive Framing where
  | empty
  | chunked
  | length (bytes : Nat)
  | untilClosed
  deriving DecidableEq, Repr

def isBodiless (status : Nat) : Bool := status == 101 || status == 204 || status == 304

def listed (head : Head) (name : String) : List (List Char) :=
  (head.all name).flatMap fun value => (Text.splitOff ',' value.toList).map Text.trimmed

/-- Lengths that are given more than once must agree. -/
def framing? (head : Head) : Option Framing :=
  if isBodiless head.status then some .empty
  else match (listed head "transfer-encoding").getLast? with
    | some encoding =>
      some (if Text.lower (String.ofList encoding) = "chunked" then .chunked else .untilClosed)
    | none => do
      match ← (listed head "content-length").mapM Text.natural? with
      | [] => return .untilClosed
      | size :: others => if others.all (· == size) then return .length size else none

def bodyBytes? (framing : Framing) (bytes : List UInt8) : Option (List UInt8) :=
  match framing with
  | .empty => some []
  | .chunked => chunks? (bytes.length + 1) bytes
  | .length size => if size ≤ bytes.length then some (bytes.take size) else none
  | .untilClosed => some bytes

def bodyText (bytes : Option (List UInt8)) : Except String String :=
  match bytes with
  | none => .error "the body is not complete"
  | some bytes =>
    match String.fromUTF8? (ByteArray.mk bytes.toArray) with
    | some text => .ok text
    | none => .error "the body is no text"

def ofWire? (bytes : List UInt8) : Option Response := do
  let (head, rest) ← Head.ofBytes? bytes
  let framing ← framing? head
  return ⟨head.status, head.header "location", bodyText (bodyBytes? framing rest)⟩

end Response
end StrategySearch.Http
