import Std.Async.DNS
import Std.Async.TCP
import Std.Async.Timer
import StrategySearch.Command.Line
import StrategySearch.Http.Wire

/-! The program: commands run with the environment, the files and the network of this machine.
Only hosts that take plain connections are reached from here. -/

set_option autoImplicit false

namespace StrategySearch.Program

open Std.Async Std.Net

def fileReason : IO.Error → String
  | .noFileOrDirectory .. => "No such file or directory (os error 2)"
  | .permissionDenied .. => "Permission denied (os error 13)"
  | other => toString other

def attempt {α : Type} (reason : IO.Error → String) (step : IO α) : IO (Except String α) := do
  match ← step.toBaseIO with
  | .ok a => return .ok a
  | .error e => return .error (reason e)

def content (path : String) : IO (Except String String) := do
  match ← attempt fileReason (IO.FS.readBinFile path) with
  | .error e => return .error e
  | .ok bytes =>
    match String.fromUTF8? bytes with
    | some text => return .ok text
    | none => return .error "stream did not contain valid UTF-8"

def socketAddress (port : Nat) : IPAddr → SocketAddress
  | .v4 host => .v4 ⟨host, port.toUInt16⟩
  | .v6 host => .v6 ⟨host, port.toUInt16⟩

partial def receive (socket : TCP.Socket.Client) (received : ByteArray) : Async ByteArray := do
  match ← socket.recv? 65536 with
  | some bytes => receive socket (received ++ bytes)
  | none => return received

def converse (request : Http.Request) (address : Http.Address) : Async Http.Exchange := do
  let hosts ← DNS.getAddrInfo address.host ""
  match hosts[0]? with
  | none => return .dropped "no such host"
  | some host =>
    let socket ← TCP.Socket.Client.mk
    socket.connect (socketAddress address.port host)
    socket.send (request.wire address).toUTF8
    let bytes ← receive socket .empty
    match Http.Response.ofWire? bytes.toList with
    | some response => return .answered response
    | none => return .dropped "no response"

def expire (seconds : Nat) : Async Http.Exchange := do
  sleep (.ofNat (seconds * 1000))
  return .dropped "no response in time"

def send (seconds : Nat) (request : Http.Request) : IO Http.Exchange := do
  match Http.Address.ofUrl? request.url with
  | none => return .dropped "no address of the web"
  | some address =>
    if address.secure then return .dropped "only plain connections are made here"
    let exchange := Async.block (Async.race (converse request address) (expire seconds))
    match ← attempt toString exchange with
    | .ok exchange => return exchange
    | .error e => return .dropped e

def transport (seconds : Nat) : Http.Transport IO where
  send := send seconds
  pause milliseconds := IO.sleep milliseconds.toUInt32

def entropy : IO UInt64 := do
  let bytes ← IO.getRandomBytes 8
  return bytes.toList.foldl (fun n b => n * 256 + b.toUInt64) 0

def levelKey : String := "RUST_LOG"

/-- Lines of information are left out only if a level above them is named. -/
def isVerbose (level : Option String) : Bool :=
  match level with
  | none => true
  | some level => ["info", "debug", "trace"].contains (Text.lower (Text.trim level))

def environment : IO (List (String × String)) :=
  (levelKey :: Settings.keys ++ Http.Tls.keys).filterMapM fun key => do
    return (← IO.getEnv key).map fun value => (key, value)

def machine (known : List (String × String)) : Machine IO where
  environment key := known.lookup key
  print text := do
    let output ← IO.getStdout
    output.putStr text
    output.flush
  content := content
  store path text := attempt fileReason (IO.FS.writeFile path text)
  connect seconds _ := transport seconds
  entropy := entropy
  verbose := isVerbose (known.lookup levelKey)
  wording := .brief

end StrategySearch.Program

def main (words : List String) : IO UInt32 := do
  let machine := StrategySearch.Program.machine (← StrategySearch.Program.environment)
  let ending ← machine.execute words
  if let some message := ending.message then IO.eprintln message
  return ending.code.toUInt32
