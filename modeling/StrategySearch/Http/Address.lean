import StrategySearch.Http.Target

/-! Addresses of the web: whether they are secured, host, port, and what is asked of the host. -/

set_option autoImplicit false

namespace StrategySearch.Http

structure Address where
  secure : Bool
  host : String
  port : Nat
  target : String
  deriving DecidableEq, Repr

namespace Address

def isAuthorityChar (c : Char) : Bool := !Target.isSlash c && c != '?' && c != '#'

def port? (usual : Nat) : List Char → Option Nat
  | [] | [':'] => some usual
  | _ :: digits => (Text.natural? digits).filter (· < UInt16.size)

/-- Any number of slashes stands in front of the host. -/
def ofRest? (secure : Bool) (cs : List Char) : Option Address := do
  let cs := cs.dropWhile Target.isSlash
  let authority := cs.takeWhile isAuthorityChar
  let host := authority.takeWhile (· != ':')
  if host.isEmpty then none
  let port ← port? (if secure then 443 else 80) (authority.drop host.length)
  return ⟨secure, Text.lower (String.ofList host), port,
    Target.ofChars (cs.drop authority.length)⟩

/-- Tabs and ends of lines are no part of an address. -/
def ofUrl? (url : String) : Option Address :=
  let cs := url.toList.filter fun c => c != '\t' && c != '\n' && c != '\r'
  if "http://".toList.isPrefixOf cs then ofRest? false (cs.drop 7)
  else if "https://".toList.isPrefixOf cs then ofRest? true (cs.drop 8)
  else none

end Address
end StrategySearch.Http
