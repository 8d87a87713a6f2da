import StrategySearch.ByName
import StrategySearch.Text

/-! Where the service is: a host name with an optional port, or the full address of its
interface. -/

set_option autoImplicit false

namespace StrategySearch

abbrev Settings := ByName String

namespace Settings

def domainKey : String := "DOMAIN"
def apiUrlKey : String := "BACKTEST_API_URL"

end Settings

namespace Host

def isHostChar (c : Char) : Bool := c.isAlphanum || c == '.' || c == '-'

/-- The parts before and after the last colon, unless another colon stands before it. -/
def splitPort (cs : List Char) : List Char × Option (List Char) :=
  if cs.contains ':' then
    let port := (cs.reverse.takeWhile (· != ':')).reverse
    let host := cs.take (cs.length - port.length - 1)
    if host.getLast? = some ':' then (cs, none) else (host, some port)
  else (cs, none)

def isPort (cs : List Char) : Bool := !cs.isEmpty && cs.all Char.isDigit

def urlMarks : List String := ["://", "/", "?", "#"]

def isAddress (cs : List Char) : Bool :=
  !cs.isEmpty && !urlMarks.any (fun mark => Text.hasPart mark.toList cs) &&
    (let (host, port) := splitPort cs
    (port.map isPort).getD true && !host.isEmpty && host.all isHostChar)

def normalize? (s : String) : Option String :=
  let cs := Text.trimmed s.toList
  if isAddress cs then some (String.ofList cs) else none

def localNames : List String := ["localhost", "127.0.0.1"]

/-- The text starts with the name of this machine. -/
def isLocal (address : String) : Bool :=
  localNames.any fun name => name.toList.isPrefixOf (address.toList.map Char.toLower)

def scheme (address : String) : String := if isLocal address then "http" else "https"

end Host

namespace Settings

def webSchemes : List String := ["http://", "https://"]

def normalizeUrl? (s : String) : Option String :=
  let cs := Text.dropEndWhile (· == '/') (Text.trimmed s.toList)
  if webSchemes.any fun scheme => scheme.toList.isPrefixOf cs then some (String.ofList cs) else none

def appUrl? (settings : Settings) : Option String :=
  ((settings.get? domainKey).bind Host.normalize?).map fun address =>
    Host.scheme address ++ "://" ++ address

/-- An address of the interface goes before the host name. -/
def apiUrl? (settings : Settings) : Option String :=
  ((settings.get? apiUrlKey).bind normalizeUrl?).or (settings.appUrl?.map (· ++ "/api"))

end Settings
end StrategySearch
