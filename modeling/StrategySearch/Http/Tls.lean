import StrategySearch.Failure
import StrategySearch.Http.Pem

/-! Certificates for a connection in which both sides show who they are. The environment names
their files. -/

set_option autoImplicit false

namespace StrategySearch.Http

structure Tls where
  authority : Option String
  identity : Option String

namespace Tls

def authorityKey : String := "BACKTEST_API_MTLS_CA_CERT"
def certificateKey : String := "BACKTEST_API_MTLS_CLIENT_CERT"
def privateKey : String := "BACKTEST_API_MTLS_CLIENT_KEY"

def keys : List String := [authorityKey, certificateKey, privateKey]

def path? (environment : String → Option String) (key : String) : Option String :=
  ((environment key).map Text.trim).filter (· != "")

def joined (certificate key : String) : String :=
  if certificate.toList.getLast? = some '\n' then certificate ++ key
  else certificate ++ "\n" ++ key

variable {m : Type → Type} [Monad m] (content : String → m (Except String String))

def refuse {α : Type} (reason : String) : ExceptT Failure m α :=
  ExceptT.mk (pure (.error (.configuration reason)))

def readNamed (what path : String) : ExceptT Failure m String := do
  match ← ExceptT.lift (content path) with
  | .ok text => return text
  | .error reason => refuse s!"failed to read {what} from {path}: {reason}"

def readIdentity : Option String → Option String → ExceptT Failure m (Option String)
  | none, none => return none
  | some certificatePath, some keyPath => do
    let certificate ← readNamed content "mTLS client certificate" certificatePath
    let key ← readNamed content "mTLS client key" keyPath
    let text := joined certificate key
    if Pem.isIdentity text then return some text
    else refuse s!"failed to parse mTLS client identity from {certificatePath} and {keyPath}: no certificate with its key"
  | _, _ => refuse s!"{certificateKey} and {privateKey} must both be set when enabling API mTLS"

/-- The authority is read first. Certificate and key go together. -/
def load (environment : String → Option String) : ExceptT Failure m Tls := do
  let authority ← match path? environment authorityKey with
    | some path => some <$> readNamed content "mTLS CA certificate" path
    | none => pure none
  let identity ← readIdentity content (path? environment certificateKey)
    (path? environment privateKey)
  return ⟨authority, identity⟩

end Tls
end StrategySearch.Http
