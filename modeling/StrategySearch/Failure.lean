import StrategySearch.Calendar.Instant
import StrategySearch.Http.Method
import StrategySearch.Json.Reader

/-! The causes for which an operation gives no answer, and their wording. -/

set_option autoImplicit false

namespace StrategySearch

inductive Failure where
  | transport (detail : String)
  | brokenBody (detail : String)
  | status (method : Http.Method) (url : String) (code : Nat) (body : String)
  | validation (context payload : String)
  | unmatchedClose (symbol : String) (closed : Instant)
  | cancelled (job : String) (fold : Nat)
  | configuration (reason : String)
  deriving DecidableEq

namespace Failure

def payloadLimit : Nat := 2048

/-- Shows the document without surrounding blanks, cut to the limit. -/
def invalid (context payload : String) : Failure :=
  .validation context (Text.abridge payloadLimit payload)

/-- Reads a document; one of another structure is refused in the words of the decoder. -/
def decode {α : Type} (wording : Json.Wording) (read : Json → Option α) (context body : String) :
    Except Failure α :=
  match Json.decode? read body with
  | some a => .ok a
  | none => .error (.invalid s!"{context}: {wording.refusal context body}" body)

def message : Failure → String
  | .transport detail => s!"Transport error: {detail}"
  | .brokenBody detail => s!"HTTP error: {detail}"
  | .status method url code body => s!"{method.name} {url} returned {code}: {body}"
  | .validation context payload => s!"Validation error: {context} (payload: {payload})"
  | .unmatchedClose symbol closed =>
    s!"Position {symbol} closed on {closed} without a recorded open"
  | .cancelled job fold => s!"Backtest {job} for fold {fold} was cancelled"
  | .configuration reason => s!"Invalid configuration: {reason}"

def isCancellation : Failure → Bool
  | .cancelled _ _ => true
  | _ => false

def isTransient : Failure → Bool
  | .transport _ | .brokenBody _ => true
  | .status _ _ code _ => 500 ≤ code
  | _ => false

end Failure

/-- How a computation ends without its answer. -/
inductive Stop where
  | failure (cause : Failure)
  /-- An arithmetic operation left its range. -/
  | fault
  /-- The steps that were allowed are used up. -/
  | unfinished
  deriving DecidableEq

abbrev Answer (α : Type) := Except Stop α

namespace Answer

def ofExcept {α : Type} : Except Failure α → Answer α
  | .ok a => .ok a
  | .error cause => .error (.failure cause)

def orFault {α : Type} : Option α → Answer α
  | some a => .ok a
  | none => .error .fault

def refuse {α : Type} (cause : Failure) : Answer α := .error (.failure cause)

end Answer
end StrategySearch
