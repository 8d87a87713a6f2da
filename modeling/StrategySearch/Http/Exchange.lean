import StrategySearch.Http.Method

/-! One request and what comes of it. -/

set_option autoImplicit false

namespace StrategySearch.Http

structure Request where
  method : Method
  url : String
  authorization : Option String
  body : Option String
  deriving DecidableEq, Repr

structure Response where
  status : Nat
  location : Option String
  body : Except String String

def isHeaderChar (c : Char) : Bool := c == '\t' || (0x20 ≤ c.toNat && c.toNat < 0x7F)

def Response.readableLocation? (r : Response) : Option String :=
  r.location.filter (·.toList.all isHeaderChar)

inductive Exchange where
  | dropped (reason : String)
  | answered (response : Response)
  deriving Inhabited

/-- Sends one request at a time, and waits for so many milliseconds. -/
structure Transport (m : Type → Type) where
  send : Request → m Exchange
  pause : Nat → m Unit

def Response.succeeded (r : Response) : Bool := 200 ≤ r.status && r.status < 300

end StrategySearch.Http
