import StrategySearch.Text.Base64

/-! Who sends a request. -/

set_option autoImplicit false

namespace StrategySearch

structure Credentials where
  user : String
  password : Option String
  deriving DecidableEq, Repr

/-- User and password divided by a colon, which stands there without a password too. -/
def Credentials.authorization (c : Credentials) : String :=
  "Basic " ++ Base64.ofText (c.user ++ ":" ++ c.password.getD "")

end StrategySearch
