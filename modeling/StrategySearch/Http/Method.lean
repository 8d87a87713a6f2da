/-! The request methods of the service's interface. -/

set_option autoImplicit false

namespace StrategySearch.Http

inductive Method where
  | get
  | put
  | post
  | delete
  deriving DecidableEq, Repr

def Method.name : Method → String
  | .get => "GET"
  | .put => "PUT"
  | .post => "POST"
  | .delete => "DELETE"

end StrategySearch.Http
