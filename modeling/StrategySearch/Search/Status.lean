/-! What an observer sees of a search. -/

set_option autoImplicit false

namespace StrategySearch

structure Status where
  phase : String
  budget : Nat
  completed : Nat
  failedFolds : Nat
  best : Option Float
  lastError : Option String

namespace Status

def blank : Status := ⟨"", 0, 0, 0, none, none⟩

def idle : Status := { blank with phase := "Idle" }

def enter (phase : String) (s : Status) : Status := { s with phase := phase }

def progress (budget completed failedFolds : Nat) (best : Option Float) (s : Status) : Status :=
  { s with budget := budget, completed := completed, failedFolds := failedFolds, best := best }

/-- The error stays until another one takes its place. -/
def fail (error : String) (s : Status) : Status := { s with lastError := some error }

end Status
end StrategySearch
