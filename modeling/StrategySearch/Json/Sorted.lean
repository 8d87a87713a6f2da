import StrategySearch.ByName
import StrategySearch.Json.Basic

/-! Documents whose records list their fields in the order of the names. -/

set_option autoImplicit false

namespace StrategySearch.Json

mutual

def sorted : Json → Json
  | .list items => .list (sortedItems items)
  | .record fields => .record (sortedFields fields).entries
  | j => j

def sortedItems : List Json → List Json
  | [] => []
  | item :: rest => item.sorted :: sortedItems rest

def sortedFields : List (String × Json) → ByName Json
  | [] => .empty
  | (name, value) :: rest => (sortedFields rest).insert name value.sorted

end

end StrategySearch.Json
