import StrategySearch.Text

/-! Paths as texts, and the places they lead to from one working directory. A name below the
directory, above it or below the root is a place whether anything lies there or not. -/

set_option autoImplicit false

namespace StrategySearch.Rehearsal

/-- Where a walk sets out: the root, or a directory so many levels above the working directory. -/
inductive Ground where
  | root
  | above (levels : Nat)
  deriving DecidableEq, Repr

structure Place where
  ground : Ground
  names : List String
  deriving DecidableEq, Repr

namespace Place

def here : Place := ⟨.above 0, []⟩

def child (p : Place) (name : String) : Place := ⟨p.ground, p.names ++ [name]⟩

def parent (p : Place) : Place :=
  if p.names.isEmpty then
    match p.ground with
    | .root => p
    | .above n => ⟨.above (n + 1), []⟩
  else ⟨p.ground, p.names.dropLast⟩

end Place

/-- A path as it is written. Several slashes count as one. -/
structure Path where
  fromRoot : Bool
  names : List String
  slashed : Bool
  deriving DecidableEq, Repr

namespace Path

def ofString (s : String) : Path :=
  let names := (Text.splitOff '/' s.toList).filter (!·.isEmpty)
  ⟨s.toList.head? = some '/', names.map String.ofList, s.toList.getLast? = some '/'⟩

def start (p : Path) : Place := if p.fromRoot then ⟨.root, []⟩ else .here

/-- The place of a plain path, which has no names that mean a direction. -/
def place (p : Path) : Place := p.names.foldl Place.child p.start

end Path
end StrategySearch.Rehearsal
