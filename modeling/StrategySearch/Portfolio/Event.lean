import StrategySearch.Portfolio.Snapshot

/-! Events of a series of snapshots: a position is there from the start, opens or closes. Each
close is paired with the latest open of its symbol that no earlier close took. -/

set_option autoImplicit false

namespace StrategySearch

/-- On one date, seeds come before closes and closes before opens. -/
inductive EventKind where
  | seed
  | close
  | open
  deriving DecidableEq, Repr

def EventKind.rank : EventKind → Nat
  | .seed => 0
  | .close => 1
  | .open => 2

structure PositionEvent where
  kind : EventKind
  symbol : String
  instant : Instant
  /-- The place of a snapshot that holds the position. -/
  index : Nat
  deriving DecidableEq

structure Holding where
  opened : PositionEvent
  closed : PositionEvent
  deriving DecidableEq

namespace PositionEvent

def of (kind : EventKind) (t : Instant) (index : Nat) (p : Position) : PositionEvent :=
  ⟨kind, p.symbol, t, index⟩

def before (a b : PositionEvent) : Bool :=
  (a.instant.compare b.instant).then (compare a.kind.rank b.kind.rank) != .gt

/-- A position closes at its last snapshot and opens at the one before its first. The snapshots are
counted from the given index. -/
def changes (index : Nat) : List Snapshot → List PositionEvent
  | earlier :: later :: rest =>
    ((earlier.positions.filter fun p => !later.holds p.symbol).map
        (of .close earlier.instant index)) ++
      ((later.positions.filter fun p => !earlier.holds p.symbol).map
        (of .open earlier.instant (index + 1))) ++
      changes (index + 1) (later :: rest)
  | _ => []

/-- What is held at the start is seeded there, and what is held at the end closes there. -/
def ofSeries (series : List Snapshot) : List PositionEvent :=
  (series.head?.map fun s => s.positions.map (of .seed s.instant 0)).getD [] ++
    changes 0 series ++
    (series.getLast?.map fun s =>
      s.positions.map (of .close s.instant (series.length - 1))).getD []

/-- Pairs closes in order; the positions that are open come latest first. -/
def pairFrom : List PositionEvent → List PositionEvent → Except Failure (List Holding)
  | _, [] => .ok []
  | opens, e :: rest =>
    match e.kind with
    | .seed | .open => pairFrom (e :: opens) rest
    | .close =>
      match opens.find? (·.symbol == e.symbol) with
      | none => .error (.unmatchedClose e.symbol e.instant)
      | some o => (pairFrom (opens.eraseP (·.symbol == e.symbol)) rest).map (⟨o, e⟩ :: ·)

def pair (events : List PositionEvent) : Except Failure (List Holding) :=
  pairFrom [] (events.mergeSort before)

end PositionEvent
end StrategySearch
