import StrategySearch.Calendar.Date

/-! Instants of universal time down to the nanosecond. An inserted second is the second before it
with a thousand million nanoseconds or more. -/

set_option autoImplicit false

namespace StrategySearch

structure Instant where
  date : Date
  second : Nat
  nano : Nat
  second_lt : second < 86400
  nano_lt : nano < 2000000000
  deriving DecidableEq

namespace Instant

def make? (date : Date) (second nano : Nat) : Option Instant :=
  if h : second < 86400 ∧ nano < 2000000000 then some ⟨date, second, nano, h.1, h.2⟩ else none

def midnight (date : Date) : Instant := ⟨date, 0, 0, by decide, by decide⟩

def compare (a b : Instant) : Ordering :=
  (a.date.compare b.date).then ((Ord.compare a.second b.second).then (Ord.compare a.nano b.nano))

instance : Ord Instant := ⟨compare⟩
instance : LT Instant := ⟨fun a b => compare a b = .lt⟩
instance : LE Instant := ⟨fun a b => compare a b ≠ .gt⟩
instance (a b : Instant) : Decidable (a < b) := inferInstanceAs (Decidable (compare a b = .lt))
instance (a b : Instant) : Decidable (a ≤ b) := inferInstanceAs (Decidable (compare a b ≠ .gt))

/-- An inserted second between two times of day counts as one more. -/
def insertedSeconds (a b : Instant) : Int :=
  if b.second < a.second ∧ 1000000000 ≤ b.nano then 1
  else if a.second < b.second ∧ 1000000000 ≤ a.nano then -1
  else 0

/-- Whole seconds from `b` to `a`, toward zero. -/
def secondsSince (a b : Instant) : Int :=
  let days := a.date.dayNumber - b.date.dayNumber
  let seconds := 86400 * days + ((a.second : Int) - b.second) + insertedSeconds a b
  (seconds * 1000000000 + ((a.nano : Int) - b.nano)).tdiv 1000000000

/-- The least of 0, 3, 6 and 9 digits that says all. -/
def fractionText (nano : Nat) : String :=
  if nano = 0 then ""
  else if nano % 1000000 = 0 then "." ++ Text.zeroPadded 3 (nano / 1000000)
  else if nano % 1000 = 0 then "." ++ Text.zeroPadded 6 (nano / 1000)
  else "." ++ Text.zeroPadded 9 nano

def timeText (t : Instant) : String :=
  let inserted := t.nano / 1000000000
  Text.zeroPadded 2 (t.second / 3600) ++ ":" ++ Text.zeroPadded 2 (t.second / 60 % 60) ++ ":" ++
    Text.zeroPadded 2 (t.second % 60 + inserted) ++ fractionText (t.nano % 1000000000)

def isoText (t : Instant) : String := t.date.text ++ "T" ++ t.timeText ++ "Z"

def text (t : Instant) : String := t.date.text ++ " " ++ t.timeText ++ " UTC"

instance : ToString Instant := ⟨text⟩

/-- The instant at which clocks that are ahead by so many seconds show the given time. -/
def behind? (t : Instant) (ahead : Int) : Option Instant :=
  let shifted := (t.second : Int) - ahead
  let date? := if shifted < 0 then t.date.previous?
    else if 86400 ≤ shifted then t.date.next?
    else some t.date
  date?.bind fun date => make? date (shifted % 86400).toNat t.nano

end Instant
end StrategySearch
