import StrategySearch.Text

/-! Dates of the Gregorian calendar, extended to both sides. -/

set_option autoImplicit false

namespace StrategySearch

def isLeapYear (year : Int) : Bool :=
  year % 4 == 0 && (year % 100 != 0 || year % 400 == 0)

def daysInMonth (year : Int) (month : Nat) : Nat :=
  match month with
  | 1 | 3 | 5 | 7 | 8 | 10 | 12 => 31
  | 4 | 6 | 9 | 11 => 30
  | 2 => if isLeapYear year then 29 else 28
  | _ => 0

def minYear : Int := -262143
def maxYear : Int := 262142

def isCalendarDate (year : Int) (month day : Nat) : Bool :=
  minYear ≤ year && year ≤ maxYear && 1 ≤ day && day ≤ daysInMonth year month

structure Date where
  year : Int
  month : Nat
  day : Nat
  valid : isCalendarDate year month day
  deriving DecidableEq

namespace Date

def make? (year : Int) (month day : Nat) : Option Date :=
  if h : isCalendarDate year month day then some ⟨year, month, day, h⟩ else none

def compare (a b : Date) : Ordering :=
  (Ord.compare a.year b.year).then ((Ord.compare a.month b.month).then (Ord.compare a.day b.day))

instance : Ord Date := ⟨compare⟩
instance : LT Date := ⟨fun a b => compare a b = .lt⟩
instance (a b : Date) : Decidable (a < b) := inferInstanceAs (Decidable (compare a b = .lt))

/-- Days since 1 January 1970. -/
def dayNumber (d : Date) : Int :=
  let y := if d.month ≤ 2 then d.year - 1 else d.year
  let era := y / 400
  let yearOfEra := y - era * 400
  let shifted : Int := if d.month ≤ 2 then d.month + 9 else d.month - 3
  let dayOfYear := (153 * shifted + 2) / 5 + d.day - 1
  era * 146097 + (yearOfEra * 365 + yearOfEra / 4 - yearOfEra / 100 + dayOfYear) - 719468

def next? (d : Date) : Option Date :=
  (make? d.year d.month (d.day + 1)).or
    ((make? d.year (d.month + 1) 1).or (make? (d.year + 1) 1 1))

def previous? (d : Date) : Option Date :=
  if 1 < d.day then make? d.year d.month (d.day - 1)
  else if 1 < d.month then make? d.year (d.month - 1) (daysInMonth d.year (d.month - 1))
  else make? (d.year - 1) 12 31

/-- Four digits; a year that needs another form has a sign. -/
def yearText (year : Int) : String :=
  if 0 ≤ year ∧ year ≤ 9999 then Text.zeroPadded 4 year.toNat
  else (if year < 0 then "-" else "+") ++ Text.zeroPadded 4 year.natAbs

def text (d : Date) : String :=
  yearText d.year ++ "-" ++ Text.zeroPadded 2 d.month ++ "-" ++ Text.zeroPadded 2 d.day

instance : ToString Date := ⟨text⟩

end Date

/-- A period of at least one day: the start lies before the end. -/
structure Period where
  start : Date
  stop : Date
  start_lt_stop : start < stop

def Period.make? (start stop : Date) : Option Period :=
  if h : start < stop then some ⟨start, stop, h⟩ else none

end StrategySearch
