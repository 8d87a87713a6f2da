import StrategySearch.Calendar.Instant
import StrategySearch.Power

/-! Reading dates and instants. Each form is a sequence of fields; a field takes characters from
the front and returns the rest. -/

set_option autoImplicit false

namespace StrategySearch.Calendar

abbrev Field (α : Type) := StateT (List Char) Option α

def skipBlanks : Field Unit := modify (List.dropWhile Text.isBlank)

def literal (c : Char) : Field Unit := do
  match ← get with
  | d :: rest => if d = c then set rest else failure
  | [] => failure

def oneOf (allowed : List Char) : Field Unit := do
  match ← get with
  | d :: rest => if allowed.contains d then set rest else failure
  | [] => failure

/-- At least `low` and at most `high` digits, as many as there are. -/
def digits (low high : Nat) : Field Nat := do
  let cs ← get
  let ds := (cs.take high).takeWhile Char.isDigit
  if ds.length < low then failure
  set (cs.drop ds.length)
  return Text.digitsValue ds

def short : Field Nat := do
  skipBlanks
  digits 1 2

/-- Up to four digits after blanks, or a sign and any number of digits. -/
def signedYear : Field Int := do
  skipBlanks
  let cs ← get
  match cs with
  | '-' :: rest => do
    set rest
    return -((← digits 1 rest.length) : Int)
  | '+' :: rest => do
    set rest
    return (← digits 1 rest.length : Nat)
  | _ => return (← digits 1 4 : Nat)

def calendarDate (year : Int) (month day : Nat) : Field Date :=
  StateT.lift (Date.make? year month day)

def finished {α : Type} (field : Field α) (s : String) : Option α :=
  match field.run s.toList with
  | some (a, []) => some a
  | _ => none

def date : Field Date := do
  let year ← signedYear
  literal '-'
  let month ← short
  literal '-'
  calendarDate year month (← short)

def spacedDate : Field Date := do
  let year ← signedYear
  skipBlanks
  literal '-'
  let month ← short
  skipBlanks
  literal '-'
  calendarDate year month (← short)

/-- Nanoseconds: a point and at least one digit, of which nine count. -/
def fraction : Field Nat := do
  match ← get with
  | '.' :: rest =>
    let ds := rest.takeWhile Char.isDigit
    if ds.isEmpty then failure
    set (rest.drop ds.length)
    let kept := ds.take 9
    return Text.digitsValue kept * tenTo (9 - kept.length)
  | _ => return 0

/-- Second 60 is the inserted second of any minute. -/
def timeOn (date : Date) (hour minute second nano : Nat) : Field Instant :=
  StateT.lift <|
    if 23 < hour ∨ 59 < minute ∨ 60 < second then none
    else if second = 60 then Instant.make? date (hour * 3600 + minute * 60 + 59) (nano + 1000000000)
    else Instant.make? date (hour * 3600 + minute * 60 + second) nano

/-- The sign of an offset; the minus may be the typographic one. -/
def offsetSign : Field Int := do
  match ← get with
  | '+' :: rest => set rest; return 1
  | '-' :: rest => set rest; return -1
  | '\u2212' :: rest => set rest; return -1
  | _ => failure

def offsetSeconds (sign : Int) (hours minutes : Nat) : Field Int :=
  if 23 < hours ∨ 59 < minutes then failure
  else return sign * ((hours * 3600 + minutes * 60 : Nat) : Int)

def strictOffset : Field Int := do
  match ← get with
  | 'Z' :: rest | 'z' :: rest => set rest; return 0
  | _ =>
    let sign ← offsetSign
    let hours ← digits 2 2
    literal ':'
    offsetSeconds sign hours (← digits 2 2)

/-- Colons or blanks may stand before the minutes. -/
def looseOffset : Field Int := do
  skipBlanks
  let cs ← get
  if (cs.take 3).map Char.toLower = ['u', 't', 'c'] then
    set (cs.drop 3)
    return 0
  match cs with
  | 'Z' :: rest | 'z' :: rest => set rest; return 0
  | _ =>
    let sign ← offsetSign
    let hours ← digits 2 2
    modify (List.dropWhile fun c => c == ':' || Text.isBlank c)
    offsetSeconds sign hours (← digits 2 2)

def atOffset (time : Instant) (offset : Int) : Field Instant := StateT.lift (time.behind? offset)

def strictInstant : Field Instant := do
  let year ← digits 4 4
  literal '-'
  let month ← digits 2 2
  literal '-'
  let day ← calendarDate year month (← digits 2 2)
  oneOf ['T', 't', ' ']
  let hour ← digits 2 2
  literal ':'
  let minute ← digits 2 2
  literal ':'
  let second ← digits 2 2
  let time ← timeOn day hour minute second (← fraction)
  atOffset time (← strictOffset)

def localInstant : Field Instant := do
  let day ← date
  literal 'T'
  let hour ← short
  literal ':'
  let minute ← short
  literal ':'
  let second ← short
  timeOn day hour minute second (← fraction)

def looseInstant : Field Instant := do
  let day ← spacedDate
  oneOf ['T', 't', ' ']
  let hour ← short
  skipBlanks
  literal ':'
  let minute ← short
  skipBlanks
  literal ':'
  let second ← short
  let time ← timeOn day hour minute second (← fraction)
  let result ← atOffset time (← looseOffset)
  skipBlanks
  return result

end Calendar

def Date.ofString? (s : String) : Option Date := Calendar.finished Calendar.date s

def Date.ofSpaced? (s : String) : Option Date :=
  Calendar.finished (do let d ← Calendar.spacedDate; Calendar.skipBlanks; return d) s

def Instant.ofString? (s : String) : Option Instant := Calendar.finished Calendar.looseInstant s

/-- An instant as the service gives it: with an offset, or in universal time without one, or the
start of a date. -/
def Instant.ofReport? (s : String) : Option Instant :=
  let s := Text.trim s
  (Calendar.finished Calendar.strictInstant s).orElse fun _ =>
    (Calendar.finished Calendar.localInstant s).orElse fun _ =>
      (Date.ofString? s).map Instant.midnight

end StrategySearch
