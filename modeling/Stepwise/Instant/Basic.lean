/-!
# Instants

An instant is a reading of the UTC calendar and clock, to the nanosecond. The calendar is the
Gregorian one in both directions without end, and a minute may end with a leap second.
-/

namespace Stepwise

/-- A day of the Gregorian calendar. -/
structure Date where
  year : Int
  month : Nat
  day : Nat
deriving DecidableEq, Repr

namespace Date

def isLeapYear (year : Int) : Bool :=
  year % 4 = 0 && (year % 100 ≠ 0 || year % 400 = 0)

def daysInMonth (year : Int) (month : Nat) : Nat :=
  match month with
  | 2 => if isLeapYear year then 29 else 28
  | 4 | 6 | 9 | 11 => 30
  | _ => 31

/-- Whether the calendar has the day. -/
def isValid (d : Date) : Bool :=
  1 ≤ d.month && d.month ≤ 12 && 1 ≤ d.day && d.day ≤ daysInMonth d.year d.month

def next (d : Date) : Date :=
  if d.day < daysInMonth d.year d.month then { d with day := d.day + 1 }
  else if d.month < 12 then ⟨d.year, d.month + 1, 1⟩
  else ⟨d.year + 1, 1, 1⟩

def previous (d : Date) : Date :=
  if 1 < d.day then { d with day := d.day - 1 }
  else if 1 < d.month then ⟨d.year, d.month - 1, daysInMonth d.year (d.month - 1)⟩
  else ⟨d.year - 1, 12, 31⟩

end Date

/-- A reading of the UTC calendar and clock. -/
structure Instant where
  date : Date
  hour : Nat
  minute : Nat
  /-- From 0 to 59, and 60 in a leap second. -/
  second : Nat
  nanos : Nat
deriving DecidableEq, Repr

namespace Instant

/-- Whether calendar and clock have the reading. -/
def isValid (t : Instant) : Bool :=
  t.date.isValid && t.hour < 24 && t.minute < 60 && t.second ≤ 60 && t.nanos < 1000000000

/-- The instant at which a clock that is `offset` minutes ahead of UTC shows the reading. The offset
is less than a day. -/
def ofLocal (t : Instant) (offset : Int) : Instant :=
  let minutes := (t.hour * 60 + t.minute : Nat) - offset
  let date :=
    if minutes < 0 then t.date.previous
    else if 1440 ≤ minutes then t.date.next
    else t.date
  let ofDay := (minutes % 1440).toNat
  { t with date, hour := ofDay / 60, minute := ofDay % 60 }

/-- The range of years that instants are read in. -/
def isInRange (t : Instant) : Bool :=
  -262143 ≤ t.date.year && t.date.year ≤ 262142

end Instant

end Stepwise
