/-!
# Dates

Days of the Gregorian calendar, run forwards and backwards without end: `Date.next` and
`Date.previous` step to the neighbouring days.
-/

namespace DomainEvents.Time

/-- A day of the calendar. -/
structure Date where
  /-- the year; the year before the first is zero -/
  year : Int
  /-- the month, from 1 to 12 -/
  month : Nat
  /-- the day of the month, from 1 -/
  day : Nat
deriving DecidableEq, Repr, Inhabited

/-- Whether a year has a 29th of February: every fourth, but of the full hundreds only every
fourth. -/
def isLeapYear (year : Int) : Bool :=
  year % 4 == 0 && (year % 100 != 0 || year % 400 == 0)

/-- How many days a month has. -/
def daysInMonth (year : Int) (month : Nat) : Nat :=
  if month = 2 then (if isLeapYear year then 29 else 28)
  else if month = 4 ∨ month = 6 ∨ month = 9 ∨ month = 11 then 30
  else 31

namespace Date

/-- Whether the month exists and has the day. -/
def isValid (d : Date) : Bool :=
  1 ≤ d.month && d.month ≤ 12 && 1 ≤ d.day && d.day ≤ daysInMonth d.year d.month

/-- The day after. -/
def next (d : Date) : Date :=
  if d.day < daysInMonth d.year d.month then { d with day := d.day + 1 }
  else if d.month < 12 then ⟨d.year, d.month + 1, 1⟩
  else ⟨d.year + 1, 1, 1⟩

/-- The day before. -/
def previous (d : Date) : Date :=
  if 1 < d.day then { d with day := d.day - 1 }
  else if 1 < d.month then ⟨d.year, d.month - 1, daysInMonth d.year (d.month - 1)⟩
  else ⟨d.year - 1, 12, 31⟩

/-- The first and the last year that are told apart. -/
def yearRange : Int × Int := (-262143, 262142)

/-- Whether a day lies within the years that are told apart. -/
def inRange (d : Date) : Bool :=
  yearRange.1 ≤ d.year && d.year ≤ yearRange.2

/-- The order of days. -/
def compare (a b : Date) : Ordering :=
  (Ord.compare a.year b.year).then ((Ord.compare a.month b.month).then (Ord.compare a.day b.day))

end Date

end DomainEvents.Time
