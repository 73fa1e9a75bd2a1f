import DomainEvents.Time.Date

/-!
# Instants

Points in time to the nanosecond, each given by its day and time of day in UTC. A leap second is the
second before it with a second or more of nanoseconds. On the calendar that is the 59th of a minute,
but an instant that is set by its parts may have one anywhere.
-/

namespace DomainEvents.Time

/-- How many seconds a day has. -/
def daySeconds : Nat := 86400

/-- How many nanoseconds a second has. -/
def secondNanos : Nat := 1000000000

/-- A point in time, in UTC. -/
structure Instant where
  /-- the day -/
  date : Date
  /-- the second of the day -/
  second : Nat
  /-- the nanoseconds after it; from one second up in a leap second -/
  nanos : Nat
deriving DecidableEq, Repr, Inhabited

namespace Instant

/-- The order of instants. -/
def compare (a b : Instant) : Ordering :=
  (a.date.compare b.date).then
    ((Ord.compare a.second b.second).then (Ord.compare a.nanos b.nanos))

/-- Whether an instant is not after another. -/
def le (a b : Instant) : Bool := a.compare b != .gt

/-- The instant that a clock shows which is `offset` seconds ahead of UTC and less than a day. -/
def ofLocal (shown : Instant) (offset : Int) : Instant :=
  let second : Int := shown.second - offset
  if second < 0 then
    { shown with date := shown.date.previous, second := (second + daySeconds).toNat }
  else if daySeconds ≤ second then
    { shown with date := shown.date.next, second := (second - daySeconds).toNat }
  else { shown with second := second.toNat }

end Instant

end DomainEvents.Time
