import DomainEvents.Time.Instant

/-!
# Spans of time

Lengths of time to the nanosecond, up to `2 ^ 64` seconds. A span is written in the largest unit
that it fills, with a fraction that has no zeros at its end.
-/

namespace DomainEvents.Time

/-- A length of time. -/
structure Span where
  /-- whole seconds, below `2 ^ 64` -/
  seconds : Nat
  /-- nanoseconds beyond them, below a second -/
  nanos : Nat
deriving DecidableEq, Repr, Inhabited

namespace Span

/-- A span of milliseconds. -/
def ofMillis (n : Nat) : Span := ⟨n / 1000, n % 1000 * 1000000⟩

/-- Whether a span has no length. -/
def isZero (s : Span) : Bool := s.seconds == 0 && s.nanos == 0

/-- The milliseconds of a span, a part of one counting in full. -/
def toMillis (s : Span) : Nat := s.seconds * 1000 + (s.nanos + 999999) / 1000000

/-- The digits of a fraction of `width` places, without the zeros at its end. -/
def fractionDigits : Nat → Nat → List Char
  | 0, _ => []
  | width + 1, n =>
    if n = 0 then []
    else Nat.digitChar (n / Nat.pow 10 width) :: fractionDigits width (n % Nat.pow 10 width)

/-- A whole part and a fraction of `width` places in a unit. -/
def inUnit (whole fraction width : Nat) (unit : String) : String :=
  let digits := fractionDigits width fraction
  let point := if digits.isEmpty then "" else "."
  toString whole ++ point ++ String.ofList digits ++ unit

/-- The text of a span, in the largest of the units second, millisecond, microsecond and nanosecond
that it fills. -/
def text (s : Span) : String :=
  if 0 < s.seconds then inUnit s.seconds s.nanos 9 "s"
  else if 1000000 ≤ s.nanos then inUnit (s.nanos / 1000000) (s.nanos % 1000000) 6 "ms"
  else if 1000 ≤ s.nanos then inUnit (s.nanos / 1000) (s.nanos % 1000) 3 "\u00b5s"
  else inUnit s.nanos 0 0 "ns"

end Span

end DomainEvents.Time
