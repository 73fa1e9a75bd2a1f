import DomainEvents.Text.Blank
import DomainEvents.Time.Instant

/-!
# Texts of instants

An instant is written as date, time of day and zone, with as many digits of a second as it needs in
groups of three. It is read from a wider set of texts: spaces between the parts of the date and the
time, a small or no letter between the two, any offset from UTC below a day, and as many digits of a
second as one likes, of which nine count.
-/

namespace DomainEvents.Time

/-! ## Writing -/

/-- A number in at least `width` digits. -/
def padded (width n : Nat) : List Char :=
  let digits := Nat.toDigits 10 n
  List.replicate (width - digits.length) '0' ++ digits

/-- A year: four digits, with a sign outside of the years 0 to 9999. -/
def yearChars (year : Int) : List Char :=
  if 0 ≤ year ∧ year ≤ 9999 then padded 4 year.toNat
  else (if year < 0 then '-' else '+') :: padded 4 year.natAbs

/-- A date. -/
def Date.chars (d : Date) : List Char :=
  yearChars d.year ++ '-' :: padded 2 d.month ++ '-' :: padded 2 d.day

/-- The digits of a second: none, three, six or nine, the fewest that lose nothing. -/
def fractionChars (nanos : Nat) : List Char :=
  if nanos = 0 then []
  else if nanos % 1000000 = 0 then '.' :: padded 3 (nanos / 1000000)
  else if nanos % 1000 = 0 then '.' :: padded 6 (nanos / 1000)
  else '.' :: padded 9 nanos

/-- The time of day of an instant; a leap second is the 60th of its minute. -/
def Instant.clockChars (t : Instant) : List Char :=
  let leap := t.nanos / secondNanos
  padded 2 (t.second / 3600) ++ ':' :: padded 2 (t.second / 60 % 60) ++
    ':' :: padded 2 (t.second % 60 + leap) ++ fractionChars (t.nanos % secondNanos)

/-- The text of an instant with something between date and time and something at its end. -/
def Instant.textWith (between : Char) (zone : String) (t : Instant) : String :=
  String.ofList (t.date.chars ++ between :: t.clockChars ++ zone.toList)

/-- The text with an offset of zero hours. -/
def Instant.offsetText : Instant → String := Instant.textWith 'T' "+00:00"

/-- The text with the letter for UTC, as it is stored. -/
def Instant.zuluText : Instant → String := Instant.textWith 'T' "Z"

/-- The text for readers of a log. -/
def Instant.logText : Instant → String := Instant.textWith ' ' " UTC"

/-! ## Reading -/

/-- What a reader takes off the start of a text. -/
abbrev Scan (α : Type) := List Char → Option (α × List Char)

/-- Reads at least one digit and at most `width`. -/
def scanDigits (width : Nat) : Scan Nat := fun cs =>
  let digits := (cs.take width).takeWhile Char.isDigit
  if digits.isEmpty then none
  else
    some (digits.foldl (fun n c => n * 10 + (c.toNat - '0'.toNat)) 0, cs.drop digits.length)

/-- Reads a number of at most `width` digits after any blanks. -/
def scanNumber (width : Nat) : Scan Nat := fun cs =>
  scanDigits width (Text.dropBlanks cs)

/-- Reads a year after any blanks: up to four digits, or a sign and any number of them. -/
def scanYear : Scan Int := fun cs =>
  match Text.dropBlanks cs with
  | '-' :: rest => (scanDigits rest.length rest).map fun (n, rest) => (-(n : Int), rest)
  | '+' :: rest => (scanDigits rest.length rest).map fun (n, rest) => ((n : Int), rest)
  | rest => (scanDigits 4 rest).map fun (n, rest) => ((n : Int), rest)

/-- Passes a mark after any blanks. -/
def scanMark (mark : Char) : Scan Unit := fun cs =>
  match Text.dropBlanks cs with
  | c :: rest => if c = mark then some ((), rest) else none
  | [] => none

/-- Reads the digits of a second after a point, if there is one: the first nine count. -/
def scanFraction : Scan Nat := fun cs =>
  match cs with
  | '.' :: rest => do
    let (n, _) ← scanDigits 9 rest
    let digits := (rest.take 9).takeWhile Char.isDigit
    return (n * Nat.pow 10 (9 - digits.length), rest.dropWhile Char.isDigit)
  | _ => some (0, cs)

/-- Reads two digits. -/
def scanTwoDigits : Scan Nat := fun cs =>
  match cs with
  | a :: b :: rest =>
    if a.isDigit && b.isDigit then
      some ((a.toNat - '0'.toNat) * 10 + (b.toNat - '0'.toNat), rest)
    else none
  | _ => none

/-- The sign of an offset; the minus sign proper counts as well as the hyphen. -/
def scanSign : Scan Int := fun cs =>
  match cs with
  | '+' :: rest => some (1, rest)
  | '-' :: rest => some (-1, rest)
  | '\u2212' :: rest => some (-1, rest)
  | _ => none

/-- Reads a zone as seconds ahead of UTC: the letter Z, the word UTC in any case, or an offset in
hours and minutes with colons or blanks between the two. -/
def scanZone : Scan Int := fun cs =>
  match cs with
  | 'Z' :: rest | 'z' :: rest => some (0, rest)
  | _ =>
    if (cs.take 3).map Char.toUpper = ['U', 'T', 'C'] then some (0, cs.drop 3)
    else do
      let (sign, rest) ← scanSign cs
      let (hours, rest) ← scanTwoDigits rest
      let (minutes, rest) ← scanTwoDigits (rest.dropWhile fun c => c == ':' || Text.isBlank c)
      if minutes < 60 then some (sign * (hours * 3600 + minutes * 60 : Nat), rest) else none

/-- Reads the date of an instant. -/
def scanDate : Scan Date := fun cs => do
  let (year, rest) ← scanYear cs
  let ((), rest) ← scanMark '-' rest
  let (month, rest) ← scanNumber 2 rest
  let ((), rest) ← scanMark '-' rest
  let (day, rest) ← scanNumber 2 rest
  return (⟨year, month, day⟩, rest)

/-- Reads the time of day: the second of the day and the nanoseconds. The second 60 is the 59th with
a second of nanoseconds more. -/
def scanClock : Scan (Nat × Nat) := fun cs => do
  let (hour, rest) ← scanNumber 2 cs
  let ((), rest) ← scanMark ':' rest
  let (minute, rest) ← scanNumber 2 rest
  let ((), rest) ← scanMark ':' rest
  let (second, rest) ← scanNumber 2 rest
  let (nanos, rest) ← scanFraction rest
  if 24 ≤ hour ∨ 60 ≤ minute ∨ 61 ≤ second then none
  else
    let leap := second / 60
    return ((hour * 3600 + minute * 60 + (second - leap), nanos + leap * secondNanos), rest)

/-- The instant of a text, if it is one. -/
def Instant.parse? (s : String) : Option Instant := do
  let (date, rest) ← scanDate s.toList
  let rest ← match rest with
    | 'T' :: rest | 't' :: rest | ' ' :: rest => some rest
    | _ => none
  let ((second, nanos), rest) ← scanClock rest
  let (offset, rest) ← scanZone (Text.dropBlanks rest)
  let t := Instant.ofLocal ⟨date, second, nanos⟩ offset
  if (Text.dropBlanks rest).isEmpty && date.isValid && date.inRange && t.date.inRange
      && offset.natAbs < daySeconds then
    some t
  else none

end DomainEvents.Time
