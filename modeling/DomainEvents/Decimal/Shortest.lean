import DomainEvents.Decimal.Double

/-!
# Shortest decimals

The text of a double that has the fewest digits among the decimals that read back to it, and of
those is the nearest. The digits are found on exact natural numbers: the decimals that read back to
a double fill an interval between the midpoints to its neighbours, and for one, two, … seventeen
digits the two decimals around the double are tried. How the digits are laid out is the record
`Layout`.
-/

namespace DomainEvents

/-- A positive decimal `digits · 10 ^ power`. -/
structure Decimal where
  /-- the digits, as one number -/
  digits : Nat
  /-- the power of ten of the last digit -/
  power : Int
deriving DecidableEq, Repr

namespace Decimal

namespace Shortest

/-- The fraction `10 ^ p`, as numerator and denominator. -/
def powerOfTen (p : Int) : Nat × Nat :=
  (Nat.pow 10 p.toNat, Nat.pow 10 (-p).toNat)

/-- How many decimal digits a natural number has; none for zero. -/
def digitCount (n : Nat) : Nat :=
  if n = 0 then 0 else (Nat.toDigits 10 n).length

/-- The power of ten of the first digit of the positive quotient `num / den`. -/
def leadingPower (num den : Nat) : Int :=
  let whole := num / den
  if whole = 0 then - (digitCount ((den + num - 1) / num - 1) : Int)
  else (digitCount whole : Int) - 1

/-- The reals that round to a double, over a common denominator; both ends belong to them or
neither. -/
structure Interval where
  /-- numerator of the lower end -/
  low : Nat
  /-- numerator of the double itself -/
  value : Nat
  /-- numerator of the upper end -/
  high : Nat
  /-- the common denominator -/
  den : Nat
  /-- whether the ends round to the double too -/
  closed : Bool

/-- The interval around a double other than zero. It is half as wide below a power of two, and its
ends belong to it when the mantissa is even, as ties go to the even neighbour. -/
def interval (d : Double) : Interval :=
  let (a, b) := Double.powerOfTwo d.exponent
  let narrow := d.mantissa = Nat.pow 2 52 ∧ Double.leastExponent < d.exponent
  { low := (4 * d.mantissa - if narrow then 1 else 2) * a
    value := 4 * d.mantissa * a
    high := (4 * d.mantissa + 2) * a
    den := 4 * b
    closed := d.mantissa % 2 = 0 }

/-- Whether the quotient `num / den` lies in an interval. -/
def Interval.contains (i : Interval) (num den : Nat) : Bool :=
  if i.closed then i.low * den ≤ num * i.den && num * i.den ≤ i.high * den
  else i.low * den < num * i.den && num * i.den < i.high * den

/-- The decimal of a given last power that reads back and is nearest, if one of the two around the
value reads back. On a tie it is the even one. -/
def onGrid (i : Interval) (power : Int) : Option Nat :=
  let (a, b) := powerOfTen power
  let below := i.value * b / (i.den * a)
  let rest := i.value * b % (i.den * a)
  let reads (c : Nat) : Bool := c != 0 && i.contains (c * a) b
  let nearer :=
    if 2 * rest < i.den * a then below
    else if i.den * a < 2 * rest then below + 1
    else below + below % 2
  if reads nearer then some nearer
  else if reads below then some below
  else if reads (below + 1) then some (below + 1)
  else none

/-- The first grid, from coarse to fine, that holds a decimal which reads back. -/
def search (i : Interval) : Nat → Int → Option Decimal
  | 0, _ => none
  | tries + 1, power =>
    match onGrid i power with
    | some digits => some ⟨digits, power⟩
    | none => search i tries (power - 1)

/-- A decimal without the zeros at its end. -/
def trim : Nat → Decimal → Decimal
  | 0, d => d
  | n + 1, d =>
    if d.digits % 10 = 0 && d.digits != 0 then trim n ⟨d.digits / 10, d.power + 1⟩ else d

end Shortest

/-- The shortest decimal that reads back to a positive double, and of those the nearest. Seventeen
digits always suffice. -/
def shortest (d : Double) : Decimal :=
  let i := Shortest.interval d
  match Shortest.search i 17 (Shortest.leadingPower i.value i.den) with
  | some decimal => Shortest.trim 17 decimal
  | none => ⟨0, 0⟩

/-- How the digits of a number are laid out. -/
structure Layout where
  /-- positional when the point stands after more than this many places before the first digit -/
  pointAbove : Int
  /-- and after at most this many digits -/
  pointUpTo : Int
  /-- the mark between digits and exponent -/
  exponentMark : String
  /-- whether an exponent of zero or more carries a plus sign -/
  plusSign : Bool
  /-- what ends a whole number in positional form -/
  wholeEnd : String

/-- The digits and the power of ten of the last of them, as text. -/
def Layout.render (layout : Layout) (d : Decimal) : String :=
  let digits := Nat.toDigits 10 d.digits
  let point : Int := digits.length + d.power
  if layout.pointAbove < point && point ≤ layout.pointUpTo then
    if 0 ≤ d.power then
      String.ofList (digits ++ List.replicate d.power.toNat '0') ++ layout.wholeEnd
    else if 0 < point then
      String.ofList (digits.take point.toNat ++ '.' :: digits.drop point.toNat)
    else
      String.ofList (['0', '.'] ++ List.replicate (-point).toNat '0' ++ digits)
  else
    let significand :=
      match digits with
      | first :: second :: more => first :: '.' :: second :: more
      | short => short
    let exponent := point - 1
    let sign := if exponent < 0 then "-" else if layout.plusSign then "+" else ""
    String.ofList significand ++ layout.exponentMark ++ sign ++ toString exponent.natAbs

/-- The text of a double in a layout. -/
def Layout.text (layout : Layout) (d : Double) : String :=
  let sign := if d.negative then "-" else ""
  let body := if d.isZero then "0" ++ layout.wholeEnd else layout.render (shortest d)
  sign ++ body

end Decimal

end DomainEvents
