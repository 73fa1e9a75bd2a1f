/-!
# Doubles

The finite numbers of binary64, each as a sign and an exact product `mantissa · 2 ^ exponent`. Every
operation works on the exact quotient of natural numbers that it means and rounds once, to the
nearest double and on a tie to the even one (`roundRatio?`).
-/

namespace DomainEvents.Decimal

/-- A finite binary64 number, `± mantissa · 2 ^ exponent`. A mantissa below `2 ^ 52` goes with the
least exponent only, so each number other than zero is written in one way, and zero once for each
sign. -/
structure Double where
  /-- whether it carries the minus sign -/
  negative : Bool
  /-- the significant bits, below `2 ^ 53` -/
  mantissa : Nat
  /-- the power of two of the last of them, from -1074 to 971 -/
  exponent : Int
deriving DecidableEq, Repr, Inhabited

namespace Double

/-- The exponent of the last bit of the smallest doubles. -/
def leastExponent : Int := -1074

/-- The exponent of the last bit of the largest doubles. -/
def greatestExponent : Int := 971

/-- Zero with a sign. -/
def zero (negative : Bool) : Double := ⟨negative, 0, leastExponent⟩

/-- Whether a double is zero, of either sign. -/
def isZero (d : Double) : Bool := d.mantissa == 0

/-- The double of the opposite sign. -/
def neg (d : Double) : Double := { d with negative := !d.negative }

/-- Two doubles are the same number: equal, or zeros of either sign. -/
def sameNumber (a b : Double) : Bool := a == b || (a.isZero && b.isZero)

theorem sameNumber_self (d : Double) : d.sameNumber d = true := by
  simp [sameNumber]

/-- The fraction `2 ^ e`, as numerator and denominator. -/
def powerOfTwo (e : Int) : Nat × Nat :=
  (Nat.pow 2 e.toNat, Nat.pow 2 (-e).toNat)

/-- The quotient rounded to the nearest natural number, on a tie to the even one. -/
def roundQuotient (num den : Nat) : Nat :=
  let q := num / den
  let twice := 2 * (num % den)
  if twice < den then q
  else if den < twice then q + 1
  else q + q % 2

/-- The exponent at which the quotient `num / den` has 53 bits before the point, unless that is
below the least exponent. -/
def exponentOf (num den : Nat) : Int :=
  let guess : Int := (num.log2 : Int) - den.log2 - 52
  let (a, b) := powerOfTwo guess
  let e := if num * b < Nat.pow 2 52 * (den * a) then guess - 1 else guess
  max e leastExponent

/-- The double nearest to the quotient `num / den`, with ties to the even one. There is none when
the quotient rounds to `2 ^ 1024` or more. -/
def roundRatio? (negative : Bool) (num den : Nat) : Option Double :=
  if num = 0 then some (zero negative) else
    let e := exponentOf num den
    let (a, b) := powerOfTwo e
    let m := roundQuotient (num * b) (den * a)
    let (m, e) := if m = Nat.pow 2 53 then (Nat.pow 2 52, e + 1) else (m, e)
    if greatestExponent < e then none else some ⟨negative, m, e⟩

/-- The absolute value, as numerator and denominator. -/
def ratio (d : Double) : Nat × Nat :=
  let (a, b) := powerOfTwo d.exponent
  (d.mantissa * a, b)

/-- The product of two doubles, rounded; none when it is too large. -/
def mul? (x y : Double) : Option Double :=
  let (a, b) := x.ratio
  let (c, d) := y.ratio
  roundRatio? (x.negative != y.negative) (a * c) (b * d)

/-- The quotient of two doubles, rounded; none when it is too large or the divisor is zero. -/
def div? (x y : Double) : Option Double :=
  if y.isZero then none else
    let (a, b) := x.ratio
    let (c, d) := y.ratio
    roundRatio? (x.negative != y.negative) (a * d) (b * c)

/-- The double nearest to a natural number; none when it is too large. -/
def ofNat? (n : Nat) : Option Double := roundRatio? false n 1

end Double

end DomainEvents.Decimal
