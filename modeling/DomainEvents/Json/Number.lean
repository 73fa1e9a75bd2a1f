import DomainEvents.Json.Basic

/-!
# Numbers in JSON text

A number is a whole part without leading zeros, perhaps a fraction, perhaps an exponent. A whole
number of 64 bits is kept exactly. Any other number becomes a double in two roundings: the leading
digits that fit into 64 bits are rounded to a double, and that is multiplied or divided by the
double of a power of ten.
-/

namespace DomainEvents.Json

/-- Why a text is no value: the first fault met from left to right. -/
inductive Fault where
  /-- the text ends before the value does -/
  | ended
  /-- a character that cannot stand where it stands, or a number out of range -/
  | malformed
  /-- a value of another shape than was asked for -/
  | mismatched
deriving DecidableEq, Repr

/-- What reading gives: mostly what was read and the text after it. -/
abbrev Reading := Except Fault

/-- The bound of a 64-bit word. -/
def wordBound : Nat := Nat.pow 2 64

/-- The digits a text starts with, and the text after them. -/
def takeDigits (cs : List Char) : List Nat × List Char :=
  ((cs.takeWhile Char.isDigit).map fun c => c.toNat - '0'.toNat, cs.dropWhile Char.isDigit)

/-- Appends digits to a number while it stays below 64 bits; gives the digits that are left. -/
def absorb (significand : Nat) : List Nat → Nat × List Nat
  | [] => (significand, [])
  | d :: rest =>
    if significand * 10 + d < wordBound then absorb (significand * 10 + d) rest
    else (significand, d :: rest)

/-- The digits of a number in the order they are written. -/
structure Numeral where
  /-- whether a minus sign stands before it -/
  negative : Bool
  /-- the digits before the point -/
  whole : List Nat
  /-- the digits after the point, if there is a point -/
  fraction : Option (List Nat)
  /-- the exponent, if there is one -/
  exponent : Option Int
deriving DecidableEq, Repr

/-- Multiplies a double by a power of ten, with the double nearest to that power. A power beyond `10
^ 308` is too large for any double but zero; one below `10 ^ (-308)` is applied in several steps, of
which three already give zero. -/
def scale : Nat → Decimal.Double → Int → Option Decimal.Double
  | 0, _, _ => some (.zero false)
  | steps + 1, d, power =>
    if power.natAbs ≤ 308 then do
      let ten ← Decimal.Double.ofNat? (Nat.pow 10 power.natAbs)
      if 0 ≤ power then d.mul? ten else d.div? ten
    else if d.isZero then some d
    else if 0 ≤ power then none
    else do
      let ten ← Decimal.Double.ofNat? (Nat.pow 10 308)
      scale steps (← d.div? ten) (power + 308)

/-- The double of a numeral; none when it is out of range. -/
def Numeral.double? (n : Numeral) : Option Decimal.Double := do
  let (significand, cut) := absorb 0 n.whole
  let fraction := n.fraction.getD []
  let (significand, unread) := absorb significand fraction
  let shift : Int := (cut.length : Int) - (fraction.length - unread.length : Nat)
  let power := shift + n.exponent.getD 0
  let d ← scale 4 (← Decimal.Double.ofNat? significand) power
  return if n.negative then d.neg else d

/-- The number with the given digits. -/
def ofDigits (digits : List Nat) : Nat :=
  digits.foldl (fun acc d => acc * 10 + d) 0

/-- The whole number of a numeral without fraction and exponent that fits a signed or unsigned word.
A minus sign before zero asks for a double. -/
def Numeral.int? (n : Numeral) : Option Int :=
  if n.fraction.isSome || n.exponent.isSome then none
  else
    let value := ofDigits n.whole
    if n.negative then
      if 0 < value && value ≤ Nat.pow 2 63 then some (-(value : Int)) else none
    else if value < wordBound then some value else none

/-- The value of a numeral; none when it is out of range. -/
def Numeral.value? (n : Numeral) : Option Json :=
  match n.int? with
  | some i => some (.int i)
  | none => n.double?.map .double

/-- Reads the digits before the point: zero alone, or digits that start with another one. -/
def readWhole (cs : List Char) : Reading (List Nat × List Char) :=
  match takeDigits cs with
  | ([], []) => .error .ended
  | ([], _) => .error .malformed
  | (0 :: _ :: _, _) => .error .malformed
  | (digits, rest) => .ok (digits, rest)

/-- Reads one digit or more. -/
def readDigits (cs : List Char) : Reading (List Nat × List Char) :=
  match takeDigits cs with
  | ([], []) => .error .ended
  | ([], _) => .error .malformed
  | (digits, rest) => .ok (digits, rest)

/-- Reads the fraction, if a point follows. -/
def readFraction (cs : List Char) : Reading (Option (List Nat) × List Char) :=
  match cs with
  | '.' :: rest => (readDigits rest).map fun (digits, rest) => (some digits, rest)
  | _ => .ok (none, cs)

/-- Reads the exponent, if its mark follows. -/
def readExponent (cs : List Char) : Reading (Option Int × List Char) :=
  match cs with
  | [] => .ok (none, cs)
  | mark :: rest =>
    if mark = 'e' ∨ mark = 'E' then
      match rest with
      | '+' :: rest => (readDigits rest).map fun (ds, rest) => (some (ofDigits ds : Int), rest)
      | '-' :: rest => (readDigits rest).map fun (ds, rest) => (some (-(ofDigits ds : Int)), rest)
      | rest => (readDigits rest).map fun (ds, rest) => (some (ofDigits ds : Int), rest)
    else .ok (none, cs)

/-- Reads a number after its sign. -/
def readNumber (negative : Bool) (cs : List Char) : Reading (Json × List Char) := do
  let (whole, rest) ← readWhole cs
  let (fraction, rest) ← readFraction rest
  let (exponent, rest) ← readExponent rest
  match Numeral.value? ⟨negative, whole, fraction, exponent⟩ with
  | some v => return (v, rest)
  | none => .error .malformed

end DomainEvents.Json
