/-!
# UUIDs

A UUID is a word of 128 bits. It is written as 32 small hexadecimal digits in groups of 8, 4, 4, 4
and 12. It is read from that form, from the digits without hyphens, and from the grouped form in
braces or after `urn:uuid:`, with digits of either case.
-/

namespace DomainEvents

/-- A universally unique identifier. -/
structure Uuid where
  /-- the 128 bits, the first digit being the most significant -/
  bits : BitVec 128
deriving DecidableEq, Repr, Inhabited

namespace Uuid

/-- The sizes of the groups of digits. -/
def groups : List Nat := [8, 4, 4, 4, 12]

/-- The last `count` hexadecimal digits of a number, the most significant first. -/
def hexDigits : Nat → Nat → List Char
  | 0, _ => []
  | count + 1, n => hexDigits count (n / 16) ++ [Nat.digitChar (n % 16)]

/-- Digits in groups with hyphens between them. -/
def hyphenate : List Nat → List Char → List Char
  | [], digits => digits
  | [_], digits => digits
  | size :: more, digits => digits.take size ++ '-' :: hyphenate more (digits.drop size)

/-- The text of a UUID: small digits in groups. -/
def text (u : Uuid) : String :=
  String.ofList (hyphenate groups (hexDigits 32 u.bits.toNat))

/-- The value of a hexadecimal digit of either case. -/
def digit? (c : Char) : Option Nat :=
  if '0' ≤ c ∧ c ≤ '9' then some (c.toNat - '0'.toNat)
  else if 'a' ≤ c ∧ c ≤ 'f' then some (c.toNat - 'a'.toNat + 10)
  else if 'A' ≤ c ∧ c ≤ 'F' then some (c.toNat - 'A'.toNat + 10)
  else none

/-- The number that the digits stand for, if all of them are digits. -/
def ofDigits? (n : Nat) : List Char → Option Nat
  | [] => some n
  | c :: rest => do ofDigits? (n * 16 + (← digit? c)) rest

/-- The digits of a grouped form, if its hyphens stand where they should. -/
def ungroup? : List Nat → List Char → Option (List Char)
  | [], digits => if digits.isEmpty then some [] else none
  | [size], digits => if digits.length = size then some digits else none
  | size :: more, digits =>
    match digits.drop size with
    | '-' :: rest => do return digits.take size ++ (← ungroup? more rest)
    | _ => none

/-- The number of a grouped form. -/
def ofGrouped? (cs : List Char) : Option Nat := do
  ofDigits? 0 (← ungroup? groups cs)

/-- A grouped form without the braces or the name around it. -/
def bare (cs : List Char) : List Char :=
  match cs with
  | 'u' :: 'r' :: 'n' :: ':' :: 'u' :: 'u' :: 'i' :: 'd' :: ':' :: rest => rest
  | '\x7b' :: rest => if rest.getLast? = some '\x7d' then rest.dropLast else cs
  | _ => cs

/-- The UUID of a text, if it is one. -/
def parse? (s : String) : Option Uuid := do
  let cs := s.toList
  let n ← if cs.length = 32 then ofDigits? 0 cs else ofGrouped? (bare cs)
  return ⟨BitVec.ofNat 128 n⟩

/-- The UUID of version 4 whose last 48 bits are a number and whose other bits are as empty as the
version allows. -/
def ofNumber (n : Nat) : Uuid :=
  ⟨BitVec.ofNat 128 (0x4000 * Nat.pow 2 64 + 0x8000 * Nat.pow 2 48 + n % Nat.pow 2 48)⟩

/-- The version of a UUID: its thirteenth digit. -/
def version (u : Uuid) : Nat :=
  u.bits.toNat / Nat.pow 2 76 % 16

end Uuid

end DomainEvents
