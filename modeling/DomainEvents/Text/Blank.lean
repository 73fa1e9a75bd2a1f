/-!
# Blank characters

The characters with the Unicode property White_Space. A name of an event holds none of them, and the
spaces that a time may carry between its parts are exactly these.
-/

namespace DomainEvents.Text

/-- The blocks of White_Space, each by its first and its last code point, in order. -/
def blankRanges : List (Nat × Nat) :=
  [(0x09, 0x0D), (0x20, 0x20), (0x85, 0x85), (0xA0, 0xA0), (0x1680, 0x1680), (0x2000, 0x200A),
   (0x2028, 0x2029), (0x202F, 0x202F), (0x205F, 0x205F), (0x3000, 0x3000)]

/-- Whether a character is blank. -/
def isBlank (c : Char) : Bool :=
  blankRanges.any fun (first, last) => first ≤ c.toNat && c.toNat ≤ last

/-- A text without the blanks it starts with. -/
def dropBlanks (cs : List Char) : List Char :=
  cs.dropWhile isBlank

end DomainEvents.Text
