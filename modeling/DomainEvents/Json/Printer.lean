import DomainEvents.Decimal.Shortest
import DomainEvents.Json.Basic

/-!
# Compact JSON text

A value written without any space. Quotes, backslashes and controls are escaped, all other
characters stand for themselves; doubles have the fewest digits that read back.
-/

namespace DomainEvents.Json

/-- A double is positional from `0.00001` up to sixteen digits before the point, with `.0` after a
whole number, and beyond that has an exponent with its sign. -/
def numberLayout : Decimal.Layout where
  pointAbove := -5
  pointUpTo := 16
  exponentMark := "e"
  plusSign := true
  wholeEnd := ".0"

/-- The text of a double. -/
def doubleText (d : Decimal.Double) : String :=
  numberLayout.text d

/-- How a character is written in a JSON text. -/
def escapeChar (c : Char) : List Char :=
  match c with
  | '"' => ['\\', '"']
  | '\\' => ['\\', '\\']
  | '\x08' => ['\\', 'b']
  | '\x0c' => ['\\', 'f']
  | '\n' => ['\\', 'n']
  | '\r' => ['\\', 'r']
  | '\t' => ['\\', 't']
  | c =>
    if c.toNat < 0x20 then
      ['\\', 'u', '0', '0', Nat.digitChar (c.toNat / 16), Nat.digitChar (c.toNat % 16)]
    else [c]

/-- A text as JSON. -/
def stringChars (s : String) : List Char :=
  '"' :: s.toList.flatMap escapeChar ++ ['"']

mutual

/-- The characters of a value in compact form. -/
def chars : Json → List Char
  | .null => "null".toList
  | .bool true => "true".toList
  | .bool false => "false".toList
  | .int n => (toString n).toList
  | .double d => (doubleText d).toList
  | .str s => stringChars s
  | .arr items => '[' :: itemChars items ++ [']']
  | .obj fields => '\x7b' :: fieldChars fields ++ ['\x7d']

/-- Items with commas between them. -/
def itemChars : List Json → List Char
  | [] => []
  | [v] => chars v
  | v :: rest => chars v ++ ',' :: itemChars rest

/-- Fields with commas between them. -/
def fieldChars : List (String × Json) → List Char
  | [] => []
  | [(name, v)] => stringChars name ++ ':' :: chars v
  | (name, v) :: rest => stringChars name ++ ':' :: chars v ++ ',' :: fieldChars rest

end

/-- The compact text of a value. -/
def compact (v : Json) : String :=
  String.ofList v.chars

/-- The compact text of fields in the order they are given. -/
def compactRecord (fields : List (String × Json)) : String :=
  String.ofList ('\x7b' :: fieldChars fields ++ ['\x7d'])

end DomainEvents.Json
