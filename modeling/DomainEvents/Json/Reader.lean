import DomainEvents.Json.Number

/-!
# Reading JSON text

A text is read from left to right, and the first fault decides. Arrays and objects may be nested up
to a given depth. Of two fields of one name in an object the later wins. Values that nobody asked
for are skipped (`skipValue`) by looser rules: to any depth, without looking at the size of numbers
and without pairing the halves of an escaped character.
-/

namespace DomainEvents.Json

/-- The characters that may stand between the parts of a JSON text. -/
def isSpace (c : Char) : Bool :=
  c == ' ' || c == '\n' || c == '\t' || c == '\r'

/-- A text without the space it starts with. -/
def dropSpace (cs : List Char) : List Char :=
  cs.dropWhile isSpace

/-! ## Words and strings -/

/-- Reads the given characters. -/
def expect : List Char → List Char → Reading (Unit × List Char)
  | [], cs => .ok ((), cs)
  | _ :: _, [] => .error .ended
  | want :: more, c :: rest => if c = want then expect more rest else .error .malformed

/-- The value of a hexadecimal digit. -/
def hexDigit? (c : Char) : Option Nat :=
  if '0' ≤ c ∧ c ≤ '9' then some (c.toNat - '0'.toNat)
  else if 'a' ≤ c ∧ c ≤ 'f' then some (c.toNat - 'a'.toNat + 10)
  else if 'A' ≤ c ∧ c ≤ 'F' then some (c.toNat - 'A'.toNat + 10)
  else none

/-- Reads four hexadecimal digits. A text of fewer than four bytes is too short for them, whatever
it holds. -/
def readHex4 (cs : List Char) : Reading (Nat × List Char) :=
  if (cs.take 4).foldl (fun bytes c => bytes + c.utf8Size) 0 < 4 then .error .ended
  else
    match cs with
    | a :: b :: c :: d :: rest =>
      match hexDigit? a, hexDigit? b, hexDigit? c, hexDigit? d with
      | some a, some b, some c, some d => .ok (((a * 16 + b) * 16 + c) * 16 + d, rest)
      | _, _, _, _ => .error .malformed
    | _ => .error .malformed

/-- The character that a one-letter escape stands for. -/
def shortEscape? : Char → Option Char
  | '"' => some '"'
  | '\\' => some '\\'
  | '/' => some '/'
  | 'b' => some '\x08'
  | 'f' => some '\x0c'
  | 'n' => some '\n'
  | 'r' => some '\r'
  | 't' => some '\t'
  | _ => none

/-- Whether a 16-bit unit is the first half of a character. -/
def isFirstHalf (n : Nat) : Bool := 0xD800 ≤ n && n ≤ 0xDBFF

/-- Whether a 16-bit unit is the second half of a character. -/
def isSecondHalf (n : Nat) : Bool := 0xDC00 ≤ n && n ≤ 0xDFFF

/-- Reads a character written by its 16-bit units, after the `\u`: one unit, or two halves of which
the second has a `\u` of its own. -/
def readUnits (cs : List Char) : Reading (Char × List Char) := do
  let (n, rest) ← readHex4 cs
  if isSecondHalf n then .error .malformed
  else if isFirstHalf n then
    let ((), rest) ← expect ['\\', 'u'] rest
    let (m, rest) ← readHex4 rest
    if isSecondHalf m then
      return (Char.ofNat (0x10000 + (n - 0xD800) * 0x400 + (m - 0xDC00)), rest)
    else .error .malformed
  else return (Char.ofNat n, rest)

/-- Reads an escape, after the backslash. -/
def readEscape (cs : List Char) : Reading (Char × List Char) :=
  match cs with
  | [] => .error .ended
  | 'u' :: rest => readUnits rest
  | c :: rest =>
    match shortEscape? c with
    | some decoded => .ok (decoded, rest)
    | none => .error .malformed

/-- Skips an escape, after the backslash; any four hexadecimal digits will do. -/
def skipEscape (cs : List Char) : Reading (Unit × List Char) :=
  match cs with
  | [] => .error .ended
  | 'u' :: rest => (readHex4 rest).map fun (_, rest) => ((), rest)
  | c :: rest => if (shortEscape? c).isSome then .ok ((), rest) else .error .malformed

/-- Reads the rest of a string up to its closing quote, with a step for each character. -/
def readStringTail : Nat → List Char → Reading (List Char × List Char)
  | 0, _ => .error .malformed
  | _ + 1, [] => .error .ended
  | steps + 1, c :: rest =>
    if c = '"' then .ok ([], rest)
    else if c = '\\' then do
      let (decoded, rest) ← readEscape rest
      let (more, rest) ← readStringTail steps rest
      return (decoded :: more, rest)
    else if c.toNat < 0x20 then .error .malformed
    else do
      let (more, rest) ← readStringTail steps rest
      return (c :: more, rest)

/-- Reads a string after its opening quote. -/
def readString (cs : List Char) : Reading (String × List Char) :=
  (readStringTail (cs.length + 1) cs).map fun (decoded, rest) => (String.ofList decoded, rest)

/-- Skips the rest of a string up to its closing quote. -/
def skipStringTail : Nat → List Char → Reading (Unit × List Char)
  | 0, _ => .error .malformed
  | _ + 1, [] => .error .ended
  | steps + 1, c :: rest =>
    if c = '"' then .ok ((), rest)
    else if c = '\\' then do
      let ((), rest) ← skipEscape rest
      skipStringTail steps rest
    else if c.toNat < 0x20 then .error .malformed
    else skipStringTail steps rest

/-- Skips a string after its opening quote. -/
def skipString (cs : List Char) : Reading (Unit × List Char) :=
  skipStringTail (cs.length + 1) cs

/-! ## Containers

What stands between the parts of an array or an object is the same whether the parts are read,
skipped or read into a record. -/

/-- Goes to the next item of an array: `some` text at which the item starts, or `none` at the
closing bracket. The text starts after the opening bracket or after the last item. -/
def nextItem (first : Bool) (cs : List Char) : Reading (Bool × List Char) :=
  match dropSpace cs with
  | [] => .error .ended
  | c :: rest =>
    if c = ']' then .ok (false, rest)
    else if first then .ok (true, c :: rest)
    else if c = ',' then
      match dropSpace rest with
      | [] => .error .ended
      | d :: more => if d = ']' then .error .malformed else .ok (true, d :: more)
    else .error .malformed

/-- Goes to the next field of an object, past the quote that opens its name; `false` at the closing
brace. -/
def nextField (first : Bool) (cs : List Char) : Reading (Bool × List Char) :=
  match dropSpace cs with
  | [] => .error .ended
  | c :: rest =>
    if c = '\x7d' then .ok (false, rest)
    else if first then
      if c = '"' then .ok (true, rest) else .error .malformed
    else if c = ',' then
      match dropSpace rest with
      | [] => .error .ended
      | d :: more => if d = '"' then .ok (true, more) else .error .malformed
    else .error .malformed

/-- Reads the colon between a name and its value. -/
def readColon (cs : List Char) : Reading (Unit × List Char) :=
  expect [':'] (dropSpace cs)

/-! ## Values -/

mutual

/-- Reads a value, with arrays and objects nested less than `depth` deep. -/
def readValue : Nat → Nat → List Char → Reading (Json × List Char)
  | 0, _, _ => .error .malformed
  | steps + 1, depth, cs =>
    match dropSpace cs with
    | [] => .error .ended
    | c :: rest =>
      if c = 'n' then (expect "ull".toList rest).map fun ((), rest) => (.null, rest)
      else if c = 't' then (expect "rue".toList rest).map fun ((), rest) => (.bool true, rest)
      else if c = 'f' then (expect "alse".toList rest).map fun ((), rest) => (.bool false, rest)
      else if c = '-' then readNumber true rest
      else if c.isDigit then readNumber false (c :: rest)
      else if c = '"' then (readString rest).map fun (s, rest) => (.str s, rest)
      else if c = '[' then
        match depth with
        | 0 | 1 => .error .malformed
        | depth + 1 => (readItems steps depth true rest).map fun (vs, rest) => (.arr vs, rest)
      else if c = '\x7b' then
        match depth with
        | 0 | 1 => .error .malformed
        | depth + 1 => (readFields steps depth true [] rest).map fun (fs, rest) => (.obj fs, rest)
      else .error .malformed

/-- Reads the items of an array up to its closing bracket. -/
def readItems : Nat → Nat → Bool → List Char → Reading (List Json × List Char)
  | 0, _, _, _ => .error .malformed
  | steps + 1, depth, first, cs => do
    match ← nextItem first cs with
    | (false, rest) => return ([], rest)
    | (true, rest) =>
      let (v, rest) ← readValue steps depth rest
      let (vs, rest) ← readItems steps depth false rest
      return (v :: vs, rest)

/-- Reads the fields of an object up to its closing brace, into those read so far. -/
def readFields : Nat → Nat → Bool → List (String × Json) → List Char →
    Reading (List (String × Json) × List Char)
  | 0, _, _, _, _ => .error .malformed
  | steps + 1, depth, first, fields, cs => do
    match ← nextField first cs with
    | (false, rest) => return (fields, rest)
    | (true, rest) =>
      let (name, rest) ← readString rest
      let ((), rest) ← readColon rest
      let (v, rest) ← readValue steps depth rest
      readFields steps depth false (putField name v fields) rest

end

/-- Skips a number after its sign: its digits only, whatever their value. A number that the end of
the text cuts off is malformed here. -/
def skipNumber (cs : List Char) : Reading (Unit × List Char) :=
  let digits : Reading (Unit × List Char) := do
    let (_, rest) ← readWhole cs
    let (_, rest) ← readFraction rest
    let (_, rest) ← readExponent rest
    return ((), rest)
  digits.mapError fun _ => .malformed

mutual

/-- Skips a value of any depth. -/
def skipValue : Nat → List Char → Reading (Unit × List Char)
  | 0, _ => .error .malformed
  | steps + 1, cs =>
    match dropSpace cs with
    | [] => .error .ended
    | c :: rest =>
      if c = 'n' then expect "ull".toList rest
      else if c = 't' then expect "rue".toList rest
      else if c = 'f' then expect "alse".toList rest
      else if c = '-' then skipNumber rest
      else if c.isDigit then skipNumber (c :: rest)
      else if c = '"' then skipString rest
      else if c = '[' then skipItems steps true rest
      else if c = '\x7b' then skipFields steps true rest
      else .error .malformed

/-- Skips the items of an array up to its closing bracket. -/
def skipItems : Nat → Bool → List Char → Reading (Unit × List Char)
  | 0, _, _ => .error .malformed
  | steps + 1, first, cs => do
    match ← nextItem first cs with
    | (false, rest) => return ((), rest)
    | (true, rest) =>
      let ((), rest) ← skipValue steps rest
      skipItems steps false rest

/-- Skips the fields of an object up to its closing brace. -/
def skipFields : Nat → Bool → List Char → Reading (Unit × List Char)
  | 0, _, _ => .error .malformed
  | steps + 1, first, cs => do
    match ← nextField first cs with
    | (false, rest) => return ((), rest)
    | (true, rest) =>
      let ((), rest) ← skipString rest
      let ((), rest) ← readColon rest
      let ((), rest) ← skipValue steps rest
      skipFields steps false rest

end

/-- Steps that suffice for any value in a text: each takes a character, but for the one into the
first item of an array. -/
def stepsFor (cs : List Char) : Nat := 2 * cs.length + 2

/-- How deep arrays and objects may be nested, and one more. -/
def depthLimit : Nat := 128

/-- The value of a text that holds one value and space around it. -/
def parse (s : String) : Except Fault Json := do
  let cs := s.toList
  let (v, rest) ← readValue (stepsFor cs) depthLimit cs
  if (dropSpace rest).isEmpty then return v else .error .malformed

end DomainEvents.Json
