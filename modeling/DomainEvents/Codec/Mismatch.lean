import DomainEvents.Json.Printer
import DomainEvents.Text.Quoted

/-!
# Mismatches

What is wrong with a JSON value that was to be read as something else, and how that is said. A
message names what was found (`Found`) and what was expected in its place.
-/

namespace DomainEvents.Codec

/-- What was found, as far as a message tells it. -/
inductive Found where
  | null
  | bool (value : Bool)
  | int (value : Int)
  | double (value : Decimal.Double)
  | str (value : String)
  | sequence
  | map
deriving DecidableEq, Repr

/-- What a value is found to be. -/
def Found.ofJson : Json → Found
  | .null => .null
  | .bool b => .bool b
  | .int n => .int n
  | .double d => .double d
  | .str s => .str s
  | .arr _ => .sequence
  | .obj _ => .map

/-- The words for what was found. -/
def Found.text : Found → String
  | .null => "null"
  | .bool b => "boolean `" ++ (if b then "true" else "false") ++ "`"
  | .int n => "integer `" ++ toString n ++ "`"
  | .double d => "floating point `" ++ Json.doubleText d ++ "`"
  | .str s => "string " ++ Text.quoted s
  | .sequence => "sequence"
  | .map => "map"

/-- A reason why a value cannot be read. -/
inductive Mismatch where
  /-- a value of the wrong type -/
  | invalidType (found : Found) (expected : String)
  /-- a value of the right type that is out of range -/
  | invalidValue (found : Found) (expected : String)
  /-- a sequence of the wrong length -/
  | invalidLength (length : Nat) (expected : String)
  /-- a record without one of its fields -/
  | missingField (field : String)
  /-- a text that does not follow the format of what it stands for -/
  | badText (message : String)
deriving DecidableEq, Repr

/-- The text of a mismatch. -/
def Mismatch.message : Mismatch → String
  | .invalidType found expected => "invalid type: " ++ found.text ++ ", expected " ++ expected
  | .invalidValue found expected => "invalid value: " ++ found.text ++ ", expected " ++ expected
  | .invalidLength n expected => "invalid length " ++ toString n ++ ", expected " ++ expected
  | .missingField field => "missing field `" ++ field ++ "`"
  | .badText message => message

/-- What decoding gives. -/
abbrev Decoded := Except Mismatch

/-- The refusal of a value that has another type. -/
def wrongType {α : Type} (v : Json) (expected : String) : Decoded α :=
  .error (.invalidType (.ofJson v) expected)

/-- Decodes every item of a list, up to the first that fails. -/
def decodeItems {α : Type} (decode : Json → Decoded α) : List Json → Decoded (List α)
  | [] => .ok []
  | v :: rest => do
    let a ← decode v
    let as ← decodeItems decode rest
    return a :: as

end DomainEvents.Codec
