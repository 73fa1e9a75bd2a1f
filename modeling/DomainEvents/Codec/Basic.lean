import DomainEvents.Codec.Mismatch

/-!
# Codecs

How a type of values is written as JSON and read back: the plain types, lists, options, pairs and
maps. Reading never converts: a double is no whole number, though a whole number is read as a double
where a double is asked for. Every encoder but the one of maps with keys that are no texts always
succeeds.
-/

namespace DomainEvents

/-- How values of a type are written as JSON and read back. -/
structure Codec (α : Type) where
  /-- the JSON of a value, or the reason why there is none -/
  encode : α → Except String Json
  /-- the value that a JSON stands for -/
  decode : Json → Codec.Decoded α

namespace Codec

/-! ## Plain types -/

/-- Truth values. -/
def boolean : Codec Bool where
  encode b := .ok (.bool b)
  decode
    | .bool b => .ok b
    | v => wrongType v "a boolean"

/-- Reads a whole number between two bounds. -/
def decodeInt (least greatest : Int) (expected : String) : Json → Decoded Int
  | .int n =>
    if least ≤ n ∧ n ≤ greatest then .ok n else .error (.invalidValue (.int n) expected)
  | v => wrongType v expected

/-- Whole numbers between two bounds, under the name of their type. -/
def integer (least greatest : Int) (name : String) : Codec Int where
  encode n := .ok (.int n)
  decode := decodeInt least greatest name

/-- Natural numbers below a power of two, under the name of their type. -/
def natural (bits : Nat) (name : String) : Codec Nat where
  encode n := .ok (.int n)
  decode v := (decodeInt 0 (Nat.pow 2 bits - 1) name v).map Int.toNat

/-- Bytes. -/
def u8 : Codec Nat := natural 8 "u8"

/-- Words of 32 bits. -/
def u32 : Codec Nat := natural 32 "u32"

/-- Words of 64 bits. -/
def u64 : Codec Nat := natural 64 "u64"

/-- Words of 64 bits that count or measure something. -/
def usize : Codec Nat := natural 64 "usize"

/-- Signed bytes. -/
def i8 : Codec Int := integer (-128) 127 "i8"

/-- Signed words of 32 bits. -/
def i32 : Codec Int := integer (-2147483648) 2147483647 "i32"

/-- Signed words of 64 bits. -/
def i64 : Codec Int := integer (-9223372036854775808) 9223372036854775807 "i64"

/-- A binary64 number that need not be finite. -/
inductive Real where
  | finite (value : Decimal.Double)
  | infinite (negative : Bool)
  | nan
deriving DecidableEq, Repr

/-- The double nearest to a whole number. -/
def realOfInt (n : Int) : Real :=
  match Decimal.Double.roundRatio? (n < 0) n.natAbs 1 with
  | some d => .finite d
  | none => .infinite (n < 0)

/-- Doubles. JSON has no word for one that is not finite, so that is written as null. -/
def f64 : Codec Real where
  encode
    | .finite d => .ok (.double d)
    | _ => .ok .null
  decode
    | .double d => .ok (.finite d)
    | .int n => .ok (realOfInt n)
    | v => wrongType v "f64"

/-- Texts. -/
def string : Codec String where
  encode s := .ok (.str s)
  decode
    | .str s => .ok s
    | v => wrongType v "a string"

/-- Single characters, as texts of length one. -/
def character : Codec Char where
  encode c := .ok (.str (String.singleton c))
  decode
    | .str s =>
      match s.toList with
      | [c] => .ok c
      | _ => .error (.invalidValue (.str s) "a character")
    | v => wrongType v "a character"

/-- The one value without content. -/
def unit : Codec Unit where
  encode _ := .ok .null
  decode
    | .null => .ok ()
    | v => wrongType v "unit"

/-- JSON values as they are. -/
def json : Codec Json where
  encode v := .ok v
  decode v := .ok v

/-! ## Compound types -/

/-- Lists. -/
def list {α : Type} (item : Codec α) : Codec (List α) where
  encode as := (as.mapM item.encode).map .arr
  decode
    | .arr vs => decodeItems item.decode vs
    | v => wrongType v "a sequence"

/-- Values that may be absent, written as null. -/
def option {α : Type} (value : Codec α) : Codec (Option α) where
  encode
    | some a => value.encode a
    | none => .ok .null
  decode
    | .null => .ok none
    | v => (value.decode v).map some

/-- The complaint about items that nobody reads. -/
def tooLong {α : Type} (length : Nat) : Decoded α :=
  .error (.invalidLength length "fewer elements in array")

/-- Pairs, as lists of two items. -/
def pair {α β : Type} (first : Codec α) (second : Codec β) : Codec (α × β) where
  encode p := do return .arr [← first.encode p.1, ← second.encode p.2]
  decode
    | .arr vs => do
      let expected := "a tuple of size 2"
      match vs with
      | [] => .error (.invalidLength 0 expected)
      | v :: rest =>
        let a ← first.decode v
        match rest with
        | [] => .error (.invalidLength 1 expected)
        | w :: more =>
          let b ← second.decode w
          if more.isEmpty then return (a, b) else tooLong vs.length
    | v => wrongType v "a tuple of size 2"

/-- Reads the values of all fields, in their order. -/
def decodeFields {α : Type} (decode : Json → Decoded α) :
    List (String × Json) → Decoded (List (String × α))
  | [] => .ok []
  | (name, v) :: rest => do
    let a ← decode v
    let more ← decodeFields decode rest
    return (name, a) :: more

/-- Maps with texts for keys. -/
def stringMap {α : Type} (value : Codec α) : Codec (List (String × α)) where
  encode entries := do
    return Json.ofFields (← entries.mapM fun (name, a) => return (name, ← value.encode a))
  decode
    | .obj fields => decodeFields value.decode fields
    | v => wrongType v "a map"

/-- Maps with pairs of numbers for keys. An object has only texts for names, so no such map but the
empty one is written or read. -/
def pairMap {α : Type} : Codec (List ((Int × Int) × α)) where
  encode
    | [] => .ok (.obj [])
    | _ :: _ => .error "key must be a string"
  decode
    | .obj [] => .ok []
    | .obj ((name, _) :: _) => .error (.invalidType (.str name) "a tuple of size 2")
    | v => wrongType v "a map"

end Codec

end DomainEvents
