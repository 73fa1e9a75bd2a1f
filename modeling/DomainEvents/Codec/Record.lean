import DomainEvents.Codec.Basic

/-!
# Records

Records are read from an object or from the array of their fields. In an object every field that the
record knows is looked at in the order of the names, then the missing ones are reported in the order
of the declaration; other fields do not matter. In an array the fields stand in the order of the
declaration, and one past the last is an error.
-/

namespace DomainEvents.Codec

/-- What a missing field of a record means. -/
inductive Absence (α : Type) where
  /-- the record is refused -/
  | refused
  /-- a value, if the field is left out of an object; from an array it must not be missing -/
  | optional (value : α)
  /-- a value, in both forms -/
  | default (value : α)

/-- The fields of a record in the order of their declaration. The values of all of them together are
the nested pairs of the index. -/
inductive Fields : Type → Type 1 where
  | none : Fields Unit
  | field {α β : Type} (name : String) (codec : Codec α) (absence : Absence α) (rest : Fields β) :
    Fields (α × β)

namespace Fields

/-- How many fields there are. -/
def size {α : Type} : Fields α → Nat
  | .none => 0
  | .field _ _ _ rest => rest.size + 1

/-- Accepts the value of a field, if there is a field of the name. -/
def check {α : Type} (name : String) (v : Json) : Fields α → Decoded Unit
  | .none => .ok ()
  | .field known codec _ rest =>
    if name = known then (codec.decode v).map fun _ => () else rest.check name v

/-- Accepts the values of the known fields in the order in which they are listed. -/
def checkAll {α : Type} (fields : Fields α) : List (String × Json) → Decoded Unit
  | [] => .ok ()
  | (name, v) :: rest => do
    fields.check name v
    fields.checkAll rest

/-- The values of the fields in an object. -/
def ofObject {α : Type} (v : Json) : Fields α → Decoded α
  | .none => .ok ()
  | .field name codec absence rest => do
    let a ← match v.field? name with
      | some w => codec.decode w
      | Option.none =>
        match absence with
        | .refused => .error (.missingField name)
        | .optional a | .default a => .ok a
    let more ← rest.ofObject v
    return (a, more)

/-- The values of the fields in an array, of which `index` items have been read; `expected` is the
complaint about an array that is too short. -/
def ofItems {α : Type} (expected : String) (index : Nat) : Fields α → List Json → Decoded α
  | .none, [] => .ok ()
  | .none, rest => tooLong (index + rest.length)
  | .field _ _ absence rest, [] =>
    match absence with
    | .default a => do return (a, ← rest.ofItems expected index [])
    | _ => .error (.invalidLength index expected)
  | .field _ codec _ rest, v :: vs => do
    let a ← codec.decode v
    let more ← rest.ofItems expected (index + 1) vs
    return (a, more)

/-- The fields with their values, in the order of the declaration. -/
def encode {α : Type} : Fields α → α → Except String (List (String × Json))
  | .none, () => .ok []
  | .field name codec _ rest, (a, more) => do
    return (name, ← codec.encode a) :: (← rest.encode more)

end Fields

/-- Records of a name, given by their fields. -/
def record {R α : Type} (name : String) (fields : Fields α) (make : α → R) (parts : R → α) :
    Codec R where
  encode r := return Json.ofFields (← fields.encode (parts r))
  decode
    | .obj entries => do
      fields.checkAll entries
      return make (← fields.ofObject (.obj entries))
    | .arr items => do
      let expected := "struct " ++ name ++ " with " ++ toString fields.size ++ " elements"
      return make (← fields.ofItems expected 0 items)
    | v => wrongType v ("struct " ++ name)

end DomainEvents.Codec

