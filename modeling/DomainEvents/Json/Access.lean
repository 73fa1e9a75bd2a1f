import DomainEvents.Json.Basic

/-!
# Looking into JSON values

Reading what is expected to be there: the fields of an object by name, and values of a plain type.
What is missing or of another type is told in words.
-/

namespace DomainEvents.Json

/-- What is read, or what is wrong. -/
abbrev Read := Except String

/-- A text. -/
def asText : Json → Read String
  | .str s => .ok s
  | _ => .error "text expected"

/-- A natural number. -/
def asNat : Json → Read Nat
  | .int n => if 0 ≤ n then .ok n.toNat else .error "natural number expected"
  | _ => .error "natural number expected"

/-- A truth value. -/
def asBool : Json → Read Bool
  | .bool b => .ok b
  | _ => .error "truth value expected"

/-- The items of a list. -/
def asList : Json → Read (List Json)
  | .arr vs => .ok vs
  | _ => .error "list expected"

/-- The fields of an object. -/
def asFields : Json → Read (List (String × Json))
  | .obj fields => .ok fields
  | _ => .error "object expected"

/-- A field that must be there. -/
def need (v : Json) (name : String) : Read Json :=
  match v.field? name with
  | some w => .ok w
  | none => .error ("missing " ++ name)

/-- A field that may be missing or null. -/
def maybe (v : Json) (name : String) : Option Json :=
  match v.field? name with
  | some .null => none
  | other => other

/-- A field that may be missing or null, read in a certain way. -/
def maybeAs {α : Type} (v : Json) (name : String) (read : Json → Read α) : Read (Option α) :=
  match v.maybe name with
  | some w => (read w).map some
  | none => .ok none

/-- A field that may be missing or null, read in a certain way, or something in its place. -/
def fieldOr {α : Type} (v : Json) (name : String) (read : Json → Read α) (other : α) : Read α :=
  (v.maybeAs name read).map (·.getD other)

/-- The text of a field. -/
def textOf (v : Json) (name : String) : Read String := do asText (← v.need name)

/-- The natural number of a field. -/
def natOf (v : Json) (name : String) : Read Nat := do asNat (← v.need name)

/-- The items of a field. -/
def listOf (v : Json) (name : String) : Read (List Json) := do asList (← v.need name)

/-- The texts of a field. -/
def textsOf (v : Json) (name : String) : Read (List String) := do
  (← v.listOf name).mapM asText

/-- The text of a field, or another text. -/
def textOr (v : Json) (name other : String) : Read String := v.fieldOr name asText other

/-- Whether a field is there and true. -/
def flagOf (v : Json) (name : String) : Read Bool := v.fieldOr name asBool false

end DomainEvents.Json
