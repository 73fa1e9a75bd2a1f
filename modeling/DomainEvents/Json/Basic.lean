import DomainEvents.Decimal.Double

/-!
# JSON values

The values that payloads are made of. A whole number within the range of 64-bit words stays whole,
any other number is a double, and the two never compare equal. The fields of an object are listed in
the order of their names, each once; `Json.putField` keeps that order.
-/

namespace DomainEvents

/-- A JSON value. -/
inductive Json where
  | null
  | bool (value : Bool)
  /-- a whole number, from `-2 ^ 63` to `2 ^ 64 - 1` -/
  | int (value : Int)
  | double (value : Decimal.Double)
  | str (value : String)
  | arr (items : List Json)
  /-- the fields in the order of their names, each name once -/
  | obj (fields : List (String × Json))
deriving Repr, Inhabited

namespace Json

/-! ## Equality -/

mutual

/-- Two values are the same: whole numbers and doubles apart, doubles by the number they stand for.
-/
def same : Json → Json → Bool
  | .null, .null => true
  | .bool a, .bool b => a == b
  | .int a, .int b => a == b
  | .double a, .double b => a.sameNumber b
  | .str a, .str b => a == b
  | .arr as, .arr bs => sameItems as bs
  | .obj as, .obj bs => sameFields as bs
  | _, _ => false

/-- The same items in the same order. -/
def sameItems : List Json → List Json → Bool
  | [], [] => true
  | a :: as, b :: bs => same a b && sameItems as bs
  | _, _ => false

/-- The same fields in the same order. -/
def sameFields : List (String × Json) → List (String × Json) → Bool
  | [], [] => true
  | (k, a) :: as, (l, b) :: bs => k == l && same a b && sameFields as bs
  | _, _ => false

end

mutual

theorem same_self : (v : Json) → v.same v = true
  | .null => rfl
  | .bool _ => by simp [same]
  | .int _ => by simp [same]
  | .double d => by simp [same, d.sameNumber_self]
  | .str _ => by simp [same]
  | .arr items => by simp [same, sameItems_self items]
  | .obj fields => by simp [same, sameFields_self fields]

theorem sameItems_self : (items : List Json) → sameItems items items = true
  | [] => rfl
  | v :: rest => by simp [sameItems, same_self v, sameItems_self rest]

theorem sameFields_self : (fields : List (String × Json)) → sameFields fields fields = true
  | [] => rfl
  | (_, v) :: rest => by simp [sameFields, same_self v, sameFields_self rest]

end

/-! ## Fields -/

/-- Puts a field among fields in the order of their names, in place of one of the same name. -/
def putField (name : String) (value : Json) : List (String × Json) → List (String × Json)
  | [] => [(name, value)]
  | (key, old) :: rest =>
    if name = key then (key, value) :: rest
    else if name < key then (name, value) :: (key, old) :: rest
    else (key, old) :: putField name value rest

/-- An object of the given fields; of two of one name the later wins. -/
def ofFields (fields : List (String × Json)) : Json :=
  .obj (fields.foldl (fun acc (name, value) => putField name value acc) [])

/-- The value of a field of an object. -/
def field? (name : String) : Json → Option Json
  | .obj fields => (fields.find? (·.1 == name)).map (·.2)
  | _ => none

end Json

end DomainEvents
