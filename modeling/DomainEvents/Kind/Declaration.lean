/-!
# Declarations of kinds

A kind of events is declared as an enumeration: a variant for each name that its events can have.
The attribute `event` gives the namespace of the kind and, on a variant, the name of its events. A
declaration is what was written down, before anything of it is checked.
-/

namespace DomainEvents.Kind

/-- What stands where a key of an attribute is set. -/
inductive Literal where
  | text (value : String)
  /-- anything that is no text -/
  | other
  /-- nothing, since the settings end there -/
  | missing
deriving DecidableEq, Repr

/-- A key of an attribute, with what stands after its equals sign if it has one. -/
structure Setting where
  key : String
  value : Option Literal
deriving DecidableEq, Repr

/-- What stands after the path of an attribute. -/
inductive Arguments where
  /-- settings in parentheses -/
  | list (settings : List Setting)
  /-- settings in parentheses and then something that is none, with what the parser says of it -/
  | broken (settings : List Setting) (complaint : String)
  /-- nothing -/
  | bare
  /-- an equals sign and a value -/
  | assigned
deriving DecidableEq, Repr

/-- An attribute of a declaration or a variant. -/
structure Attribute where
  path : String
  arguments : Arguments
deriving DecidableEq, Repr

/-- The fields of a variant. -/
inductive Contents where
  | unit
  | tuple (count : Nat)
  | named
deriving DecidableEq, Repr

/-- A variant as it is declared. -/
structure VariantDeclaration where
  ident : String
  contents : Contents
  attributes : List Attribute
deriving DecidableEq, Repr

/-- A declaration that is to be a kind of events. -/
structure Declaration where
  /-- whether it declares an enumeration at all -/
  isEnumeration : Bool
  ident : String
  attributes : List Attribute
  variants : List VariantDeclaration
deriving DecidableEq, Repr

end DomainEvents.Kind
