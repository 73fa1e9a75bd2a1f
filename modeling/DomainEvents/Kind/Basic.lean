import DomainEvents.Event.Basic
import DomainEvents.Codec.Basic
import DomainEvents.Kind.Expansion

/-!
# Kinds of events

A kind is a list of variants, each with a name for its events and perhaps a type of payloads. A
value of the kind is a variant with a payload of its type, and stands for what an event of the kind
says. The name of an event decides which variant it is read as.
-/

namespace DomainEvents

/-- A type of payloads. -/
structure PayloadType where
  /-- the payloads -/
  Carrier : Type
  /-- how they are written and read -/
  codec : Codec Carrier
  /-- how they are given by hand, where that says more than their written form can -/
  literal : Json → Codec.Decoded Carrier := codec.decode

/-- A variant of a kind. -/
structure Variant where
  /-- its identifier and the name of its events -/
  binding : Kind.Binding
  /-- the type of its payloads, if it has any -/
  payload : Option PayloadType

namespace Variant

/-- The identifier of a variant. -/
def ident (v : Variant) : String := v.binding.ident

/-- The name of the events of a variant. -/
def name (v : Variant) : String := v.binding.name

/-- What a value of the variant carries. -/
def Data (v : Variant) : Type :=
  match v.payload with
  | none => Unit
  | some type => type.Carrier

/-- Writes the payload of a value; null if there is none. -/
def encode : (v : Variant) → v.Data → Except PayloadError Json
  | ⟨_, none⟩, _ => .ok .null
  | ⟨binding, some type⟩, data => (type.codec.encode data).mapError (.encode binding.name)

/-- Reads a payload; any payload will do for a variant without one. -/
def decode : (v : Variant) → Json → Except PayloadError v.Data
  | ⟨_, none⟩, _ => .ok ()
  | ⟨binding, some type⟩, payload =>
    (type.codec.decode payload).mapError (.decode binding.name)

/-- A payload that is given by hand. -/
def literal : (v : Variant) → Json → Except PayloadError v.Data
  | ⟨_, none⟩, _ => .ok ()
  | ⟨binding, some type⟩, given => (type.literal given).mapError (.decode binding.name)

end Variant

/-- A kind of events. -/
structure Kind where
  /-- its variants in the order of their declaration -/
  variants : List Variant

namespace Kind

/-- The kind of a declaration, with the types of its payloads by the identifiers of the variants. A
declaration with a defect has no variants. -/
def ofDeclaration (d : Declaration) (payload : String → Option PayloadType) : Kind :=
  match d.expand with
  | .ok bindings => ⟨bindings.map fun b => ⟨b, if b.hasPayload then payload b.ident else none⟩⟩
  | .error _ => ⟨[]⟩

/-- The names of the events of a kind. -/
def names (k : Kind) : List String := k.variants.map (·.name)

/-- Whether events of a name belong to a kind. -/
def covers (k : Kind) (name : String) : Bool := k.names.contains name

/-- What an event of a kind says: a variant and what it carries. -/
structure Value (k : Kind) where
  /-- the variant -/
  variant : Variant
  /-- it is one of the kind -/
  mem : variant ∈ k.variants
  /-- what it carries -/
  data : variant.Data

/-- The name of the events that say a value. -/
def Value.eventName {k : Kind} (v : k.Value) : String := v.variant.name

/-- The payload that a value is written as. -/
def Value.encode {k : Kind} (v : k.Value) : Except PayloadError Json := v.variant.encode v.data

/-- The event that says a value. -/
def Value.toEvent {k : Kind} (v : k.Value) (id : Uuid) (aggregateId : String)
    (occurredAt : Time.Instant) : Except PayloadError Event := do
  let payload ← v.encode
  return { id, name := v.eventName, aggregateId, occurredAt, payload }

/-- The value of a variant, by its identifier, with a payload that is given by hand; none if there
is no such variant. -/
def value? (k : Kind) (ident : String) (given : Json) : Option (Except PayloadError k.Value) :=
  match h : k.variants.find? (·.ident == ident) with
  | none => none
  | some variant =>
    some ((variant.literal given).map fun data =>
      ⟨variant, List.mem_of_find?_eq_some h, data⟩)

/-- What an event says. -/
def decode (k : Kind) (event : Event) : Except PayloadError k.Value :=
  match h : k.variants.find? (·.name == event.name) with
  | none => .error (.unknownKind event.name)
  | some variant =>
    (variant.decode event.payload).map fun data => ⟨variant, List.mem_of_find?_eq_some h, data⟩

end Kind

end DomainEvents
