import DomainEvents.Codec.Record
import DomainEvents.Event.Basic

/-!
# Events as records

The form in which events are stored: a JSON record of their five fields.
-/

namespace DomainEvents.Event

/-- Identifiers as texts. -/
def uuidCodec : Codec Uuid where
  encode u := .ok (.str u.text)
  decode
    | .str s =>
      match Uuid.parse? s with
      | some u => .ok u
      | none => .error (.badText "bad uuid")
    | v => Codec.wrongType v "a formatted UUID string"

/-- Instants as texts. -/
def instantCodec : Codec Time.Instant where
  encode t := .ok (.str t.zuluText)
  decode
    | .str s =>
      match Time.Instant.parse? s with
      | some t => .ok t
      | none => .error (.badText "bad timestamp")
    | v => Codec.wrongType v "an RFC 3339 formatted date and time string"

/-- The fields of an event, in the order of its record. -/
def recordFields :
    Codec.Fields (Uuid × String × String × Time.Instant × Json × Unit) :=
  .field "id" uuidCodec .refused <|
  .field "name" Codec.string .refused <|
  .field "aggregate_id" Codec.string .refused <|
  .field "occurred_at" instantCodec .refused <|
  .field "payload" Codec.json .refused .none

/-- Events as records. -/
def codec : Codec Event :=
  Codec.record "Event" recordFields
    (fun (id, name, aggregateId, occurredAt, payload, ()) =>
      { id, name, aggregateId, occurredAt, payload })
    (fun e => (e.id, e.name, e.aggregateId, e.occurredAt, e.payload, ()))

/-- The fields of an event in the order in which they are written. -/
def fields (event : Event) : List (String × Json) :=
  [("id", .str event.id.text), ("name", .str event.name), ("aggregate_id", .str event.aggregateId),
   ("occurred_at", .str event.occurredAt.zuluText), ("payload", event.payload)]

/-- The stored text of an event. -/
def serialize (event : Event) : String :=
  Json.compactRecord event.fields

end DomainEvents.Event
