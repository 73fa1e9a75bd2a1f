import DomainEvents.Event.Name
import DomainEvents.Json.Printer
import DomainEvents.Time.Text
import DomainEvents.Uuid

/-!
# Events

An event says that something has happened to an aggregate: what (its name and payload), to which
one, and when.
-/

namespace DomainEvents

/-- Something that has happened. -/
structure Event where
  /-- its identifier -/
  id : Uuid
  /-- what has happened, as a dotted name -/
  name : String
  /-- what it has happened to -/
  aggregateId : String
  /-- when it has happened -/
  occurredAt : Time.Instant
  /-- what else there is to say -/
  payload : Json
deriving Repr, Inhabited

namespace Event

/-- Accepts an event whose name is well formed. -/
def validate (event : Event) : Except ValidationError Unit :=
  checkName event.name

/-- Two events are the same in every field. -/
def same (a b : Event) : Bool :=
  a.id == b.id && a.name == b.name && a.aggregateId == b.aggregateId
    && a.occurredAt == b.occurredAt && a.payload.same b.payload

theorem same_self (event : Event) : event.same event = true := by
  simp [same, event.payload.same_self]

/-- An event in one line. -/
def logText (event : Event) : String :=
  event.name ++ " (" ++ event.id.text ++ ") for " ++ event.aggregateId

end Event

end DomainEvents
