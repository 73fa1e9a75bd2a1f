import DomainEvents.Context
import DomainEvents.Kind.Basic

/-!
# Typed handlers

A bus knows a handler by three things: its name, whether it is interested in the events of a name,
and what comes of a run with an event. `KindHandler.typed` makes such a handler out of one for the
values of a kind. It goes by the name of the handler inside, is interested in the events whose names
the kind has, and reads each event that a bus hands to it. The handler inside is run with what the
event says, together with the event and the context of its publisher. An event that cannot be read
makes the typed handler fail, and the handler inside is not run.
-/

namespace DomainEvents

/-- A handler of events; `α` is what comes of a run. -/
structure EventHandler (α : Type u) where
  /-- the name that it goes by -/
  name : String
  /-- whether it is interested in the events of a name -/
  interestedIn : String → Bool
  /-- what comes of a run with an event and the context of its publisher -/
  handle : Context → Event → α

/-- A handler for the values of a kind. -/
structure KindHandler (k : Kind) (α : Type u) where
  /-- the name that it goes by -/
  name : String
  /-- what comes of a run with an event, the context of its publisher, and what the event says -/
  handle : Context → Event → k.Value → α

/-- The handler of events that is typed by a kind; `fail` is what comes of an event that it cannot
read. -/
def KindHandler.typed {k : Kind} {α : Type u} (fail : HandlerError → α) (inner : KindHandler k α) :
    EventHandler α where
  name := inner.name
  interestedIn := k.covers
  handle ctx event :=
    match k.decode event with
    | .ok value => inner.handle ctx event value
    | .error error => fail (.payload error)

end DomainEvents
