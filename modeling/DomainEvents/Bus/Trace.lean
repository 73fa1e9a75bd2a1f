import DomainEvents.Bus.Broker
import DomainEvents.Bus.Direct

/-!
# Trace lines

The lines that a bus writes about what it does, each a level, a message and fields. Texts are quoted
where the field is a text of the program, and bare where it is the text of a value.
-/

namespace DomainEvents.Bus

/-- How much a line matters. -/
inductive Level where
  | debug
  | info
  | warn
  | error
deriving DecidableEq, Repr

/-- The word for a level. -/
def Level.text : Level → String
  | .debug => "DEBUG"
  | .info => "INFO"
  | .warn => "WARN"
  | .error => "ERROR"

/-- A line about what a bus does. -/
structure TraceLine where
  level : Level
  message : String
  /-- the fields in order, each with the text of its value -/
  fields : List (String × String)
deriving DecidableEq, Repr

namespace TraceLine

/-- The text of a line. -/
def text (l : TraceLine) : String :=
  let fields := l.fields.map fun (name, value) => name ++ "=" ++ value
  " ".intercalate (l.level.text :: l.message :: fields)

/-- The line on a subscription. -/
def subscribed (handler : String) (id : SubscriptionId) : TraceLine :=
  ⟨.debug, "subscribed handler", [("handler", Text.quoted handler), ("handler_id", id.text)]⟩

/-- The line on the removal of a handler. -/
def unsubscribed (handler : String) (removed : Bool) : TraceLine :=
  ⟨.debug, "unsubscribed handler",
    [("handler", Text.quoted handler), ("removed", if removed then "true" else "false")]⟩

/-- The fields that say which event a line is about. -/
def eventFields (event : Event) : List (String × String) :=
  [("event_id", event.id.text), ("event_name", Text.quoted event.name)]

/-- The line on the end of a delivery. -/
def ofDelivery? {H : Type} (name : H → String) (event : Event) : Delivery H → Option TraceLine
  | .completed count =>
    some ⟨.debug, "published event", eventFields event ++ [("delivered", toString count)]⟩
  | .stopped entry source =>
    some ⟨.warn, "handler failed, stopping dispatch",
      eventFields event
        ++ [("handler", Text.quoted (name entry.handler)), ("error", source.message)]⟩
  | _ => none

/-- The line on a notice of a bus without a queue. -/
def ofDirect? {H : Type} (name : H → String) : DirectNotice H → Option TraceLine
  | .delivered d delivery => ofDelivery? name d.event delivery
  | _ => none

/-- The line on a new pool. -/
def started (config : PoolConfig) : TraceLine :=
  ⟨.debug, "started event bus",
    [("queue_size", toString config.queueSize), ("worker_count", toString config.workerCount)]⟩

/-- The fields that say how much there is left to do. -/
def loadFields (queued inFlight : Nat) : List (String × String) :=
  [("queued", toString queued), ("in_flight", toString inFlight)]

/-- The line on a notice of a pool. -/
def ofNotice? {H : Type} : Notice H → Option TraceLine
  | .accepted d => some ⟨.debug, "queued event", [("event_id", d.event.id.text)]⟩
  | .refused d error =>
    some ⟨.warn, "publish rejected", eventFields d.event ++ [("error", error.message)]⟩
  | .worker d .processed => some ⟨.debug, "processed event", eventFields d.event⟩
  | .reaped true =>
    some ⟨.error, "dispatch task panicked",
      [("task", Text.quoted "worker"), ("error", "<join error>")]⟩
  | .drained count =>
    some ⟨.debug, "dispatcher drained queue", [("drained", toString count)]⟩
  | .stopped => some ⟨.debug, "dispatcher stopped", []⟩
  | .closing queued inFlight => some ⟨.info, "closing event bus", loadFields queued inFlight⟩
  | .closed => some ⟨.info, "event bus closed", []⟩
  | .overdue timeout queued inFlight =>
    some ⟨.warn, "event bus did not drain in time",
      ("timeout", timeout.text) :: loadFields queued inFlight⟩
  | _ => none

/-- The line on a failure that no caller sees, as the bus writes it when nobody else takes it. -/
def failure (f : DispatchFailure) : TraceLine :=
  ⟨.error, "event dispatch failed",
    [("event_id", f.eventId.text), ("event_name", f.eventName), ("error", f.error.message)]⟩

/-- The line on what a bus does for a replay. -/
def ofDeed? {H : Type} : Deed H → Option TraceLine
  | .replaying call total =>
    some ⟨.info, "replaying events",
      [("event_name", Text.quoted call.name), ("since", call.since.logText),
       ("total", toString total)]⟩
  | .stopped call r =>
    some ⟨.warn, "replay stopped",
      [("event_name", Text.quoted call.name), ("replayed", toString r.replayed),
       ("total", toString r.total)]⟩
  | _ => none

end TraceLine

/-- The text of a pool for readers of a log. -/
def Pool.text {H : Type} (p : Pool H) : String :=
  "AsyncEventBus \x7b config: " ++ p.config.text ++ ", handlers: " ++ toString p.registry.size
    ++ ", queued: " ++ toString p.queued ++ ", in_flight: " ++ toString p.inFlight
    ++ ", closed: " ++ (if p.closed then "true" else "false") ++ " \x7d"

/-- The text of a failure that no caller sees. -/
def DispatchFailure.text (f : DispatchFailure) : String :=
  f.eventName ++ " (" ++ f.eventId.text ++ "): " ++ f.error.message

end DomainEvents.Bus
