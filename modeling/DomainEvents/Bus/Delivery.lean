import DomainEvents.Bus.Config
import DomainEvents.Bus.Worker

/-!
# Deliveries

A bus without a queue delivers an event while its publisher waits. It goes through the subscriptions
that there were when the event was published, asks each handler for its interest, calls those that
are interested, and stops at the first that fails.
-/

namespace DomainEvents.Bus

/-- What a delivery waits for. -/
inductive Delivery (H : Type) where
  /-- whether a handler is interested; so many have been called -/
  | asking (entry : Subscription H) (rest : List (Subscription H)) (delivered : Nat)
  /-- the end of a handler -/
  | handling (entry : Subscription H) (rest : List (Subscription H)) (delivered : Nat)
  /-- nothing: all handlers have been called -/
  | completed (count : Nat)
  /-- nothing: a handler has failed -/
  | stopped (entry : Subscription H) (source : HandlerError)
deriving Repr

namespace Delivery

variable {H : Type}

/-- Turns to the given subscriptions. -/
def turnTo (delivered : Nat) : List (Subscription H) → Delivery H
  | [] => .completed delivered
  | entry :: rest => .asking entry rest delivered

/-- Begins the delivery of an event to the given subscriptions; a malformed event is refused if the
configuration asks for that. -/
def start (config : DirectConfig) (entries : List (Subscription H)) (event : Event) :
    Except ValidationError (Delivery H) := do
  if config.validateEvents then event.validate
  return turnTo 0 entries

/-- Goes on from the answer of an interest check. -/
def asked (interested : Bool) : Delivery H → Delivery H
  | .asking entry rest delivered =>
    if interested then .handling entry rest delivered else turnTo delivered rest
  | other => other

/-- Goes on from the answer of a handler. -/
def handled (result : Except HandlerError Unit) : Delivery H → Delivery H
  | .handling entry rest delivered =>
    match result with
    | .ok () => turnTo (delivered + 1) rest
    | .error source => .stopped entry source
  | other => other

/-- The answer to the publisher, if the delivery has come to its end; handlers are known by name. -/
def result? (name : H → String) : Delivery H → Option (Except BusError Unit)
  | .completed _ => some (.ok ())
  | .stopped entry source => some (.error (.handler (name entry.handler) source))
  | _ => none

end Delivery

end DomainEvents.Bus
