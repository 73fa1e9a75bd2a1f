import DomainEvents.Context
import DomainEvents.Event.Basic
import DomainEvents.Registry

/-!
# Workers

A worker runs the handlers of one event. It goes through the subscriptions that there were when it
started, asks each handler for its name and its interest, and calls those that are interested, one
after the other. A failure is handed to the error callback and the next handler has its turn. At the
end the event is marked as processed.

What the worker waits for is its `Phase`, and `Phase.step` says how it goes on from an answer. A
panic of an interest check or of a handler is a failure like any other; a panic of anything else
kills the worker.
-/

namespace DomainEvents.Bus

/-- How a call into foreign code ends. -/
inductive Outcome (α : Type) where
  /-- with an answer -/
  | returned (answer : α)
  /-- with a panic and its message -/
  | panicked (message : String)
deriving DecidableEq, Repr

/-- An event on its way to its handlers, under the number of the call that published it. -/
structure Dispatch where
  /-- the number of the call -/
  ticket : Nat
  /-- the context that was given with the event -/
  ctx : Context
  event : Event
deriving Repr, Inhabited

/-- What a worker waits for. -/
inductive Phase (H : Type) where
  /-- to be started -/
  | spawned
  /-- the name of a handler -/
  | naming (entry : Subscription H) (rest : List (Subscription H))
  /-- whether a handler is interested -/
  | asking (name : String) (entry : Subscription H) (rest : List (Subscription H))
  /-- the end of a handler -/
  | handling (name : String) (entry : Subscription H) (rest : List (Subscription H))
  /-- the end of the error callback -/
  | reporting (failure : BusError) (rest : List (Subscription H))
  /-- the end of the marking as processed -/
  | marking
  /-- the end of the error callback, after a marking that failed -/
  | reportingMark (failure : BusError)
deriving Repr

/-- What a worker hears. -/
inductive Reply where
  | named (outcome : Outcome String)
  | asked (outcome : Outcome Bool)
  | handled (outcome : Outcome (Except HandlerError Unit))
  | reported (outcome : Outcome Unit)
  | marked (outcome : Outcome (Except StoreError Unit))

/-- What a worker does when it has heard something. -/
inductive Progress (H : Type) where
  /-- it waits for something else -/
  | next (phase : Phase H)
  /-- it has come to its end -/
  | finished
  /-- a panic has killed it -/
  | killed
deriving Repr

/-- A failure that no caller sees, as the error callback gets it. -/
structure DispatchFailure where
  /-- the event whose worker has met with the failure -/
  eventId : Uuid
  eventName : String
  error : BusError
deriving DecidableEq, Repr

/-- A failure of the worker of an event. -/
def DispatchFailure.of (event : Event) (error : BusError) : DispatchFailure :=
  ⟨event.id, event.name, error⟩

/-- What a worker gives notice of. -/
inductive WorkerNotice (H : Type) where
  /-- a handler is called -/
  | called (entry : Subscription H)
  /-- a handler or its interest check has failed -/
  | handlerFailed
  /-- the error callback is called -/
  | reported (failure : DispatchFailure)
  /-- the store is asked to mark the event with this id as processed -/
  | marking (id : Uuid)
  /-- the event is done with -/
  | processed
deriving Repr

namespace Phase

variable {H : Type}

/-- What a worker waits for when it turns to the given subscriptions. -/
def turnTo : List (Subscription H) → Phase H
  | [] => .marking
  | entry :: rest => .naming entry rest

/-- What a worker gives notice of when it turns to the given subscriptions. -/
def turnNotices (event : Event) : List (Subscription H) → List (WorkerNotice H)
  | [] => [.marking event.id]
  | _ :: _ => []

/-- Turns to the given subscriptions. -/
def proceed (event : Event) (rest : List (Subscription H)) : Progress H × List (WorkerNotice H) :=
  (.next (turnTo rest), turnNotices event rest)

/-- Reports a failure of a handler before it turns to the rest. -/
def fail (event : Event) (failure : BusError) (rest : List (Subscription H)) :
    Progress H × List (WorkerNotice H) :=
  (.next (.reporting failure rest), [.handlerFailed, .reported (.of event failure)])

/-- How the worker of an event goes on; `none` if it does not wait for what it hears. -/
def step (event : Event) : Phase H → Reply → Option (Progress H × List (WorkerNotice H))
  | .naming entry rest, .named (.returned name) => some (.next (.asking name entry rest), [])
  | .naming _ _, .named (.panicked _) => some (.killed, [])
  | .asking name entry rest, .asked (.returned true) =>
    some (.next (.handling name entry rest), [.called entry])
  | .asking _ _ rest, .asked (.returned false) => some (proceed event rest)
  | .asking name _ rest, .asked (.panicked message) =>
    some (fail event (.handlerPanicked name message) rest)
  | .handling _ _ rest, .handled (.returned (.ok ())) => some (proceed event rest)
  | .handling name _ rest, .handled (.returned (.error source)) =>
    some (fail event (.handler name source) rest)
  | .handling name _ rest, .handled (.panicked message) =>
    some (fail event (.handlerPanicked name message) rest)
  | .reporting _ rest, .reported (.returned ()) => some (proceed event rest)
  | .reporting _ _, .reported (.panicked _) => some (.killed, [])
  | .marking, .marked (.returned (.ok ())) => some (.finished, [.processed])
  | .marking, .marked (.returned (.error source)) =>
    let failure := .persistence .markProcessed source
    some (.next (.reportingMark failure), [.reported (.of event failure)])
  | .marking, .marked (.panicked _) => some (.killed, [])
  | .reportingMark _, .reported (.returned ()) => some (.finished, [.processed])
  | .reportingMark _, .reported (.panicked _) => some (.killed, [])
  | _, _ => none

end Phase

/-- A worker: the event it runs the handlers of, and what it waits for. -/
structure Worker (H : Type) where
  dispatch : Dispatch
  phase : Phase H
deriving Repr

end DomainEvents.Bus
