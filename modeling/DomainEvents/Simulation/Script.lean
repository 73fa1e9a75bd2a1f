import DomainEvents.Catalog.Topic
import DomainEvents.Bus.Config
import DomainEvents.Context
import DomainEvents.Interest
import DomainEvents.Registry

/-!
# Scripts

What a simulation is made of: handlers whose behaviour is written down, and the steps of somebody
who uses a bus. Handlers and contexts are known by labels.
-/

namespace DomainEvents.Simulation

/-- The label of a handler. -/
abbrev Label := String

/-- Something that a scripted handler does. -/
inductive Act where
  /-- waits -/
  | delay (millis : Nat)
  /-- notes a text -/
  | note (message : String)
  /-- notes the event -/
  | noteEvent
  /-- notes the context -/
  | noteContext
  /-- notes how many subscriptions there are -/
  | noteCount
  /-- cancels the context -/
  | cancel
  /-- fails -/
  | fail (error : HandlerError)
  /-- fails for an aggregate only -/
  | failFor (aggregateId : String) (error : HandlerError)
  /-- fails if the context is cancelled -/
  | stopIfCancelled
  /-- reads the event as one of an order, notes what it says, or fails -/
  | decode
  /-- panics, with a text or without one -/
  | panic (message : Option String)
  /-- publishes another event in the same context; hands on a failure or notes the answer -/
  | publish (event : Event) (propagate : Bool)
  | subscribe (handler : Label)
  | unsubscribe (handler : Label)
  | off (id : SubscriptionId)
  | clear
deriving Repr

/-- How a handler behaves. -/
inductive Behavior where
  /-- records what it gets, after a delay, and then fails if it is told to -/
  | recorder (interest : Interest) (delay : Nat)
  /-- holds every call until it is released -/
  | probe (interest : Interest)
  /-- notes every event -/
  | plain
  /-- panics when it is asked for its interest in an event, or in the events of a name -/
  | picky (message : String) (only : Option String)
  /-- notes what the events of a topic say, and fails for one variant -/
  | typed (topic : Catalog.Topic) (failOn : Option String)
  /-- notes every event and does what is written down -/
  | scripted (interest : Interest) (acts : List Act)
deriving Repr

/-- A handler. -/
structure HandlerSpec where
  /-- the name it goes by in errors and traces -/
  name : String
  behavior : Behavior
  /-- whether a recorder fails from the start -/
  shouldError : Bool := false
deriving Repr

/-- A call that takes its time. -/
inductive Request where
  | publish (ctx : Context) (event : Event)
  | replay (ctx : Context) (name : String) (since : Time.Instant)
  | close (timeout : Time.Span)
  | handle (handler : Label) (ctx : Context) (event : Event)
deriving Repr

/-- A change to the store of a simulation. -/
inductive StoreChange where
  | failSave (on : Bool)
  | failLoad (on : Bool)
  | failMark (on : Bool)
  /-- how long saving takes -/
  | saveDelay (millis : Nat)
  /-- how long marking takes -/
  | markDelay (millis : Nat)
  /-- makes every operation fail with an error of another type, or no longer -/
  | custom (message : Option String)
deriving Repr

/-- A step of a simulation. -/
inductive Step where
  | subscribe (handler : Label)
  | unsubscribe (handler : Label)
  | off (id : SubscriptionId)
  | clear
  /-- makes a call and waits for its answer -/
  | call (request : Request)
  /-- makes a call in a task of its own -/
  | spawn (request : Request)
  /-- publishes events one after the other -/
  | publishAll (ctx : Context) (events : List Event)
  /-- waits for a task -/
  | join (task : Nat)
  /-- lets everything run that is ready -/
  | settle
  /-- lets time pass -/
  | sleep (millis : Nat)
  /-- lets go of the bus -/
  | dropBus
  | cancel (ctx : Context)
  /-- asks a handler for its interest in a name -/
  | interested (handler : Label) (name : String)
  | handlerName (handler : Label)
  /-- tells a recorder to fail, or no longer -/
  | setError (handler : Label) (on : Bool)
  /-- makes a recorder forget -/
  | forget (handler : Label)
  /-- releases calls of a probe -/
  | release (handler : Label) (count : Nat)
  /-- waits until so many calls of a probe have started -/
  | awaitStarted (handler : Label) (count : Nat)
  /-- looks into a recorder or a probe -/
  | inspect (handler : Label)
  | changeStore (changes : List StoreChange)
  /-- looks at all stored events -/
  | storedEvents
  /-- looks at the calls of the store -/
  | storeCalls
  /-- the text of the bus for readers of a log -/
  | busText
  /-- looks at the failures that were collected -/
  | collected
deriving Repr

end DomainEvents.Simulation
