import DomainEvents.Simulation.Spy
import DomainEvents.Store.Memory

/-!
# Stores that fail on demand

A store in memory that keeps a record of its calls, and whose operations can be made to fail.
-/

namespace DomainEvents.Simulation

/-- A store in memory that can be made to fail. -/
structure FaultyStore where
  /-- where the events are -/
  memory : MemoryStore := {}
  /-- the calls, those that failed too -/
  spy : Spy := {}
  failSave : Bool := false
  failLoad : Bool := false
  failMark : Bool := false
deriving Repr, Inhabited

namespace FaultyStore

/-- The failure of an operation that was made to fail. -/
def injected (operation : StoreOperation) : StoreError :=
  .backend ("injected " ++ operation.text ++ " failure")

/-- Saves an event. -/
def save (s : FaultyStore) (event : Event) : FaultyStore × Except StoreError Unit :=
  let s := { s with spy := s.spy.record "save_event" [event.id.text] }
  if s.failSave then (s, .error (injected .save))
  else ({ s with memory := s.memory.save event }, .ok ())

/-- Loads the events of a name since a time. -/
def load (s : FaultyStore) (name : String) (since : Time.Instant) :
    FaultyStore × Except StoreError (List Event) :=
  let s := { s with spy := s.spy.record "get_events" [name, since.offsetText] }
  if s.failLoad then (s, .error (injected .load))
  else (s, .ok (s.memory.eventsSince name since))

/-- Marks an event as processed at a time. -/
def markProcessed (s : FaultyStore) (id : Uuid) (now : Time.Instant) :
    FaultyStore × Except StoreError Unit :=
  let s := { s with spy := s.spy.record "mark_processed" [id.text] }
  if s.failMark then (s, .error (injected .markProcessed))
  else
    let (memory, result) := s.memory.mark id now
    ({ s with memory }, result)

end FaultyStore

end DomainEvents.Simulation
