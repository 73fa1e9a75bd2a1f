import DomainEvents.Event.Basic

/-!
# The store that keeps nothing

The store of a bus that does not need one. It accepts every call and remembers none, so nothing is
ever read back from it, and no event is refused its mark because it was not saved.
-/

namespace DomainEvents

/-- A store without events. -/
structure EmptyStore where
deriving DecidableEq, Repr, Inhabited

namespace EmptyStore

/-- Saves an event, of which nothing is kept. -/
def save (_ : EmptyStore) (_ : Event) : Except StoreError Unit := .ok ()

/-- The events of a name since a time. -/
def eventsSince (_ : EmptyStore) (_ : String) (_ : Time.Instant) :
    Except StoreError (List Event) := .ok []

/-- Marks an event as processed, whether or not it was saved. -/
def markProcessed (_ : EmptyStore) (_ : Uuid) : Except StoreError Unit := .ok ()

end EmptyStore

end DomainEvents
