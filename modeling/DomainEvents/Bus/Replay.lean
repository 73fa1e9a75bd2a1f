import DomainEvents.Event.Basic

/-!
# Replays

A replay publishes the events that a store has loaded, one after the other, and stops at the first
that the bus refuses. It reports how far it came.
-/

namespace DomainEvents.Bus

/-- A replay that waits for the answer to the publishing of its current event. -/
structure Replay where
  /-- how many events were published -/
  replayed : Nat
  /-- how many events were loaded -/
  total : Nat
  /-- the events after the current one -/
  rest : List Event
deriving Repr, Inhabited

/-- How a replay goes on. -/
inductive ReplayStep where
  /-- it publishes an event -/
  | publish (event : Event) (replay : Replay)
  /-- it has come to its end -/
  | answered (result : Except BusError Nat)
deriving Repr

namespace Replay

/-- Turns to the given events, after so many of so many. -/
def turnTo (replayed total : Nat) : List Event → ReplayStep
  | [] => .answered (.ok total)
  | event :: rest => .publish event ⟨replayed, total, rest⟩

/-- Begins the replay of what the store has loaded. -/
def start : Except StoreError (List Event) → ReplayStep
  | .ok events => turnTo 0 events.length events
  | .error source => .answered (.error (.persistence .load source))

/-- Goes on when the current event was published. -/
def next (r : Replay) : ReplayStep := turnTo (r.replayed + 1) r.total r.rest

/-- The error of a replay whose current event was refused. -/
def stop (r : Replay) (source : BusError) : BusError := .replay r.replayed r.total source

end Replay

end DomainEvents.Bus
