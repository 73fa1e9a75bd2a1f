import DomainEvents.Bus.Broker
import DomainEvents.Store.Memory

/-!
# A bus with its store

A bus together with a store in memory. A call of the bus into the store takes effect at one moment,
when the store serves it, and the bus hears the answer at another: in between anything may happen to
the bus and to the store, which others may use as well. The store serves each call once and never
panics, and the bus hears nothing but what the store has answered.
-/

namespace DomainEvents.Bus

/-- A call of a bus into its store. -/
inductive StoreCall where
  /-- the event of a call of publish is to be saved -/
  | save (ticket : Nat)
  /-- the events of a replay are to be loaded -/
  | load (number : Nat)
  /-- the event of a worker is to be marked as processed -/
  | mark (ticket : Nat)
deriving DecidableEq, Repr

/-- An answer of a store to a bus. -/
inductive StoreAnswer where
  | saved (d : Dispatch)
  | loaded (number : Nat) (events : List Event)
  | marked (d : Dispatch) (result : Except StoreError Unit)

namespace StoreAnswer

/-- The call that is answered. -/
def call : StoreAnswer → StoreCall
  | .saved d => .save d.ticket
  | .loaded number _ => .load number
  | .marked d _ => .mark d.ticket

/-- What happens to the bus when it hears the answer. -/
def action {H : Type} : StoreAnswer → BrokerAction H
  | .saved d => .pool (.saved d.ticket (.ok ()))
  | .loaded number events => .loaded number (.ok events)
  | .marked d result => .pool (.reply d.ticket (.marked (.returned result)))

end StoreAnswer

/-- Whether a bus hears an answer of its store. -/
def BrokerAction.isAnswer {H : Type} : BrokerAction H → Bool
  | .pool (.saved _ _) | .pool (.reply _ (.marked _)) | .loaded _ _ => true
  | _ => false

/-- The state of a bus with a store in memory. -/
structure StoredBus (H : Type) where
  bus : Broker H
  store : MemoryStore
  /-- what the clock of the store shows -/
  now : Time.Instant := default
  /-- what the store has answered to the bus, whether the bus has heard it or not -/
  answers : List StoreAnswer := []

/-- Something that happens to a bus or to its store. -/
inductive StoredAction (H : Type) where
  /-- something happens to the bus that is no answer of the store -/
  | bus (action : BrokerAction H)
  /-- the store serves a call of the bus -/
  | serve (call : StoreCall)
  /-- the bus hears the answer to a call -/
  | hear (call : StoreCall)
  /-- somebody else saves an event -/
  | save (event : Event)
  /-- somebody else marks an event as processed -/
  | mark (id : Uuid)
  /-- the clock of the store is set; it need not go forward -/
  | clock (now : Time.Instant)

/-- What is done in a step of a bus or of its store. -/
inductive StoredDeed (H : Type) where
  /-- the bus makes a move -/
  | moved (move : Move H)
  /-- the store has saved an event, for a replay of some number or for somebody else -/
  | saved (event : Event) (replay? : Option Nat)
  /-- the store has loaded the events of a replay -/
  | loaded (number : Nat) (events : List Event)
  /-- the store has marked an event as processed, or could not, for a worker or for somebody else -/
  | marked (id : Uuid) (worker? : Option Dispatch) (result : Except StoreError Unit)
  /-- the clock of the store shows a time -/
  | clock (now : Time.Instant)

/-- The moves of the bus. -/
def movesOf {H : Type} (log : List (StoredDeed H)) : List (Move H) :=
  log.filterMap fun
    | .moved move => some move
    | _ => none

/-- The events that were saved, but not for the replay of the given number. -/
def savedByOthers {H : Type} (number : Nat) (log : List (StoredDeed H)) : List Event :=
  log.filterMap fun
    | .saved event replay? => if replay? = some number then none else some event
    | _ => none

namespace StoredBus

variable {H : Type}

/-- A new bus with a store. -/
def new (config : PoolConfig) (store : MemoryStore) : StoredBus H := { bus := .new config, store }

/-- The result of a step: the new state and what was done. -/
abbrev Stepped (H : Type) := Option (StoredBus H × List (StoredDeed H))

/-- Lets something happen to the bus. -/
def act [DecidableEq H] (s : StoredBus H) (action : BrokerAction H) : Stepped H :=
  (s.bus.watch action).map fun (bus, moves) => ({ s with bus }, moves.map .moved)

/-- Marks an event as processed at the time of the clock. If that cannot be done the store stays as
it is. -/
def mark (s : StoredBus H) (id : Uuid) : StoredBus H × Except StoreError Unit :=
  let (store, result) := s.store.mark id s.now
  ({ s with store }, result)

/-- The answer of the store to a call, if it has answered. -/
def answer? (s : StoredBus H) (call : StoreCall) : Option StoreAnswer :=
  s.answers.find? (·.call = call)

/-- Keeps an answer for the bus. -/
def answered (s : StoredBus H) (answer : StoreAnswer) : StoredBus H :=
  { s with answers := s.answers ++ [answer] }

/-- The store serves a call that the bus has made. -/
def serve (s : StoredBus H) : StoreCall → Stepped H
  | .save ticket =>
    (s.bus.pool.saving.find? (·.ticket == ticket)).map fun d =>
      (answered { s with store := s.store.save d.event } (.saved d),
        [.saved d.event ((s.bus.publisher? ticket).map (·.1.number))])
  | .load number =>
    (s.bus.loader? number).map fun call =>
      let events := s.store.eventsSince call.name call.since
      (s.answered (.loaded number events), [.loaded number events])
  | .mark ticket =>
    match s.bus.pool.worker? ticket with
    | some ⟨d, .marking⟩ =>
      let (after, result) := s.mark d.event.id
      some (after.answered (.marked d result), [.marked d.event.id (some d) result])
    | _ => none

/-- The bus and its store after something has happened to them, and what was done. -/
def step [DecidableEq H] (s : StoredBus H) : StoredAction H → Stepped H
  | .bus action => if action.isAnswer then none else s.act action
  | .serve call => if (s.answer? call).isSome then none else s.serve call
  | .hear call => (s.answer? call).bind fun answer => s.act answer.action
  | .save event => some ({ s with store := s.store.save event }, [.saved event none])
  | .mark id =>
    let (after, result) := s.mark id
    some (after, [.marked id none result])
  | .clock now => some ({ s with now }, [.clock now])

end StoredBus

end DomainEvents.Bus
