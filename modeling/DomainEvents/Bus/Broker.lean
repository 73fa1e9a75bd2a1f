import DomainEvents.Bus.History
import DomainEvents.Bus.Replay

/-!
# Brokers

A pool together with the replays that publish into it. A replay waits for the store to load its
events and publishes them one after the other, each by a call of publish like any other. When such a
call has its answer the replay begins the next one at once: nobody else has a turn in between.

`Broker.step` is built on `Pool.step`, and tells what it has done in `Deed`s, among them the steps
of the pool. Nobody can let go of the bus as long as a replay goes on.
-/

namespace DomainEvents.Bus

/-- What a replay waits for. -/
inductive ReplayWait where
  /-- the store is to load the events -/
  | loading
  /-- the call of publish of this number is to end -/
  | publishing (ticket : Nat) (replay : Replay)
deriving Repr

/-- A call of replay that has not ended. -/
structure ReplayCall where
  /-- the number of the call among the replays -/
  number : Nat
  /-- the context that goes along with every event -/
  ctx : Context
  /-- the name of the events -/
  name : String
  /-- the time from which on they occurred -/
  since : Time.Instant
  wait : ReplayWait
deriving Repr

/-- The state of a bus with a queue and workers, and the replays that go on. -/
structure Broker (H : Type) where
  pool : Pool H
  replays : List ReplayCall := []
  /-- the number of the next replay -/
  calls : Nat := 0
deriving Repr

/-- Something that happens to a bus with replays. -/
inductive BrokerAction (H : Type) where
  /-- something happens to the pool -/
  | pool (action : Action H)
  /-- a call of replay comes in -/
  | replay (ctx : Context) (name : String) (since : Time.Instant)
  /-- the store has answered a replay -/
  | loaded (number : Nat) (result : Except StoreError (List Event))
  /-- a replay ends while the store loads its events: its caller has gone away, or the store has
  panicked -/
  | forsakeReplay (number : Nat)

/-- What a bus with replays does in a step. -/
inductive Deed (H : Type) where
  /-- the pool makes a step -/
  | pool (entry : Entry H)
  /-- the store is asked to load events -/
  | loading (call : ReplayCall)
  /-- a replay has got so many events -/
  | replaying (call : ReplayCall) (total : Nat)
  /-- a replay stops, as its current event was refused -/
  | stopped (call : ReplayCall) (replay : Replay)
  /-- a call of replay has its answer -/
  | replayed (call : ReplayCall) (result : Except BusError Nat)

/-- The step of the pool, if there was one. -/
def Deed.entry? {H : Type} : Deed H → Option (Entry H)
  | .pool entry => some entry
  | _ => none

/-- What has happened to the pool, as the deeds of the bus tell it. -/
def history {H : Type} (deeds : List (Deed H)) : History H := deeds.filterMap Deed.entry?

@[simp] theorem history_nil {H : Type} : history ([] : List (Deed H)) = [] := rfl

@[simp] theorem history_append {H : Type} (l m : List (Deed H)) :
    history (l ++ m) = history l ++ history m := by
  simp [history]

@[simp] theorem history_pool {H : Type} (e : Entry H) (l : List (Deed H)) :
    history (.pool e :: l) = e :: history l := rfl

/-- The replay that the store was asked to load events for, if there was one. -/
def Deed.loading? {H : Type} : Deed H → Option ReplayCall
  | .loading call => some call
  | _ => none

/-- The event that the store was asked to save, if there was one. -/
def Deed.saving? {H : Type} : Deed H → Option Dispatch
  | .pool entry => entry.notices.findSome? Notice.saving?
  | _ => none

namespace Broker

variable {H : Type}

/-- A new bus. -/
def new (config : PoolConfig) : Broker H := { pool := .new config }

/-- The result of a step: the new state and what was done. -/
abbrev Stepped (H : Type) := Option (Broker H × List (Deed H))

/-- Lets something happen to the pool. -/
def act [DecidableEq H] (b : Broker H) (action : Action H) : Stepped H :=
  (b.pool.step action).map fun (pool, notices) => ({ b with pool }, [.pool ⟨action, notices⟩])

/-! ## Replays -/

/-- Takes a replay out of those that go on. -/
def remove (b : Broker H) (number : Nat) : Broker H :=
  { b with replays := b.replays.eraseP (·.number == number) }

/-- A replay waits for something else. -/
def setWait (b : Broker H) (number : Nat) (wait : ReplayWait) : Broker H :=
  { b with replays := b.replays.map fun c => if c.number == number then { c with wait } else c }

/-- The replay that waits for a call of publish, and how far it is. -/
def publisher? (b : Broker H) (ticket : Nat) : Option (ReplayCall × Replay) :=
  b.replays.findSome? fun c =>
    match c.wait with
    | .publishing t replay => if t == ticket then some (c, replay) else none
    | .loading => none

/-- A replay stops, as its current event was refused. -/
def stop (b : Broker H) (call : ReplayCall) (replay : Replay) (error : BusError) :
    Broker H × List (Deed H) :=
  (b.remove call.number,
    [.stopped call replay, .replayed call (.error (replay.stop error))])

/-- A replay goes on: it has come to its end, or publishes its next event. If that event is refused
at once the replay stops. -/
def turn [DecidableEq H] (b : Broker H) (call : ReplayCall) : ReplayStep → Stepped H
  | .answered result => some (b.remove call.number, [.replayed call result])
  | .publish event replay =>
    match b.pool.step (.publish call.ctx event) with
    | none => none
    | some (pool, notices) =>
      let deed : Deed H := .pool ⟨.publish call.ctx event, notices⟩
      match notices.findSome? Notice.refusal? with
      | none =>
        some ({ b with pool }.setWait call.number (.publishing b.pool.tickets replay), [deed])
      | some error =>
        let (after, told) := { b with pool }.stop call replay error
        some (after, deed :: told)

/-- The store has answered a call of publish. If the call was made by a replay, the replay goes on.
-/
def saved [DecidableEq H] (b : Broker H) (ticket : Nat) (result : Except StoreError Unit) :
    Stepped H :=
  match b.pool.step (.saved ticket result) with
  | none => none
  | some (pool, notices) =>
    let deed : Deed H := .pool ⟨.saved ticket result, notices⟩
    match b.publisher? ticket, notices.findSome? Notice.refusal? with
    | none, _ => some ({ b with pool }, [deed])
    | some (call, replay), none =>
      ({ b with pool }.turn call replay.next).map fun (after, told) => (after, deed :: told)
    | some (call, replay), some error =>
      let (after, told) := { b with pool }.stop call replay error
      some (after, deed :: told)

/-- A call of publish ends without an answer, and with it the replay that made it. -/
def forsake [DecidableEq H] (b : Broker H) (ticket : Nat) : Stepped H :=
  (b.act (.forsake ticket)).map fun (after, deeds) =>
    match b.publisher? ticket with
    | none => (after, deeds)
    | some (call, _) => (after.remove call.number, deeds)

/-- A call of replay comes in, and the store is asked for its events. -/
def replay (b : Broker H) (ctx : Context) (name : String) (since : Time.Instant) : Stepped H :=
  if b.pool.held then
    let call : ReplayCall := ⟨b.calls, ctx, name, since, .loading⟩
    some ({ b with replays := b.replays ++ [call], calls := b.calls + 1 }, [.loading call])
  else none

/-- The replay of a number, if it waits for the store. -/
def loader? (b : Broker H) (number : Nat) : Option ReplayCall :=
  b.replays.find? fun c => c.number == number && c.wait matches .loading

/-- The store has answered a replay. -/
def loaded [DecidableEq H] (b : Broker H) (number : Nat)
    (result : Except StoreError (List Event)) : Stepped H :=
  match b.loader? number with
  | none => none
  | some call =>
    let told := match result with
      | .ok events => [.replaying call events.length]
      | .error _ => []
    (b.turn call (Replay.start result)).map fun (after, deeds) => (after, told ++ deeds)

/-! ## Steps -/

/-- The bus after something has happened to it, and what it has done. -/
def step [DecidableEq H] (b : Broker H) : BrokerAction H → Stepped H
  | .pool (.saved ticket result) => b.saved ticket result
  | .pool (.forsake ticket) => b.forsake ticket
  | .pool .release => if b.replays.isEmpty then b.act .release else none
  | .pool action => b.act action
  | .replay ctx name since => b.replay ctx name since
  | .loaded number result => b.loaded number result
  | .forsakeReplay number => (b.loader? number).map fun _ => (b.remove number, [])

end Broker

/-! ## Moves -/

/-- A step of a bus with replays, told along with its action and with whose turn it was. -/
structure Move (H : Type) where
  action : BrokerAction H
  /-- the number of the replay whose turn it was, if it was the turn of one -/
  replay? : Option Nat
  deeds : List (Deed H)

/-- What was done in some moves. -/
def deedsOf {H : Type} (log : List (Move H)) : List (Deed H) := log.flatMap (·.deeds)

/-- What was done in the turns of a replay. -/
def deedsFor {H : Type} (number : Nat) (log : List (Move H)) : List (Deed H) :=
  deedsOf (log.filter (·.replay? == some number))

/-- What the store has answered to a replay, if the action is that. -/
def BrokerAction.loaded? {H : Type} (number : Nat) :
    BrokerAction H → Option (Except StoreError (List Event))
  | .loaded n result => if n = number then some result else none
  | _ => none

/-- What the store has answered to a replay. -/
def answersTo {H : Type} (number : Nat) (log : List (Move H)) :
    List (Except StoreError (List Event)) :=
  log.filterMap (·.action.loaded? number)

namespace Broker

variable {H : Type}

/-- The number of the replay whose turn it is in a step. A replay has its turns when it comes in,
when the store has loaded its events, and when its call of publish has ended. -/
def turnOf (b : Broker H) : BrokerAction H → Option Nat
  | .pool (.saved ticket _) | .pool (.forsake ticket) => (b.publisher? ticket).map (·.1.number)
  | .pool _ => none
  | .replay _ _ _ => some b.calls
  | .loaded number _ | .forsakeReplay number => some number

/-- A step, told as a move. -/
def watch [DecidableEq H] (b : Broker H) (action : BrokerAction H) :
    Option (Broker H × List (Move H)) :=
  (b.step action).map fun (after, deeds) => (after, [⟨action, b.turnOf action, deeds⟩])

end Broker

end DomainEvents.Bus
