import DomainEvents.Bus.Trace
import DomainEvents.Simulation.FaultyStore
import DomainEvents.Simulation.Probe
import DomainEvents.Simulation.Script
import DomainEvents.Store.Empty

/-!
# Worlds

The state of a simulation: a bus, its handlers and its store, the tasks that run or wait, and the
clock. Tasks are lists of frames, the innermost first; a frame says what is to be done when the
frame inside of it has its answer. A task that waits is parked with a cue, which says what wakes it,
and perhaps an alarm.
-/

namespace DomainEvents.Simulation

open Bus (Broker Direct TraceLine)

/-! ## Answers and notes -/

/-- What a panic says, if it says it in words. -/
abbrev Panic := Option String

/-- The answer to a step or a call. -/
inductive Answer where
  | nothing
  | outcome (result : Except BusError Unit)
  | handled (result : Except HandlerError Unit)
  | stored (result : Except StoreError Unit)
  | replayed (result : Except BusError Nat)
  | panicked (panic : Panic)
  | list (answers : List Answer)
  | subscribed (id : SubscriptionId)
  | flag (value : Bool)
  | text (value : String)
  | task (number : Nat)
  | started
  /-- the events a recorder has got, by name and aggregate, and its calls -/
  | recorder (received : List Event) (spy : Spy)
  | probe (probe : Probe)
  | events (records : List StoredEvent)
  | calls (spy : Spy)
  | collected (messages : List String)
deriving Repr, Inhabited

/-- A note that a handler makes. -/
inductive Note where
  /-- it was called for an event -/
  | handling (event : Event)
  /-- it was called for an event that says something -/
  | typed (event : Event) (variant : String) (data : Except PayloadError Json)
  | message (text : String)
  | event (event : Event)
  | context (correlationId : Uuid) (cancelled : Bool)
  | handlers (count : Nat)
  | kind (variant : String) (data : Except PayloadError Json)
  /-- it has published an event of a name -/
  | published (name : String) (result : Except BusError Unit)
  /-- it would have published an event, but nobody holds the bus any more -/
  | noBus
  /-- it has done something to the subscriptions -/
  | did (word : String) (answer : Answer)
deriving Repr

/-! ## Tasks -/

/-- A call of a scripted handler, and what is left for it to do. -/
structure Role where
  handler : Label
  ctx : Context
  event : Event
  acts : List Act
deriving Repr

/-- What is to be done when the frame inside has its answer. -/
inductive Frame where
  /-- a call is to be made -/
  | request (request : Request)
  /-- the next of several events is to be published; answers so far, the last first -/
  | publishing (ctx : Context) (rest : List Event) (answers : List Answer)
  /-- an event is to be saved, after the delay of the store if it has not passed yet -/
  | saving (event : Event) (waited : Bool)
  /-- a publish waits for its event to be saved -/
  | saved (ticket : Nat)
  /-- a replay waits for its current event to be saved -/
  | replaying (ticket : Nat)
  /-- a close waits until the dispatcher has stopped or its time has run out -/
  | closing (ticket : Nat) (alarm : Option (Nat × Nat)) (due : Nat)
  /-- a worker goes on -/
  | working (ticket : Nat)
  /-- an event is to be marked, after the delay of the store if it has not passed yet -/
  | marking (id : Uuid) (waited : Bool)
  /-- the dispatcher goes on -/
  | dispatching
  /-- a publish waits for the handlers of its event -/
  | delivering (ticket : Nat)
  /-- a recorder takes an event -/
  | recording (handler : Label) (event : Event)
  /-- a probe holds a call -/
  | holding (handler : Label) (call : Nat)
  /-- a scripted handler goes on -/
  | acting (role : Role)
  /-- a scripted handler waits for the event of a name that it publishes, and hands on a failure if
  it is told to -/
  | publishedBy (role : Role) (name : String) (propagate : Bool)
  /-- somebody waits for a task -/
  | awaiting (task : Nat)
  /-- somebody waits for calls of a probe to start -/
  | awaitingStarted (handler : Label) (count : Nat)
  /-- somebody waits for time to pass -/
  | sleeping (millis : Nat)
deriving Repr

/-- Who a task belongs to. -/
inductive Owner where
  /-- the one who makes the steps -/
  | user
  | dispatcher
  | worker (ticket : Nat)
  /-- a task of its own for a call, and whether the call holds the bus -/
  | background (task : Nat) (holds : Bool)
deriving DecidableEq, Repr

/-- How a task goes on. -/
inductive Mode where
  /-- the innermost frame has its turn -/
  | run
  /-- the innermost frame gets an answer -/
  | back (answer : Answer)
  /-- a panic goes through the frames -/
  | unwind (panic : Panic)
deriving Repr

/-- A task. -/
structure Job where
  owner : Owner
  frames : List Frame
  mode : Mode
deriving Repr

/-- What wakes a task, apart from its alarm. -/
inductive Cue where
  | nothing
  /-- the dispatcher can go on -/
  | dispatch
  /-- a close can see that the dispatcher has stopped -/
  | join (ticket : Nat)
  /-- a call of a probe has its permit -/
  | admitted (handler : Label) (call : Nat)
  /-- a task has ended -/
  | ended (task : Nat)
  /-- so many calls of a probe have started -/
  | started (handler : Label) (count : Nat)
deriving DecidableEq, Repr

/-- When an alarm goes off: the millisecond, and a number that grows with every alarm that is set.
-/
abbrev Alarm := Nat × Nat

/-- Whether an alarm goes off before another. -/
def Alarm.before (a b : Alarm) : Bool := a.1 < b.1 || (a.1 == b.1 && a.2 < b.2)

/-- A task that waits. -/
structure Parked where
  job : Job
  cue : Cue
  alarm : Option Alarm
deriving Repr

/-! ## The state -/

/-- A handler and what it remembers. -/
structure Actor where
  spec : HandlerSpec
  /-- whether a recorder fails -/
  shouldError : Bool
  /-- the events that a recorder has got -/
  received : List Event := []
  /-- the calls of a recorder -/
  spy : Spy := {}
  /-- the counts of a probe -/
  probe : Probe := {}

/-- The store behind a bus. -/
structure SlowStore where
  /-- whether it keeps anything at all; otherwise it is the store without events -/
  keeps : Bool := true
  store : FaultyStore := {}
  /-- how long saving takes, in milliseconds -/
  saveDelay : Nat := 0
  /-- how long marking takes, in milliseconds -/
  markDelay : Nat := 0
  /-- the clock of the store, which stands still; no answer shows it -/
  now : Time.Instant := default
  /-- the error of another type that every operation fails with -/
  custom : Option String := none
deriving Repr, Inhabited

/-- Who takes the failures that no caller sees. -/
inductive Callback where
  /-- a record -/
  | record
  /-- a record, and then it panics -/
  | recordAndPanic
  /-- a collector of messages -/
  | collect
  /-- the trace -/
  | trace
deriving DecidableEq, Repr

/-- A bus of any type. -/
inductive AnyBus where
  /-- one that does nothing -/
  | noop
  /-- one without a queue -/
  | direct (bus : Direct Label)
  /-- one with a queue and workers -/
  | pool (broker : Broker Label)

/-- The state of a simulation. -/
structure World where
  bus : AnyBus
  handlers : List (Label × Actor)
  store : SlowStore := {}
  callback : Callback := .record
  metrics : Option Series := none
  ids : SubscriptionIds := {}
  cancellations : Cancellations
  /-- the clock of deadlines, which stands still -/
  clock : Moment
  /-- how many hold the bus -/
  holders : Nat := 1
  /-- whether the user holds the bus -/
  userHolds : Bool := true
  /-- the virtual time in milliseconds -/
  now : Nat := 0
  /-- how many alarms were set -/
  alarms : Nat := 0
  /-- the tasks that can run, in the order in which they became ready -/
  ready : List Job := []
  /-- the tasks that wait, in the order in which they were parked -/
  parked : List Parked := []
  /-- how many tasks were made for calls -/
  tasks : Nat := 0
  /-- the answers of those that have ended -/
  endedTasks : List (Nat × Answer) := []
  /-- the messages that were collected -/
  collected : List String := []
  /-- the notes since they were last looked at -/
  notes : List (Label × Note) := []
  /-- the failures since they were last looked at -/
  failures : List Bus.DispatchFailure := []
  /-- the trace since it was last looked at -/
  trace : List TraceLine := []

namespace World

/-- A handler by its label. -/
def actor? (w : World) (label : Label) : Option Actor :=
  (w.handlers.find? (·.1 == label)).map (·.2)

/-- Changes what a handler remembers. -/
def setActor (w : World) (label : Label) (actor : Actor) : World :=
  { w with handlers := w.handlers.map fun (l, a) => if l == label then (l, actor) else (l, a) }

/-- The name that a handler goes by. -/
def nameOf (w : World) (label : Label) : String :=
  ((w.actor? label).map (·.spec.name)).getD ""

/-- The subscriptions of the bus. -/
def registry (w : World) : Registry Label :=
  match w.bus with
  | .noop => {}
  | .direct bus => bus.registry
  | .pool broker => broker.pool.registry

/-- Adds a line to the trace. -/
def addTrace (w : World) (line : TraceLine) : World := { w with trace := w.trace ++ [line] }

/-- Adds a note of a handler. -/
def addNote (w : World) (label : Label) (note : Note) : World :=
  { w with notes := w.notes ++ [(label, note)] }

/-- Whether a cue has come. -/
def hasCome (w : World) : Cue → Bool
  | .nothing => false
  | .dispatch =>
    match w.bus with
    | .pool broker => broker.pool.dispatch.isSome
    | _ => false
  | .join ticket =>
    match w.bus with
    | .pool broker => broker.pool.canJoin ticket
    | _ => false
  | .admitted label call => (w.actor? label).any fun a => a.probe.isAdmitted call
  | .ended task => w.endedTasks.any (·.1 == task)
  | .started label count => (w.actor? label).any fun a => count ≤ a.probe.started

/-- Wakes the tasks whose cue has come, in the order in which they were parked. -/
def wake (w : World) : World :=
  let (woken, parked) := w.parked.partition fun p => w.hasCome p.cue
  { w with ready := w.ready ++ woken.map (·.job), parked }

/-- Takes a notice of the pool into the trace and the metrics. -/
def notice (w : World) (n : Bus.Notice Label) : World :=
  let w := match TraceLine.ofNotice? n with
    | some line => w.addTrace line
    | none => w
  match n.signal? with
  | some signal => { w with metrics := w.metrics.map fun s => s.record signal }
  | none => w

/-- Takes a deed of the bus into the trace and the metrics. An event that was handed out gets the
task of its worker. -/
def deed (w : World) (d : Bus.Deed Label) : World :=
  let w := match TraceLine.ofDeed? d with
    | some line => w.addTrace line
    | none => w
  match d with
  | .pool entry =>
    let workers := entry.notices.filterMap fun n =>
      match n with
      | .handed d => some (⟨.worker d.ticket, [.working d.ticket], .run⟩ : Job)
      | _ => none
    let w := entry.notices.foldl notice w
    { w with ready := w.ready ++ workers }
  | _ => w

/-- Lets something happen to the bus, and tells what came of it. -/
def perform (w : World) (action : Bus.BrokerAction Label) : World × List (Bus.Deed Label) :=
  match w.bus with
  | .pool broker =>
    match broker.step action with
    | some (broker, deeds) => (deeds.foldl deed { w with bus := .pool broker }, deeds)
    | none => (w, [])
  | _ => (w, [])

/-- Lets something happen to the pool, and tells what it gave notice of. -/
def act (w : World) (action : Bus.Action Label) : World × List (Bus.Notice Label) :=
  let (w, deeds) := w.perform (.pool action)
  (w, (Bus.history deeds).notices)

/-- Takes a notice of a bus without a queue into the trace. -/
def directNotice (w : World) (n : Bus.DirectNotice Label) : World :=
  match TraceLine.ofDirect? w.nameOf n with
  | some line => w.addTrace line
  | none => w

/-- Lets something happen to a bus without a queue, and tells what it gave notice of. -/
def actDirect (w : World) (action : Bus.DirectAction Label) :
    World × List (Bus.DirectNotice Label) :=
  match w.bus with
  | .direct bus =>
    match bus.step w.nameOf action with
    | some (bus, notices) => (notices.foldl directNotice { w with bus := .direct bus }, notices)
    | none => (w, [])
  | _ => (w, [])

/-- Somebody more holds the bus. -/
def hold (w : World) : World := { w with holders := w.holders + 1 }

/-- Somebody lets go of the bus; the last one releases it. -/
def letGo (w : World) : World :=
  let w := { w with holders := w.holders - 1 }
  if w.holders = 0 then (w.act .release).1 else w

/-- An alarm some milliseconds from now. -/
def setAlarm (w : World) (millis : Nat) : World × Alarm :=
  ({ w with alarms := w.alarms + 1 }, (w.now + millis, w.alarms))

end World

end DomainEvents.Simulation
