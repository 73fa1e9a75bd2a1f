import DomainEvents.Simulation.Schedule

/-!
# Runs

A run of a simulation: a bus is built, and the steps of a script are made one after the other. Each
step has a `Report`, which tells its answer and what else could be seen meanwhile.
-/

namespace DomainEvents.Simulation

open Bus (Broker Direct PoolConfig DirectConfig TraceLine)

/-- The bus of a simulation. -/
inductive BusSetup where
  | noop
  | direct (config : DirectConfig)
  | pool (config : PoolConfig)
deriving DecidableEq, Repr

/-- What a simulation starts with. -/
structure Setup where
  bus : BusSetup
  handlers : List (Label × HandlerSpec)
  store : SlowStore
  callback : Callback
  /-- whether the bus counts -/
  counts : Bool
  cancellations : Cancellations
  clock : Moment

/-- What can be seen of a bus from outside. -/
inductive BusState where
  | direct (handlers : Nat)
  | pool (handlers queued inFlight : Nat) (closed : Bool)
deriving DecidableEq, Repr

/-- What a step tells. -/
structure Report where
  answer : Answer
  /-- what can be seen of the bus, as long as the user holds one that shows something -/
  state : Option BusState
  notes : List (Label × Note)
  failures : List Bus.DispatchFailure
  metrics : Option Series
  trace : List TraceLine
deriving Repr

/-- Why there is nothing to simulate. -/
inductive BuildFailure where
  | refused (error : BusError)
  | panicked
deriving Repr

/-- The world that a simulation starts from. The dispatcher of a pool is ready from the beginning.
-/
def Setup.build (s : Setup) : Except BuildFailure World := do
  let world (bus : AnyBus) : World := {
    bus
    handlers := s.handlers.map fun (label, spec) =>
      (label, { spec, shouldError := spec.shouldError })
    store := s.store, callback := s.callback
    metrics := if s.counts then some {} else none
    cancellations := s.cancellations, clock := s.clock }
  match s.bus with
  | .noop => return world .noop
  | .direct config => return world (.direct (Direct.new config))
  | .pool config =>
    match config.build true with
    | .refused e => .error (.refused e)
    | .panicked => .error .panicked
    | .built config =>
      let w := (world (.pool (Broker.new config))).addTrace (.started config)
      return { w with ready := [⟨.dispatcher, [.dispatching], .run⟩] }

namespace World

/-- What can be seen of the bus. -/
def busState (w : World) : Option BusState :=
  if w.userHolds then
    match w.bus with
    | .noop => none
    | .direct bus => some (.direct bus.registry.size)
    | .pool b =>
      some (.pool b.pool.registry.size b.pool.queued b.pool.inFlight b.pool.closed)
  else none

/-- The text of the bus for readers of a log. -/
def busText (w : World) : String :=
  match w.bus with
  | .noop => "NoopEventBus"
  | .direct _ => "EventBus"
  | .pool b => b.pool.text

/-- A change to the store. -/
def changeStore (s : SlowStore) : StoreChange → SlowStore
  | .failSave on => { s with store := { s.store with failSave := on } }
  | .failLoad on => { s with store := { s.store with failLoad := on } }
  | .failMark on => { s with store := { s.store with failMark := on } }
  | .saveDelay millis => { s with saveDelay := millis }
  | .markDelay millis => { s with markDelay := millis }
  | .custom message => { s with custom := message }

/-- Changes what a handler remembers, and wakes who waits for that. -/
def change (w : World) (label : Label) (f : Actor → Actor) : World × Answer :=
  match w.actor? label with
  | some a => ((w.setActor label (f a)).wake, .nothing)
  | none => (w, .nothing)

/-- Lets everything run that is ready, after a step that waits. -/
def settled (result : World × Answer) : World × Answer :=
  (settle patience result.1, result.2)

/-- Looks into a handler. -/
def inspect (w : World) (label : Label) : Answer :=
  match w.actor? label with
  | none => .nothing
  | some a =>
    match a.spec.behavior with
    | .recorder _ _ => .recorder a.received a.spy
    | .probe _ => .probe a.probe
    | _ => .nothing

/-- Makes a call in a task of its own. -/
def spawn (w : World) (request : Request) : World × Answer :=
  let holds := holdsBus request
  let w := if holds then w.hold else w
  let job : Job := ⟨.background w.tasks holds, [.request request], .run⟩
  ({ w with tasks := w.tasks + 1, ready := w.ready ++ [job] }, .task w.tasks)

/-- Releases permits of a probe. -/
def release (w : World) (label : Label) (count : Nat) : World × Answer :=
  match w.actor? label with
  | none => (w, .nothing)
  | some a =>
    match a.probe.release? count with
    | some probe => w.change label fun a => { a with probe }
    | none =>
      let most := toString Bus.PoolConfig.maxPermits
      let left := count - a.probe.queued
      (w, .panicked <| some <|
        if Bus.PoolConfig.maxPermits < left then
          "cannot add more than MAX_PERMITS permits (" ++ most ++ ")"
        else
          "number of added permits (" ++ toString left ++ ") would overflow MAX_PERMITS (" ++ most
            ++ ")")

/-- Makes a step of a script. -/
def make (w : World) : Step → World × Answer
  | .subscribe label => w.subscribe label
  | .unsubscribe label => w.unsubscribe label
  | .off id => w.off id
  | .clear => w.clear
  | .call (.close timeout) => settled (w.await [.request (.close timeout)])
  | .call request => w.await [.request request]
  | .spawn request => w.spawn request
  | .publishAll ctx events => w.await [.publishing ctx events []]
  | .join task => settled (w.await [.awaiting task])
  | .settle => settled (w, .nothing)
  | .sleep millis =>
    let (w, _) := w.await [.sleeping millis]
    settled (w, .nothing)
  | .dropBus =>
    if w.userHolds then ({ w with userHolds := false }.letGo.wake, .nothing) else (w, .nothing)
  | .cancel ctx => ({ w with cancellations := w.cancellations.cancel ctx }, .nothing)
  | .interested label name =>
    match w.askInterest label name with
    | .ok interested => (w, .flag interested)
    | .error panic => (w, .panicked panic)
  | .handlerName label => (w, .text (w.nameOf label))
  | .setError label on => w.change label fun a => { a with shouldError := on }
  | .forget label => w.change label fun a => { a with received := [], spy := a.spy.clear }
  | .release label count => w.release label count
  | .awaitStarted label count => w.await [.awaitingStarted label count]
  | .inspect label => (w, w.inspect label)
  | .changeStore changes => ({ w with store := changes.foldl changeStore w.store }, .nothing)
  | .storedEvents => (w, .events w.store.store.memory.records)
  | .storeCalls => (w, .calls w.store.store.spy)
  | .busText => (w, .text w.busText)
  | .collected => (w, .collected w.collected)

/-- Makes a step and tells what it did; what was told is not told again. -/
def report (w : World) (step : Step) : World × Report :=
  let (w, answer) := w.make step
  let w := w.wake
  ({ w with notes := [], failures := [], trace := [] },
    { answer, state := w.busState, notes := w.notes, failures := w.failures
      metrics := w.metrics, trace := w.trace })

/-- Makes the steps of a script, one after the other. -/
def reports (w : World) : List Step → List Report
  | [] => []
  | step :: rest =>
    let (w, r) := w.report step
    r :: w.reports rest

end World

/-- Runs a script. -/
def Setup.run (s : Setup) (steps : List Step) : Except BuildFailure (List Report) := do
  return (← s.build).reports steps

end DomainEvents.Simulation
