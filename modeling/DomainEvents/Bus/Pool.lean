import DomainEvents.Bus.Config
import DomainEvents.Bus.Worker
import DomainEvents.Metrics

/-!
# Pools

The bus with a queue and workers, as a state that changes by single steps. A published event is
saved, then put into a queue of limited size. The dispatcher takes events off the queue, waits for a
permit and hands each event to a worker of its own. Closing tells the dispatcher to stop: it lets no
more events into the queue, hands out those that wait there, waits for all workers and stops.

An `Action` is whatever can happen between two points at which somebody waits: a call comes in, a
store or a handler answers, the dispatcher or a worker goes on, the time of a close runs out.
`Pool.step` is the only way in which a pool changes. It fails where an action is not possible, and
tells in `Notice`s what has happened. Which of the possible actions comes next is decided elsewhere,
so that what holds after every sequence of actions holds for every way to interleave the tasks.
-/

namespace DomainEvents.Bus

/-- What the dispatcher is about. -/
inductive Stage where
  /-- it waits for events, ended workers and the signal to quit -/
  | running
  /-- it hands out what is left in the queue; so many have been handed out -/
  | draining (count : Nat)
  /-- it waits for the workers to end -/
  | joining
  /-- it has stopped -/
  | stopped
deriving DecidableEq, Repr

/-- The stage after an event was handed out. -/
def Stage.counted : Stage → Stage
  | .draining count => .draining (count + 1)
  | stage => stage

/-- What the dispatcher holds between the queue and a worker. -/
inductive Hand where
  | empty
  /-- an event without a permit -/
  | waiting (d : Dispatch)
  /-- an event with a permit -/
  | granted (d : Dispatch)
deriving Repr

/-- The event in the hand, if there is one. -/
def Hand.toList : Hand → List Dispatch
  | .empty => []
  | .waiting d | .granted d => [d]

@[simp] theorem Hand.toList_empty : Hand.empty.toList = [] := rfl

@[simp] theorem Hand.toList_waiting (d : Dispatch) : (Hand.waiting d).toList = [d] := rfl

@[simp] theorem Hand.toList_granted (d : Dispatch) : (Hand.granted d).toList = [d] := rfl

/-- How many permits the hand has. -/
def Hand.permits : Hand → Nat
  | .granted _ => 1
  | .empty | .waiting _ => 0

/-- The hand after a permit came to it. -/
def Hand.grant : Hand → Hand
  | .waiting d => .granted d
  | hand => hand

@[simp] theorem Hand.toList_grant (hand : Hand) : hand.grant.toList = hand.toList := by
  cases hand <;> rfl

/-- A worker that has ended. -/
structure Ended where
  dispatch : Dispatch
  /-- whether a panic has killed it -/
  killed : Bool
deriving Repr

/-- A call of close that waits for the dispatcher to stop. -/
structure Closer where
  /-- the number of the call -/
  ticket : Nat
  /-- how long it waits at most -/
  timeout : Time.Span
deriving DecidableEq, Repr

/-- The state of a bus with a queue and workers, whose handlers are of type `H`. -/
structure Pool (H : Type) where
  config : PoolConfig
  registry : Registry H := {}
  /-- whether somebody still holds the bus -/
  held : Bool := true
  /-- whether it was closed -/
  closed : Bool := false
  /-- whether the dispatcher was told to stop -/
  quit : Bool := false
  /-- whether the queue still takes events -/
  accepting : Bool := true
  /-- the events that wait to be taken, the first to come first -/
  queue : List Dispatch := []
  stage : Stage := .running
  hand : Hand := .empty
  /-- the permits that nobody has -/
  free : Nat
  /-- the workers that have not ended -/
  workers : List (Worker H) := []
  /-- the workers that have ended and that the dispatcher has not looked at yet -/
  ended : List Ended := []
  /-- how many workers have started and not ended -/
  inFlight : Nat := 0
  /-- the calls of publish that wait for their event to be saved -/
  saving : List Dispatch := []
  /-- the calls of close that wait, in the order of their coming; only the first one waits for the
  dispatcher itself, the others for the one before -/
  closers : List Closer := []
  /-- whether no call of close has seen the dispatcher stop yet -/
  joinable : Bool := true
  /-- the number of the next call -/
  tickets : Nat := 0
deriving Repr

/-- Something that happens to a bus. -/
inductive Action (H : Type) where
  /-- an event is published -/
  | publish (ctx : Context) (event : Event)
  /-- the store has answered a call of publish -/
  | saved (ticket : Nat) (result : Except StoreError Unit)
  /-- a call of publish ends without an answer: its caller has gone away, or the store has panicked
  -/
  | forsake (ticket : Nat)
  /-- the dispatcher goes on -/
  | dispatch
  /-- a worker starts -/
  | start (ticket : Nat)
  /-- a worker hears what it waits for -/
  | reply (ticket : Nat) (reply : Reply)
  /-- the bus is closed -/
  | close (timeout : Time.Span)
  /-- a call of close sees that the dispatcher has stopped -/
  | join (ticket : Nat)
  /-- the time of a call of close has run out -/
  | expire (ticket : Nat)
  /-- the caller of a close has gone away -/
  | abandon (ticket : Nat)
  /-- nobody holds the bus any more -/
  | release
  | subscribe (id : SubscriptionId) (handler : H)
  | unsubscribe (handler : H)
  | off (id : SubscriptionId)

/-- What a bus gives notice of. -/
inductive Notice (H : Type) where
  /-- the store is asked to save an event -/
  | saving (d : Dispatch)
  /-- an event has come into the queue -/
  | accepted (d : Dispatch)
  /-- an event was refused -/
  | refused (d : Dispatch) (error : BusError)
  /-- a call of publish has its answer -/
  | answered (d : Dispatch) (result : Except BusError Unit)
  /-- an event was handed to a worker -/
  | handed (d : Dispatch)
  /-- a worker has started -/
  | started (d : Dispatch)
  /-- a worker has done something -/
  | worker (d : Dispatch) (notice : WorkerNotice H)
  /-- a worker has ended -/
  | ended (d : Dispatch) (killed : Bool)
  /-- the dispatcher has looked at a worker that has ended -/
  | reaped (killed : Bool)
  /-- the queue is empty for good; so many events were handed out after the signal to quit -/
  | drained (count : Nat)
  /-- the dispatcher has stopped -/
  | stopped
  /-- the bus was closed -/
  | closing (queued inFlight : Nat)
  /-- a call of close has seen the dispatcher stop -/
  | closed
  /-- the time of a call of close has run out -/
  | overdue (timeout : Time.Span) (queued inFlight : Nat)
  /-- a call of close has its answer -/
  | closeAnswered (c : Closer) (result : Except BusError Unit)
deriving Repr

namespace Pool

variable {H : Type}

/-- A new bus. -/
def new (config : PoolConfig) : Pool H :=
  { config, free := config.workerCount }

/-- How many events wait to be taken. -/
def queued (p : Pool H) : Nat := p.queue.length

/-- The result of a step: the new state and what there is to tell. -/
abbrev Stepped (H : Type) := Option (Pool H × List (Notice H))

/-! ## Publishing -/

/-- Refuses an event. -/
def refuse (p : Pool H) (d : Dispatch) (error : BusError) : Pool H × List (Notice H) :=
  (p, [.refused d error, .answered d (.error error)])

/-- Looks at an event before it is saved, if the configuration asks for that. -/
def check (p : Pool H) (event : Event) : Except ValidationError Unit :=
  if p.config.validateEvents then event.validate else .ok ()

/-- A call of publish comes in. It is refused if the bus was closed or the event is malformed, and
waits for the store otherwise. -/
def publish (p : Pool H) (ctx : Context) (event : Event) : Stepped H :=
  if p.held then
    let d : Dispatch := ⟨p.tickets, ctx, event⟩
    let p := { p with tickets := p.tickets + 1 }
    if p.closed then some (p.refuse d .shuttingDown)
    else
      match p.check event with
      | .error invalid => some (p.refuse d (.validation invalid))
      | .ok () => some ({ p with saving := p.saving ++ [d] }, [.saving d])
  else none

/-- Puts a saved event into the queue, if the queue takes events and has room. -/
def enqueue (p : Pool H) (d : Dispatch) : Pool H × List (Notice H) :=
  if !p.accepting then p.refuse d .shuttingDown
  else if p.config.queueSize ≤ p.queue.length then
    p.refuse d (.queueFull p.config.queueSize)
  else ({ p with queue := p.queue ++ [d] }, [.accepted d, .answered d (.ok ())])

/-- Takes a call out of those that wait for the store. -/
@[simp] def unsave (p : Pool H) (ticket : Nat) : Pool H :=
  { p with saving := p.saving.eraseP (·.ticket == ticket) }

/-- The store has answered a call of publish. -/
def saved (p : Pool H) (ticket : Nat) (result : Except StoreError Unit) : Stepped H :=
  match p.saving.find? (·.ticket == ticket) with
  | none => none
  | some d =>
    match result with
    | .ok () => some ((p.unsave ticket).enqueue d)
    | .error source => some ((p.unsave ticket).refuse d (.persistence .save source))

/-! ## Dispatching -/

/-- The dispatcher takes an event off the queue, with a permit if there is one. -/
def take (p : Pool H) (d : Dispatch) (rest : List Dispatch) : Pool H :=
  { p with
    queue := rest
    hand := if p.free = 0 then .waiting d else .granted d
    free := p.free - 1 }

/-- The dispatcher looks at a worker that has ended. -/
def reap (p : Pool H) (e : Ended) (rest : List Ended) : Pool H × List (Notice H) :=
  ({ p with ended := rest }, [.reaped e.killed])

/-- The dispatcher goes on with its hand empty. While it runs, the signal to quit comes before ended
workers, and these come before the queue. -/
def dispatchNext (p : Pool H) : Stepped H :=
  match p.stage with
  | .running =>
    if p.quit then some ({ p with stage := .draining 0, accepting := false }, [])
    else
      match p.ended, p.queue with
      | e :: rest, _ => some (p.reap e rest)
      | [], d :: rest => some (p.take d rest, [])
      | [], [] => none
  | .draining count =>
    match p.queue with
    | d :: rest => some (p.take d rest, [])
    | [] => some ({ p with stage := .joining }, [.drained count])
  | .joining =>
    match p.ended with
    | e :: rest => some (p.reap e rest)
    | [] => if p.workers.isEmpty then some ({ p with stage := .stopped }, [.stopped]) else none
  | .stopped => none

/-- The dispatcher goes on: with a permit for the event in its hand it hands it to a new worker,
without one it waits. -/
def dispatch (p : Pool H) : Stepped H :=
  match p.hand with
  | .waiting _ => none
  | .granted d =>
    some ({ p with hand := .empty, stage := p.stage.counted,
                   workers := p.workers ++ [⟨d, .spawned⟩] }, [.handed d])
  | .empty => p.dispatchNext

/-! ## Working -/

/-- The worker of an event. -/
def worker? (p : Pool H) (ticket : Nat) : Option (Worker H) :=
  p.workers.find? (·.dispatch.ticket == ticket)

/-- A worker waits for something else. -/
def setPhase (p : Pool H) (ticket : Nat) (phase : Phase H) : Pool H :=
  { p with workers := p.workers.map fun w =>
      if w.dispatch.ticket == ticket then { w with phase } else w }

/-- A permit comes back. The dispatcher has it if it waits for one. -/
def giveBack (p : Pool H) : Pool H :=
  { p with
    hand := p.hand.grant
    free := if p.hand matches .waiting _ then p.free else p.free + 1 }

/-- A worker that has started ends, and gives back its permit. -/
def endWorker (p : Pool H) (d : Dispatch) (killed : Bool) : Pool H × List (Notice H) :=
  (giveBack { p with
    workers := p.workers.eraseP (·.dispatch.ticket == d.ticket)
    ended := p.ended ++ [⟨d, killed⟩]
    inFlight := p.inFlight - 1 }, [.ended d killed])

/-- A worker starts, with the subscriptions that there are. -/
def start (p : Pool H) (ticket : Nat) : Stepped H :=
  match p.worker? ticket with
  | some ⟨d, .spawned⟩ =>
    let entries := p.registry.entries
    some ({ p.setPhase ticket (Phase.turnTo entries) with inFlight := p.inFlight + 1 },
      .started d :: (Phase.turnNotices d.event entries).map (.worker d))
  | _ => none

/-- A worker hears what it waits for. -/
def reply (p : Pool H) (ticket : Nat) (reply : Reply) : Stepped H :=
  match p.worker? ticket with
  | none => none
  | some w =>
    match w.phase.step w.dispatch.event reply with
    | none => none
    | some (progress, notices) =>
      let told := notices.map (.worker w.dispatch)
      match progress with
      | .next phase => some (p.setPhase ticket phase, told)
      | .finished =>
        let (p, more) := p.endWorker w.dispatch false
        some (p, told ++ more)
      | .killed =>
        let (p, more) := p.endWorker w.dispatch true
        some (p, told ++ more)

/-! ## Closing -/

/-- A call of close comes in. -/
def close (p : Pool H) (timeout : Time.Span) : Stepped H :=
  if p.held then
    some ({ p with
      closed := true, quit := true, tickets := p.tickets + 1
      closers := p.closers ++ [⟨p.tickets, timeout⟩] },
      if p.closed then [] else [.closing p.queued p.inFlight])
  else none

/-- Whether a call of close can see that the dispatcher has stopped. Once one has seen it, all
others know. -/
def canJoin (p : Pool H) (ticket : Nat) : Bool :=
  p.closers.head?.any (·.ticket == ticket) && (!p.joinable || p.stage == .stopped)

/-- Takes a call out of those that wait for the dispatcher. -/
@[simp] def removeCloser (p : Pool H) (ticket : Nat) : Pool H :=
  { p with closers := p.closers.eraseP (·.ticket == ticket) }

/-- A call of close sees that the dispatcher has stopped. -/
def join (p : Pool H) (ticket : Nat) : Stepped H :=
  match p.closers.find? (·.ticket == ticket) with
  | none => none
  | some c =>
    if p.canJoin ticket then
      some ({ p.removeCloser ticket with joinable := false },
        (if p.joinable then [.closed] else []) ++ [.closeAnswered c (.ok ())])
    else none

/-- The time of a call of close has run out. It looks at the dispatcher once more before it gives
up. -/
def expire (p : Pool H) (ticket : Nat) : Stepped H :=
  match p.closers.find? (·.ticket == ticket) with
  | none => none
  | some c =>
    if p.canJoin ticket then none
    else
      some (p.removeCloser ticket,
        [.overdue c.timeout p.queued p.inFlight,
          .closeAnswered c (.error (.timeout c.timeout))])

/-- The last holder lets go of the bus; nobody is in the middle of a call then. -/
def release (p : Pool H) : Stepped H :=
  if p.held && p.saving.isEmpty && p.closers.isEmpty then
    some ({ p with held := false, quit := true }, [])
  else none

/-! ## Steps -/

/-- The bus after something has happened to it, and what there is to tell of it. -/
def step [DecidableEq H] (p : Pool H) : Action H → Stepped H
  | .publish ctx event => p.publish ctx event
  | .saved ticket result => p.saved ticket result
  | .forsake ticket =>
    if p.saving.any (·.ticket == ticket) then some (p.unsave ticket, []) else none
  | .dispatch => p.dispatch
  | .start ticket => p.start ticket
  | .reply ticket reply => p.reply ticket reply
  | .close timeout => p.close timeout
  | .join ticket => p.join ticket
  | .expire ticket => p.expire ticket
  | .abandon ticket =>
    if p.closers.any (·.ticket == ticket) then some (p.removeCloser ticket, []) else none
  | .release => p.release
  | .subscribe id handler =>
    if p.held then some ({ p with registry := p.registry.subscribe id handler }, []) else none
  | .unsubscribe handler =>
    if p.held then some ({ p with registry := p.registry.unsubscribe handler }, []) else none
  | .off id => if p.held then some ({ p with registry := p.registry.off id }, []) else none

end Pool

/-- The event that the store is asked to save, if the notice says so. -/
@[simp] def Notice.saving? {H : Type} : Notice H → Option Dispatch
  | .saving d => some d
  | _ => none

/-- Why an event was refused, if the notice says so. -/
def Notice.refusal? {H : Type} : Notice H → Option BusError
  | .refused _ error => some error
  | _ => none

/-- What a notice counts as. -/
def Notice.signal? {H : Type} : Notice H → Option Signal
  | .accepted _ => some .published
  | .refused _ error => some (.rejected error)
  | .started _ => some .workerStarted
  | .worker _ .handlerFailed => some .handlerFailed
  | .worker _ .processed => some .processed
  | .ended _ _ => some .workerFinished
  | _ => none

end DomainEvents.Bus
