import DomainEvents.Json.Access
import DomainEvents.Simulation.Run

/-!
# Scripts as JSON

How simulations are written down: the values they are made of, the handlers by their labels, and the
steps of the script, each an object whose field `do` says what it does.
-/

namespace DomainEvents.Simulation

open Json (Read asText asNat asBool asList asFields)

/-! ## Values -/

/-- A UUID: its text, or the number that it ends with. -/
def readUuid : Json → Read Uuid
  | .int n => .ok (Uuid.ofNumber n.toNat)
  | .str s =>
    match Uuid.parse? s with
    | some u => .ok u
    | none => .error "uuid expected"
  | _ => .error "uuid expected"

/-- An instant by its text. -/
def readInstant (v : Json) : Read Time.Instant := do
  match Time.Instant.parse? (← asText v) with
  | some t => .ok t
  | none => .error "instant expected"

/-- A span: a number of milliseconds, or seconds and nanoseconds. -/
def readSpan : Json → Read Time.Span
  | .int n => .ok (Time.Span.ofMillis n.toNat)
  | v => do return ⟨← v.natOf "secs", ← v.fieldOr "nanos" asNat 0⟩

/-- When an event happened of which nothing else is said. -/
def usualInstant : Time.Instant := ⟨⟨2024, 1, 1⟩, 0, 0⟩

/-- An event, of which only the name must be given. -/
def readEvent (v : Json) : Read Event := do
  return {
    id := ← v.fieldOr "id" readUuid (Uuid.ofNumber 1)
    name := ← v.textOf "name"
    aggregateId := ← v.textOr "aggregate_id" "agg-1"
    occurredAt := ← v.fieldOr "at" readInstant usualInstant
    payload := (v.field? "payload").getD .null
  }

/-- An interest: all events by default. -/
def readInterest : Option Json → Read Interest
  | none | some .null => .ok .all
  | some (.str "all") => .ok .all
  | some v =>
    match v.field? "name", v.field? "names", v.field? "namespace" with
    | some name, _, _ => do return .anyOf [← asText name]
    | _, some names, _ => do return .anyOf (← (← asList names).mapM asText)
    | _, _, some space => do return .within (← asText space)
    | _, _, _ => .error "interest expected"

/-! ## Contexts -/

/-- Contexts by label, and the one that belongs to all steps without a label. -/
structure Contexts where
  named : List (Label × Context)
  shared : Context
  cancellations : Cancellations

/-- The clock of deadlines, which stands still. -/
def stillClock : Moment := ⟨Time.secondNanos⟩

/-- Makes the contexts of a list one after the other. -/
def addContexts (contexts : Contexts) : List (String × Json) → Read Contexts
  | [] => .ok contexts
  | (label, v) :: rest => do
    let id ← v.fieldOr "id" readUuid (Uuid.ofNumber 0)
    let (ctx, cancellations) := contexts.cancellations.newContext id
    let ctx := match ← v.maybeAs "timeout" readSpan with
      | some span => ctx.withTimeout stillClock span
      | none => ctx
    let cancellations := if ← v.flagOf "cancelled" then cancellations.cancel ctx else cancellations
    addContexts { contexts with named := contexts.named ++ [(label, ctx)], cancellations } rest

/-- The contexts of a simulation. -/
def readContexts (v : Json) : Read Contexts := do
  let (shared, cancellations) := ({} : Cancellations).newContext (Uuid.ofNumber 0)
  addContexts { named := [], shared, cancellations } (← v.fieldOr "contexts" asFields [])

/-- The context of a step. -/
def Contexts.ofStep (c : Contexts) (v : Json) : Read Context := do
  match ← v.maybeAs "ctx" asText with
  | none => .ok c.shared
  | some label =>
    match c.named.find? (·.1 == label) with
    | some (_, ctx) => .ok ctx
    | none => .error ("unknown context " ++ label)

/-! ## Handlers -/

/-- An act of a scripted handler. -/
def readAct (v : Json) : Read Act := do
  match ← v.textOf "do" with
  | "delay" => return .delay (← v.natOf "ms")
  | "note" => return .note (← v.textOf "message")
  | "note_event" => return .noteEvent
  | "note_ctx" => return .noteContext
  | "note_count" => return .noteCount
  | "cancel" => return .cancel
  | "fail" => return .fail (.failed (← v.textOf "message"))
  | "fail_agg" => return .failFor (← v.textOf "agg") (.failed (← v.textOf "message"))
  | "custom" => return .fail (.custom (.plain (← v.textOf "message")))
  | "cancelled" => return .fail .cancelled
  | "stop_if_cancelled" => return .stopIfCancelled
  | "decode" => return .decode
  | "panic" | "panic_static" => return .panic (some (← v.textOf "message"))
  | "panic_number" => return .panic none
  | "publish" => return .publish (← readEvent (← v.need "event")) (← v.flagOf "propagate")
  | "subscribe" => return .subscribe (← v.textOf "h")
  | "unsubscribe" => return .unsubscribe (← v.textOf "h")
  | "off" => return .off ⟨← v.natOf "id"⟩
  | "clear" => return .clear
  | other => .error ("unknown act " ++ other)

/-- What a handler is called if its script says nothing about it. -/
inductive UsualName where
  /-- A name that the script may replace. -/
  | replaceable (name : String)
  /-- A name that stays. -/
  | fixed (name : String)

/-- The name of a handler type that gives none of its own: the path of the type, which lives in the
module `home`. -/
def typePath (home typeName : String) : String := home ++ "::" ++ typeName

/-- The behaviour of a handler and its usual name. The types of handlers live in the module `home`.
-/
def readBehavior (home : String) (v : Json) : Read (UsualName × Behavior) := do
  let interest ← readInterest (v.field? "interest")
  let failOn ← v.maybeAs "fail_on" asText
  match ← v.textOf "type" with
  | "mock" =>
    return (.replaceable "mock-handler", .recorder interest (← v.fieldOr "delay_ms" asNat 0))
  | "probe" => return (.fixed "concurrency-probe", .probe interest)
  | "plain" => return (.fixed (typePath home "Plain"), .plain)
  | "picky" =>
    return (.replaceable "picky", .picky (← v.textOf "message") (← v.maybeAs "only" asText))
  | "typed_order" => return (.replaceable "typed", .typed .order failOn)
  | "typed_plain" => return (.fixed (typePath home "PlainTyped"), .typed .order failOn)
  | "typed_mixed" => return (.replaceable "typed", .typed .mixed failOn)
  | "fn" =>
    let acts ← v.fieldOr "then" asList []
    return (.replaceable "fn-handler", .scripted interest (← acts.mapM readAct))
  | other => .error ("unknown handler " ++ other)

/-- A handler. -/
def readHandler (home : String) (v : Json) : Read HandlerSpec := do
  let (usual, behavior) ← readBehavior home v
  let name ← match usual with
    | .replaceable name => v.textOr "name" name
    | .fixed name => pure name
  return { name, behavior, shouldError := ← v.flagOf "should_error" }

/-! ## Steps -/

/-- A change to the store; none for a field that says nothing about it. -/
def readStoreChange (name : String) (v : Json) : Read (Option StoreChange) := do
  match name with
  | "fail_save" => return some (.failSave (← asBool v))
  | "fail_load" => return some (.failLoad (← asBool v))
  | "fail_mark" => return some (.failMark (← asBool v))
  | "save_delay" => return some (.saveDelay (← asNat v))
  | "mark_delay" => return some (.markDelay (← asNat v))
  | "custom" =>
    match v with
    | .null => return some (.custom none)
    | v => return some (.custom (some (← asText v)))
  | _ => return none

/-- The events of a step that publishes many: their identifiers count up, and `#` in the aggregate
becomes the number of the event. -/
def readEvents (v : Json) : Read (List Event) := do
  let event ← readEvent (← v.need "event")
  return (List.range (← v.natOf "n")).map fun i =>
    { event with
      id := ⟨event.id.bits + BitVec.ofNat 128 i⟩
      aggregateId := event.aggregateId.replace "#" (toString i) }

/-- A call, made in a task of its own if the step says so. -/
def callOrSpawn (v : Json) (request : Request) : Read Step := do
  if ← v.flagOf "bg" then return .spawn request else return .call request

/-- A step of a script. -/
def readStep (contexts : Contexts) (v : Json) : Read Step := do
  match ← v.textOf "do" with
  | "subscribe" => return .subscribe (← v.textOf "h")
  | "unsubscribe" => return .unsubscribe (← v.textOf "h")
  | "off" => return .off ⟨← v.natOf "id"⟩
  | "clear" => return .clear
  | "publish" =>
    callOrSpawn v (.publish (← contexts.ofStep v) (← readEvent (← v.need "event")))
  | "publish_many" => return .publishAll (← contexts.ofStep v) (← readEvents v)
  | "replay" =>
    callOrSpawn v (.replay (← contexts.ofStep v) (← v.textOf "type")
      (← readInstant (← v.need "since")))
  | "close" => callOrSpawn v (.close (← readSpan (← v.need "timeout")))
  | "join" => return .join (← v.natOf "task")
  | "settle" => return .settle
  | "sleep" => return .sleep (← v.natOf "ms")
  | "drop_bus" => return .dropBus
  | "cancel" => return .cancel (← contexts.ofStep v)
  | "handle" =>
    callOrSpawn v (.handle (← v.textOf "h") (← contexts.ofStep v)
      (← readEvent (← v.need "event")))
  | "interested" => return .interested (← v.textOf "h") (← v.textOf "name")
  | "handler_name" => return .handlerName (← v.textOf "h")
  | "set_error" => return .setError (← v.textOf "h") (← v.flagOf "value")
  | "forget" => return .forget (← v.textOf "h")
  | "release" => return .release (← v.textOf "h") (← v.natOf "n")
  | "wait_started" => return .awaitStarted (← v.textOf "h") (← v.natOf "n")
  | "inspect" => return .inspect (← v.textOf "h")
  | "store_set" =>
    let changes ← (← asFields v).mapM fun (name, w) => readStoreChange name w
    return .changeStore (changes.filterMap id)
  | "store_all" => return .storedEvents
  | "store_calls" => return .storeCalls
  | "debug" => return .busText
  | "collected" => return .collected
  | other => .error ("unknown step " ++ other)

/-! ## Setups -/

/-- The bus of a simulation, with its configuration. -/
def readBus (v : Json) : Read BusSetup := do
  let config := (v.maybe "config").getD (.obj [])
  match ← v.textOf "bus" with
  | "sync" => return .direct (← (Bus.DirectConfig.codec.decode config).mapError (·.message))
  | "async" => return .pool (← (Bus.PoolConfig.codec.decode config).mapError (·.message))
  | "noop" => return .noop
  | other => .error ("unknown bus " ++ other)

/-- Who takes the failures that no caller sees. -/
def readCallback : String → Read Callback
  | "record" => .ok .record
  | "collector" => .ok .collect
  | "panic" => .ok .recordAndPanic
  | "log" => .ok .trace
  | other => .error ("unknown callback " ++ other)

/-- What a simulation starts with. A bus that is built plainly keeps nothing, counts nothing and
writes failures to its trace. -/
def readSetup (home : String) (v : Json) (contexts : Contexts) : Read Setup := do
  let plain ← v.flagOf "plain_build"
  let keeps := !plain && (← v.textOr "store" "mock") != "noop"
  let stored ← (← v.fieldOr "stored" asList []).mapM readEvent
  let callback ← v.textOr "callback" "record"
  return {
    bus := ← readBus v
    handlers := ← (← v.fieldOr "handlers" asFields []).mapM fun (label, w) =>
      return (label, ← readHandler home w)
    store := { keeps, store := { memory := MemoryStore.ofEvents stored } }
    callback := ← readCallback (if plain then "log" else callback)
    counts := !plain && (← v.flagOf "metrics")
    cancellations := contexts.cancellations
    clock := stillClock
  }

/-- A simulation and its script; the types of its handlers live in the module `home`. -/
def readScript (home : String) (v : Json) : Read (Setup × List Step) := do
  let contexts ← readContexts v
  let setup ← readSetup home v contexts
  return (setup, ← (← v.listOf "steps").mapM (readStep contexts))

end DomainEvents.Simulation
