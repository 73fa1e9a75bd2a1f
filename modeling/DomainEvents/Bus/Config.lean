import DomainEvents.Codec.Record
import DomainEvents.Error

/-!
# Configurations of buses

How a bus is set up. A configuration is read from a record in which every field has a default. The
bus with workers needs room in its queue and a worker at least, and has no more of either than can
be counted.
-/

namespace DomainEvents.Bus

/-- The configuration of a bus that calls its handlers at once. -/
structure DirectConfig where
  /-- whether malformed events are refused -/
  validateEvents : Bool := true
deriving DecidableEq, Repr

/-- The configuration of a bus with a queue and workers. -/
structure PoolConfig where
  /-- how many events may wait -/
  queueSize : Nat := 1024
  /-- how many events are worked on at the same time -/
  workerCount : Nat := 16
  /-- whether malformed events are refused -/
  validateEvents : Bool := true
deriving DecidableEq, Repr

namespace DirectConfig

/-- Direct configurations as records. -/
def codec : Codec DirectConfig :=
  let preset : DirectConfig := {}
  Codec.record "EventBusConfig"
    (.field "validate_events" Codec.boolean (.default preset.validateEvents) .none)
    (fun (validateEvents, ()) => { validateEvents }) (fun c => (c.validateEvents, ()))

end DirectConfig

namespace PoolConfig

/-- Pool configurations as records. -/
def codec : Codec PoolConfig :=
  let preset : PoolConfig := {}
  Codec.record "AsyncEventBusConfig"
    (.field "queue_size" Codec.usize (.default preset.queueSize) <|
      .field "worker_count" Codec.usize (.default preset.workerCount) <|
      .field "validate_events" Codec.boolean (.default preset.validateEvents) .none)
    (fun (queueSize, workerCount, validateEvents, ()) =>
      { queueSize, workerCount, validateEvents })
    (fun c => (c.queueSize, c.workerCount, c.validateEvents, ()))

/-- Accepts a configuration with room in the queue and at least one worker. -/
def validate (c : PoolConfig) : Except BusError Unit :=
  if c.queueSize = 0 then .error (.configuration "queue_size must be greater than 0")
  else if c.workerCount = 0 then .error (.configuration "worker_count must be greater than 0")
  else .ok ()

/-- A change to a configuration that is being put together. -/
inductive Setting where
  | queueSize (n : Nat)
  | workerCount (n : Nat)
  | validation (on : Bool)
  /-- replaces all of it -/
  | all (config : PoolConfig)
deriving DecidableEq, Repr

/-- The configuration after a change. -/
def apply (c : PoolConfig) : Setting → PoolConfig
  | .queueSize n => { c with queueSize := n }
  | .workerCount n => { c with workerCount := n }
  | .validation on => { c with validateEvents := on }
  | .all config => config

/-- The configuration after changes to the preset one, in order. -/
def ofSettings (settings : List Setting) : PoolConfig :=
  settings.foldl apply {}

/-- The most slots or permits that can be counted. -/
def maxPermits : Nat := Nat.pow 2 61 - 1

/-- How building a bus can end. -/
inductive BuildOutcome where
  /-- with a bus of a configuration -/
  | built (config : PoolConfig)
  /-- with an error -/
  | refused (error : BusError)
  /-- with a panic, as there are more slots or permits than can be counted -/
  | panicked
deriving DecidableEq, Repr

/-- Builds a bus. The sizes are looked at first, then whether there is a runtime to spawn tasks in.
-/
def build (c : PoolConfig) (inRuntime : Bool) : BuildOutcome :=
  match c.validate with
  | .error e => .refused e
  | .ok () =>
    if !inRuntime then
      .refused (.configuration "AsyncEventBus must be built inside a Tokio runtime")
    else if maxPermits < c.workerCount ∨ maxPermits < c.queueSize then .panicked
    else .built c

/-- The text of a configuration, for readers of a log. -/
def text (c : PoolConfig) : String :=
  "AsyncEventBusConfig \x7b queue_size: " ++ toString c.queueSize ++ ", worker_count: "
    ++ toString c.workerCount ++ ", validate_events: "
    ++ (if c.validateEvents then "true" else "false") ++ " \x7d"

end PoolConfig

end DomainEvents.Bus
