import DomainEvents.Codec.Mismatch
import DomainEvents.Time.Span

/-!
# Errors

What can go wrong between the publisher of an event and its handlers, said by cause. An error may
wrap the error that caused it. Its message then ends with the message of the cause, and
`AnyError.source` steps to the cause, with three exceptions: a handler's own error of another type
is told in the message only, and a payload error of a handler and a store's error of another type
stand for themselves, so that the step leads to what caused them.
-/

namespace DomainEvents

/-- Why the record of an event is malformed. -/
inductive ValidationError where
  /-- a field that must not be empty -/
  | missingField (field : String)
  /-- a field with a value that is not allowed -/
  | invalidValue (field value : String)
deriving DecidableEq, Repr

/-- Why a payload could not be written or read. -/
inductive PayloadError where
  /-- the payload has no JSON form -/
  | encode (eventName cause : String)
  /-- the payload is not of the type that the name of the event asks for -/
  | decode (eventName : String) (cause : Codec.Mismatch)
  /-- no variant has the name of the event -/
  | unknownKind (eventName : String)
deriving DecidableEq, Repr

/-- What a store was asked to do. -/
inductive StoreOperation where
  | save
  | load
  | markProcessed
deriving DecidableEq, Repr

mutual

/-- What a bus answers when it does not do what it was asked for. -/
inductive BusError where
  /-- a handler failed -/
  | handler (handler : String) (source : HandlerError)
  /-- a handler or its interest check panicked -/
  | handlerPanicked (handler message : String)
  /-- the store failed -/
  | persistence (operation : StoreOperation) (source : StoreError)
  /-- the queue has no free slot -/
  | queueFull (capacity : Nat)
  /-- the bus takes no more events -/
  | shuttingDown
  /-- the time for an operation has run out -/
  | timeout (span : Time.Span)
  /-- the event is malformed -/
  | validation (source : ValidationError)
  /-- the bus cannot be built as configured -/
  | configuration (message : String)
  /-- a replay stopped at an event that the bus refused -/
  | replay (replayed total : Nat) (source : BusError)
deriving DecidableEq, Repr

/-- What a handler answers when it fails. -/
inductive HandlerError where
  /-- a message -/
  | failed (message : String)
  /-- an error of another type -/
  | custom (inner : Cause)
  /-- the payload of the event could not be read -/
  | payload (inner : PayloadError)
  /-- the context was cancelled -/
  | cancelled
deriving DecidableEq, Repr

/-- What a store answers when it fails. -/
inductive StoreError where
  /-- a message -/
  | backend (message : String)
  /-- an error of another type -/
  | custom (inner : Cause)
deriving DecidableEq, Repr

/-- An error of another type: a text that nothing stands behind, or the error of a bus. -/
inductive Cause where
  | plain (message : String)
  | bus (error : BusError)
deriving DecidableEq, Repr

end

/-! ## Messages -/

/-- The text of a validation error. -/
def ValidationError.message : ValidationError → String
  | .missingField field => "Required field missing: " ++ field
  | .invalidValue field value => "Invalid field value: " ++ field ++ " = " ++ value

/-- The text of a payload error. -/
def PayloadError.message : PayloadError → String
  | .encode name cause => "Failed to encode payload for " ++ name ++ ": " ++ cause
  | .decode name cause => "Failed to decode payload of " ++ name ++ ": " ++ cause.message
  | .unknownKind name => "Unknown event kind: " ++ name

/-- The word for an operation. -/
def StoreOperation.text : StoreOperation → String
  | .save => "save"
  | .load => "load"
  | .markProcessed => "mark-processed"

mutual

/-- The text of a bus error. -/
def BusError.message : BusError → String
  | .handler name source => "Handler " ++ name ++ " failed: " ++ source.message
  | .handlerPanicked name message => "Handler " ++ name ++ " panicked: " ++ message
  | .persistence operation source =>
    "Event store " ++ operation.text ++ " failed: " ++ source.message
  | .queueFull capacity => "Event queue is full (capacity " ++ toString capacity ++ ")"
  | .shuttingDown => "Bus is shutting down"
  | .timeout span => "Operation timed out after " ++ span.text
  | .validation source => "Event validation failed: " ++ source.message
  | .configuration message => "Configuration error: " ++ message
  | .replay replayed total source =>
    "Replay stopped after " ++ toString replayed ++ " of " ++ toString total ++ " events: "
      ++ source.message

/-- The text of a handler error. -/
def HandlerError.message : HandlerError → String
  | .failed message => message
  | .custom inner => "Handler failed with custom error: " ++ inner.message
  | .payload inner => inner.message
  | .cancelled => "Handler execution cancelled"

/-- The text of a store error. -/
def StoreError.message : StoreError → String
  | .backend message => "Backend error: " ++ message
  | .custom inner => inner.message

/-- The text of an error of another type. -/
def Cause.message : Cause → String
  | .plain message => message
  | .bus error => error.message

end

/-! ## Labels

An error is told apart by a label: the word for what went wrong, and after a slash the label of the
error inside. -/

/-- The label of a validation error. -/
def ValidationError.label : ValidationError → String
  | .missingField _ => "MissingField"
  | .invalidValue _ _ => "InvalidValue"

/-- The label of a payload error. -/
def PayloadError.label : PayloadError → String
  | .encode _ _ => "Encode"
  | .decode _ _ => "Decode"
  | .unknownKind _ => "UnknownKind"

/-- The label of a handler error. -/
def HandlerError.label : HandlerError → String
  | .failed _ => "Failed"
  | .custom _ => "Custom"
  | .payload inner => "Payload/" ++ inner.label
  | .cancelled => "Cancelled"

/-- The label of a store error. -/
def StoreError.label : StoreError → String
  | .backend _ => "Backend"
  | .custom _ => "Custom"

/-- The label of a bus error. -/
def BusError.label : BusError → String
  | .handler _ source => "Handler/" ++ source.label
  | .handlerPanicked _ _ => "HandlerPanicked"
  | .persistence operation source => "Persistence/" ++ operation.text ++ "/" ++ source.label
  | .queueFull _ => "QueueFull"
  | .shuttingDown => "ShuttingDown"
  | .timeout _ => "Timeout"
  | .validation source => "Validation/" ++ source.label
  | .configuration _ => "ConfigurationError"
  | .replay _ _ source => "Replay/" ++ source.label

/-! ## Causes -/

/-- An error of any of the types that a chain of causes passes through. -/
inductive AnyError where
  | bus (error : BusError)
  | handler (error : HandlerError)
  | store (error : StoreError)
  | validation (error : ValidationError)
  | plain (message : String)
deriving DecidableEq, Repr

/-- The text of an error of any type. -/
def AnyError.message : AnyError → String
  | .bus error => error.message
  | .handler error => error.message
  | .store error => error.message
  | .validation error => error.message
  | .plain message => message

/-- What caused a payload error. -/
def PayloadError.source : PayloadError → Option AnyError
  | .encode _ cause => some (.plain cause)
  | .decode _ cause => some (.plain cause.message)
  | .unknownKind _ => none

/-- What caused a bus error. -/
def BusError.source : BusError → Option AnyError
  | .handler _ source => some (.handler source)
  | .persistence _ source => some (.store source)
  | .validation source => some (.validation source)
  | .replay _ _ source => some (.bus source)
  | _ => none

/-- What caused an error of another type. -/
def Cause.source : Cause → Option AnyError
  | .plain _ => none
  | .bus error => error.source

/-- What caused a handler error: nothing, unless it is a payload error, which stands for itself. -/
def HandlerError.source : HandlerError → Option AnyError
  | .payload inner => inner.source
  | _ => none

/-- What caused a store error: nothing, unless it is an error of another type, which stands for
itself. -/
def StoreError.source : StoreError → Option AnyError
  | .backend _ => none
  | .custom inner => inner.source

/-- What caused an error. -/
def AnyError.source : AnyError → Option AnyError
  | .bus error => error.source
  | .handler error => error.source
  | .store error => error.source
  | .validation _ => none
  | .plain _ => none

/-! ## Chains of causes

Every step to a cause goes to a smaller error, so the chain ends. -/

mutual

/-- How many errors a bus error is made of. -/
def BusError.size : BusError → Nat
  | .handler _ source => source.size + 1
  | .persistence _ source => source.size + 1
  | .validation _ => 2
  | .replay _ _ source => source.size + 1
  | _ => 1

/-- How many errors a handler error is made of. -/
def HandlerError.size : HandlerError → Nat
  | .custom inner => inner.size + 1
  | .payload _ => 2
  | _ => 1

/-- How many errors a store error is made of. -/
def StoreError.size : StoreError → Nat
  | .custom inner => inner.size + 1
  | _ => 1

/-- How many errors an error of another type is made of. -/
def Cause.size : Cause → Nat
  | .plain _ => 1
  | .bus error => error.size + 1

end

/-- How many errors an error is made of. -/
def AnyError.size : AnyError → Nat
  | .bus error => error.size
  | .handler error => error.size
  | .store error => error.size
  | .validation _ => 1
  | .plain _ => 1

theorem BusError.size_source {e : BusError} {s : AnyError} (h : e.source = some s) :
    s.size < e.size := by
  cases e <;> simp_all [source] <;> subst h <;> simp [AnyError.size, size]

theorem PayloadError.size_source {e : PayloadError} {s : AnyError} (h : e.source = some s) :
    s.size = 1 := by
  cases e <;> simp_all [source] <;> subst h <;> rfl

theorem HandlerError.size_source {e : HandlerError} {s : AnyError} (h : e.source = some s) :
    s.size < e.size := by
  cases e <;> simp_all [source]
  simp [PayloadError.size_source h, size]

theorem StoreError.size_source {e : StoreError} {s : AnyError} (h : e.source = some s) :
    s.size < e.size := by
  cases e with
  | backend => simp [source] at h
  | custom inner =>
    cases inner with
    | plain => simp [source, Cause.source] at h
    | bus e =>
      have := BusError.size_source (e := e) h
      simp only [size, Cause.size]
      omega

theorem AnyError.size_source {e s : AnyError} (h : e.source = some s) : s.size < e.size := by
  cases e with
  | bus e => exact BusError.size_source h
  | handler e => exact HandlerError.size_source h
  | store e => exact StoreError.size_source h
  | validation => simp [source] at h
  | plain => simp [source] at h

/-- The causes of an error, the nearest first. -/
def AnyError.causes (e : AnyError) : List AnyError :=
  match _h : e.source with
  | none => []
  | some s => s :: s.causes
termination_by e.size
decreasing_by exact size_source _h

/-- The handler error inside a bus error. -/
def BusError.handlerError? : BusError → Option HandlerError
  | .handler _ source => some source
  | _ => none

/-- Whether the bus had no room for the event. -/
def BusError.isQueueFull : BusError → Bool
  | .queueFull _ => true
  | _ => false

end DomainEvents
