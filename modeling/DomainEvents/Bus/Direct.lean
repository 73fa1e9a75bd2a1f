import DomainEvents.Bus.Delivery

/-!
# Buses without a queue

The bus that delivers an event while its publisher waits, as a state that changes by single steps. A
call of publish waits for one handler after the other. Meanwhile the handler, or anybody else, may
change the subscriptions, and may publish events in turn: such a call goes on by itself, and the one
that waits knows nothing of it.

`Direct.step` is the only way in which the bus changes. It fails where an action is not possible,
and tells in `DirectNotice`s what has happened.
-/

namespace DomainEvents.Bus

/-- A call of publish that has no answer yet. -/
structure DirectCall (H : Type) where
  dispatch : Dispatch
  delivery : Delivery H
deriving Repr

/-- The state of a bus without a queue, whose handlers are of type `H`. -/
structure Direct (H : Type) where
  config : DirectConfig
  registry : Registry H := {}
  /-- the calls of publish that go on -/
  calls : List (DirectCall H) := []
  /-- the number of the next call -/
  tickets : Nat := 0
deriving Repr

/-- Something that happens to a bus without a queue. -/
inductive DirectAction (H : Type) where
  /-- an event is published -/
  | publish (ctx : Context) (event : Event)
  /-- the handler that a call waits for has told whether it is interested -/
  | asked (ticket : Nat) (interested : Bool)
  /-- the handler that a call waits for has come to its end -/
  | handled (ticket : Nat) (result : Except HandlerError Unit)
  /-- a call ends without an answer: its caller has gone away, or the handler has panicked -/
  | forsake (ticket : Nat)
  | subscribe (id : SubscriptionId) (handler : H)
  | unsubscribe (handler : H)
  | off (id : SubscriptionId)
  | clear

/-- What a bus without a queue gives notice of. -/
inductive DirectNotice (H : Type) where
  /-- a handler is asked for its interest -/
  | asking (d : Dispatch) (entry : Subscription H)
  /-- it has told whether it is interested -/
  | asked (d : Dispatch) (entry : Subscription H) (interested : Bool)
  /-- a handler is called -/
  | calling (d : Dispatch) (entry : Subscription H)
  /-- it has come to its end -/
  | called (d : Dispatch) (entry : Subscription H) (result : Except HandlerError Unit)
  /-- a delivery has come to its end -/
  | delivered (d : Dispatch) (delivery : Delivery H)
  /-- a call of publish has its answer -/
  | answered (d : Dispatch) (result : Except BusError Unit)
deriving Repr

/-- What there is to tell of a delivery that has come to this. -/
def Delivery.notices {H : Type} (name : H → String) (d : Dispatch) (delivery : Delivery H) :
    List (DirectNotice H) :=
  match delivery, delivery.result? name with
  | .asking entry _ _, _ => [.asking d entry]
  | .handling entry _ _, _ => [.calling d entry]
  | ended, result => .delivered d ended :: result.toList.map (.answered d)

namespace Direct

variable {H : Type}

/-- A new bus. -/
def new (config : DirectConfig) : Direct H := { config }

/-- A call by its number, if it has no answer yet. -/
def call? (b : Direct H) (ticket : Nat) : Option (DirectCall H) :=
  b.calls.find? (·.dispatch.ticket == ticket)

/-- Takes a call out of those that go on. -/
def remove (b : Direct H) (ticket : Nat) : Direct H :=
  { b with calls := b.calls.filter (·.dispatch.ticket != ticket) }

/-- The delivery of a call has come to this. The call has its answer if that is the end. -/
def proceed (name : H → String) (b : Direct H) (d : Dispatch) (delivery : Delivery H) :
    Direct H × List (DirectNotice H) :=
  let others := b.remove d.ticket
  (match delivery.result? name with
    | some _ => others
    | none => { others with calls := ⟨d, delivery⟩ :: others.calls },
    delivery.notices name d)

/-- A call of publish comes in. -/
def publish (name : H → String) (b : Direct H) (ctx : Context) (event : Event) :
    Direct H × List (DirectNotice H) :=
  let d : Dispatch := ⟨b.tickets, ctx, event⟩
  let b := { b with tickets := b.tickets + 1 }
  match Delivery.start b.config b.registry.entries event with
  | .error invalid => (b, [.answered d (.error (.validation invalid))])
  | .ok delivery => b.proceed name d delivery

/-- The bus after something has happened to it, and what there is to tell of it; handlers are known
by name. -/
def step [DecidableEq H] (name : H → String) (b : Direct H) :
    DirectAction H → Option (Direct H × List (DirectNotice H))
  | .publish ctx event => some (b.publish name ctx event)
  | .asked ticket interested =>
    match b.call? ticket with
    | some ⟨d, .asking entry rest delivered⟩ =>
      let next := (Delivery.asking entry rest delivered).asked interested
      let (b, notices) := b.proceed name d next
      some (b, .asked d entry interested :: notices)
    | _ => none
  | .handled ticket result =>
    match b.call? ticket with
    | some ⟨d, .handling entry rest delivered⟩ =>
      let next := (Delivery.handling entry rest delivered).handled result
      let (b, notices) := b.proceed name d next
      some (b, .called d entry result :: notices)
    | _ => none
  | .forsake ticket => (b.call? ticket).map fun _ => (b.remove ticket, [])
  | .subscribe id handler => some ({ b with registry := b.registry.subscribe id handler }, [])
  | .unsubscribe handler => some ({ b with registry := b.registry.unsubscribe handler }, [])
  | .off id => some ({ b with registry := b.registry.off id }, [])
  | .clear => some ({ b with registry := b.registry.clear }, [])

end Direct

end DomainEvents.Bus
