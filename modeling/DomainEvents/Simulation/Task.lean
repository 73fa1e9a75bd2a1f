import DomainEvents.Kind.Typed
import DomainEvents.Simulation.World

/-!
# Running tasks

How a task goes on by one step: its innermost frame has its turn, gets an answer, or is left by a
panic. Between two steps of a task nothing else happens until it waits.
-/

namespace DomainEvents.Simulation

open Bus (TraceLine)

/-- What becomes of a task in a step. -/
inductive Turn where
  /-- it goes on -/
  | go (frames : List Frame) (mode : Mode)
  /-- it waits, and then its innermost frame has its turn -/
  | wait (frames : List Frame) (cue : Cue) (alarm : Option Alarm)
  /-- it has come to its end -/
  | done (answer : Answer)

namespace World

/-- The step in which a frame gives its answer. -/
def give (w : World) (answer : Answer) (rest : List Frame) : World × Turn :=
  (w, .go rest (.back answer))

/-- Waits some milliseconds before the given frames go on; not at all for none. -/
def pause (w : World) (millis : Nat) (frames : List Frame) : World × Turn :=
  if millis = 0 then (w, .go frames .run)
  else
    let (w, alarm) := w.setAlarm millis
    (w, .wait frames .nothing (some alarm))

/-! ## Store -/

/-- Saves an event in the store, once its delay has passed. -/
def save (w : World) (event : Event) : World × Except StoreError Unit :=
  if !w.store.keeps then (w, EmptyStore.save {} event)
  else
    match w.store.custom with
    | some message => (w, .error (.custom (.plain message)))
    | none =>
      let (store, result) := w.store.store.save event
      ({ w with store := { w.store with store } }, result)

/-- Loads events from the store. -/
def load (w : World) (name : String) (since : Time.Instant) :
    World × Except StoreError (List Event) :=
  if !w.store.keeps then (w, EmptyStore.eventsSince {} name since)
  else
    match w.store.custom with
    | some message => (w, .error (.custom (.plain message)))
    | none =>
      let (store, result) := w.store.store.load name since
      ({ w with store := { w.store with store } }, result)

/-- Marks an event in the store, once its delay has passed. -/
def markProcessed (w : World) (id : Uuid) : World × Except StoreError Unit :=
  if !w.store.keeps then (w, EmptyStore.markProcessed {} id)
  else
    match w.store.custom with
    | some message => (w, .error (.custom (.plain message)))
    | none =>
      let (store, result) := w.store.store.markProcessed id w.store.now
      ({ w with store := { w.store with store } }, result)

/-! ## Calls -/

/-- The answer to a call among the notices of a pool. -/
def answerIn (notices : List (Bus.Notice Label)) : Option (Except BusError Unit) :=
  notices.findSome? fun n =>
    match n with
    | .answered _ result | .closeAnswered _ result => some result
    | _ => none

/-- The answer to a call among the notices of a bus without a queue. -/
def answerAmong (notices : List (Bus.DirectNotice Label)) : Option (Except BusError Unit) :=
  notices.findSome? fun n =>
    match n with
    | .answered _ result => some result
    | _ => none

/-- Lets something happen by which a call of publish on a bus without a queue goes on: it has its
answer, or waits for a handler. -/
def deliverOn (w : World) (ticket : Nat) (action : Bus.DirectAction Label) (rest : List Frame) :
    World × Turn :=
  let (w, notices) := w.actDirect action
  match answerAmong notices with
  | some result => w.give (.outcome result) rest
  | none => (w, .go (.delivering ticket :: rest) .run)

/-- Publishes an event on the bus. -/
def publish (w : World) (ctx : Context) (event : Event) (rest : List Frame) : World × Turn :=
  match w.bus with
  | .noop => w.give (.outcome (.ok ())) rest
  | .direct bus => w.deliverOn bus.tickets (.publish ctx event) rest
  | .pool broker =>
    let (w, notices) := w.act (.publish ctx event)
    match answerIn notices with
    | some result => w.give (.outcome result) rest
    | none => (w, .go (.saving event false :: .saved broker.pool.tickets :: rest) .run)

/-- The answer to a call of replay among the deeds of a bus. -/
def replayedIn (deeds : List (Bus.Deed Label)) : Option (Except BusError Nat) :=
  deeds.findSome? fun d =>
    match d with
    | .replayed _ result => some result
    | _ => none

/-- Lets something happen by which a replay goes on: it has its answer, or an event to be saved. -/
def replay (w : World) (action : Bus.BrokerAction Label) (rest : List Frame) : World × Turn :=
  let (w, deeds) := w.perform action
  match replayedIn deeds, deeds.findSome? Bus.Deed.saving? with
  | some result, _ => w.give (.replayed result) rest
  | none, some d => (w, .go (.saving d.event false :: .replaying d.ticket :: rest) .run)
  | none, none => w.give .nothing rest

/-- The milliseconds until a close gives up. One that is too far off to be told is thirty years
away. -/
def closeMillis (timeout : Time.Span) : Nat :=
  if Nat.pow 2 63 ≤ timeout.seconds then 30 * 365 * 86400 * 1000 else timeout.toMillis

/-- Closes the bus. -/
def close (w : World) (timeout : Time.Span) (rest : List Frame) : World × Turn :=
  match w.bus with
  | .pool broker =>
    let (w, _) := w.act (.close timeout)
    (w, .go (.closing broker.pool.tickets none (w.now + closeMillis timeout) :: rest) .run)
  | _ => w.give (.outcome (.ok ())) rest

/-! ## Handlers -/

/-- A handler for the events of a kind, which notes what they say. -/
def typedHandler (w : World) (label : Label) (name : String) (kind : Kind)
    (failOn : Option String) : EventHandler (World × Except HandlerError Unit) :=
  let inner : KindHandler kind (World × Except HandlerError Unit) :=
    { name
      handle := fun _ event value =>
        let variant := value.variant.ident
        let w := w.addNote label (.typed event variant value.encode)
        if failOn == some variant then (w, .error (.failed (variant ++ " refused")))
        else (w, .ok ()) }
  inner.typed fun error => (w, .error error)

/-- Whether a handler is interested in events of a name, or its panic. -/
def askInterest (w : World) (label : Label) (name : String) : Except Panic Bool :=
  match w.actor? label with
  | none => .ok false
  | some a =>
    match a.spec.behavior with
    | .recorder interest _ | .probe interest | .scripted interest _ => .ok (interest.covers name)
    | .plain => .ok true
    | .picky message only =>
      if only.all (· == name) then .error (some message) else .ok false
    | .typed topic failOn =>
      .ok ((w.typedHandler label a.spec.name topic.kind failOn).interestedIn name)

/-- The end of a call of a recorder. -/
def recordEnd (w : World) (label : Label) (event : Event) (rest : List Frame) : World × Turn :=
  match w.actor? label with
  | none => w.give (.handled (.ok ())) rest
  | some a =>
    let w := w.setActor label { a with received := a.received ++ [event] }
    let result : Except HandlerError Unit :=
      if a.shouldError then .error (.failed (a.spec.name ++ " rejected " ++ event.name)) else .ok ()
    w.give (.handled result) rest

/-- Calls a handler. -/
def handle (w : World) (label : Label) (ctx : Context) (event : Event) (rest : List Frame) :
    World × Turn :=
  match w.actor? label with
  | none => w.give (.handled (.ok ())) rest
  | some a =>
    match a.spec.behavior with
    | .recorder _ delay =>
      let w := w.setActor label { a with spy := a.spy.record "handle_event" [event.id.text] }
      w.pause delay (.recording label event :: rest)
    | .probe _ =>
      let w := w.setActor label { a with probe := a.probe.call }
      (w, .go (.holding label a.probe.arrived :: rest) .run)
    | .plain => (w.addNote label (.handling event)).give (.handled (.ok ())) rest
    | .picky _ _ => w.give (.handled (.ok ())) rest
    | .typed topic failOn =>
      let (w, result) := (w.typedHandler label a.spec.name topic.kind failOn).handle ctx event
      w.give (.handled result) rest
    | .scripted _ acts =>
      (w.addNote label (.handling event), .go (.acting ⟨label, ctx, event, acts⟩ :: rest) .run)

/-! ## Subscriptions -/

/-- Subscribes a handler. The bus that does nothing gives out a number too. -/
def subscribe (w : World) (label : Label) : World × Answer :=
  let (id, ids) := w.ids.next
  let w := { w with ids }
  let traced (w : World) : World := w.addTrace (.subscribed (w.nameOf label) id)
  match w.bus with
  | .noop => (w, .subscribed id)
  | .direct _ => (traced (w.actDirect (.subscribe id label)).1, .subscribed id)
  | .pool _ => (traced (w.act (.subscribe id label)).1, .subscribed id)

/-- Removes the first subscription of a handler. -/
def unsubscribe (w : World) (label : Label) : World × Answer :=
  let removed := w.registry.hasHandler label
  let traced (w : World) : World := w.addTrace (.unsubscribed (w.nameOf label) removed)
  match w.bus with
  | .noop => (w, .flag false)
  | .direct _ => (traced (w.actDirect (.unsubscribe label)).1, .flag removed)
  | .pool _ => (traced (w.act (.unsubscribe label)).1, .flag removed)

/-- Removes a subscription by its number. -/
def off (w : World) (id : SubscriptionId) : World × Answer :=
  let removed := w.registry.hasId id
  match w.bus with
  | .noop => (w, .flag false)
  | .direct _ => ((w.actDirect (.off id)).1, .flag removed)
  | .pool _ => ((w.act (.off id)).1, .flag removed)

/-- Removes all subscriptions. -/
def clear (w : World) : World × Answer :=
  ((w.actDirect .clear).1, .nothing)

/-! ## Scripted handlers -/

/-- Notes what was done to the subscriptions, and goes on. -/
def did (label : Label) (word : String) (result : World × Answer) (frames : List Frame) :
    World × Turn :=
  (result.1.addNote label (.did word result.2), .go frames .run)

/-- Does an act of a scripted handler; `role` is what it does after that. -/
def actOut (w : World) (act : Act) (role : Role) (rest : List Frame) : World × Turn :=
  let frames := .acting role :: rest
  let noted (note : Note) : World × Turn := (w.addNote role.handler note, .go frames .run)
  let fail (error : HandlerError) : World × Turn := w.give (.handled (.error error)) rest
  match act with
  | .delay millis => w.pause millis frames
  | .note message => noted (.message message)
  | .noteEvent => noted (.event role.event)
  | .noteContext =>
    noted (.context role.ctx.correlationId (role.ctx.isCancelled w.cancellations w.clock))
  | .noteCount => noted (.handlers w.registry.size)
  | .cancel => ({ w with cancellations := w.cancellations.cancel role.ctx }, .go frames .run)
  | .fail error => fail error
  | .failFor aggregateId error =>
    if role.event.aggregateId = aggregateId then fail error else (w, .go frames .run)
  | .stopIfCancelled =>
    if role.ctx.isCancelled w.cancellations w.clock then fail .cancelled else (w, .go frames .run)
  | .decode =>
    match Catalog.order.decode role.event with
    | .ok value => noted (.kind value.variant.ident value.encode)
    | .error e => fail (.payload e)
  | .panic message => (w, .go rest (.unwind message))
  | .publish other propagate =>
    if w.holders = 0 then noted .noBus
    else w.hold.publish role.ctx other (.publishedBy role other.name propagate :: rest)
  | .subscribe other => did role.handler "subscribe" (w.subscribe other) frames
  | .unsubscribe other => did role.handler "unsubscribe" (w.unsubscribe other) frames
  | .off id => did role.handler "off" (w.off id) frames
  | .clear => did role.handler "clear" w.clear frames

/-! ## Failures that no caller sees -/

/-- Hands a failure to the callback; tells whether that returns or panics. -/
def callBack (w : World) (failure : Bus.DispatchFailure) : World × Bus.Outcome Unit :=
  match w.callback with
  | .record => ({ w with failures := w.failures ++ [failure] }, .returned ())
  | .recordAndPanic =>
    ({ w with failures := w.failures ++ [failure] }, .panicked "callback failed")
  | .collect => ({ w with collected := w.collected ++ [failure.error.message] }, .returned ())
  | .trace => (w.addTrace (.failure failure), .returned ())

/-! ## Frames -/

/-- What a panic without words is called. -/
def panicText (panic : Panic) : String := panic.getD "non-string panic payload"

/-- A worker hears something and goes on. -/
def hear (w : World) (ticket : Nat) (reply : Bus.Reply) (rest : List Frame) : World × Turn :=
  ((w.act (.reply ticket reply)).1, .go (.working ticket :: rest) .run)

/-- A worker goes on: what it waits for is done. -/
def work (w : World) (ticket : Nat) (rest : List Frame) : World × Turn :=
  let worker := match w.bus with
    | .pool broker => broker.pool.worker? ticket
    | _ => none
  match worker with
  | none => w.give .nothing rest
  | some ⟨d, phase⟩ =>
    match phase with
    | .spawned => ((w.act (.start ticket)).1, .go (.working ticket :: rest) .run)
    | .naming entry _ => w.hear ticket (.named (.returned (w.nameOf entry.handler))) rest
    | .asking _ entry _ =>
      let outcome : Bus.Outcome Bool := match w.askInterest entry.handler d.event.name with
        | .ok interested => .returned interested
        | .error panic => .panicked (panicText panic)
      w.hear ticket (.asked outcome) rest
    | .handling _ entry _ => w.handle entry.handler d.ctx d.event (.working ticket :: rest)
    | .reporting failure _ | .reportingMark failure =>
      let (w, outcome) := w.callBack (.of d.event failure)
      w.hear ticket (.reported outcome) rest
    | .marking => (w, .go (.marking d.event.id false :: .working ticket :: rest) .run)

/-- The dispatcher goes on until it has to wait. -/
def dispatch (w : World) (rest : List Frame) : World × Turn :=
  match w.bus with
  | .pool broker =>
    if broker.pool.dispatch.isSome then ((w.act .dispatch).1, .go (.dispatching :: rest) .run)
    else if broker.pool.stage == .stopped then w.give .nothing rest
    else (w, .wait (.dispatching :: rest) .dispatch none)
  | _ => w.give .nothing rest

/-- A call of publish on a bus without a queue ends without an answer. -/
def forsake (w : World) (ticket : Nat) (panic : Panic) (rest : List Frame) : World × Turn :=
  ((w.actDirect (.forsake ticket)).1, .go rest (.unwind panic))

/-- A call of publish on a bus without a queue goes on: the handler that it waits for has its turn.
-/
def deliver (w : World) (ticket : Nat) (rest : List Frame) : World × Turn :=
  let call := match w.bus with
    | .direct bus => bus.call? ticket
    | _ => none
  match call with
  | some ⟨d, .asking entry _ _⟩ =>
    match w.askInterest entry.handler d.event.name with
    | .ok interested => w.deliverOn ticket (.asked ticket interested) rest
    | .error panic => w.forsake ticket panic rest
  | some ⟨d, .handling entry _ _⟩ =>
    w.handle entry.handler d.ctx d.event (.delivering ticket :: rest)
  | _ => w.give .nothing rest

/-- A close looks at the dispatcher, and waits if its time has not run out. -/
def awaitStop (w : World) (ticket : Nat) (alarm : Option Alarm) (due : Nat) (rest : List Frame) :
    World × Turn :=
  match w.bus with
  | .pool broker =>
    let finish (action : Bus.Action Label) : World × Turn :=
      let (w, notices) := w.act action
      w.give (.outcome ((answerIn notices).getD (.ok ()))) rest
    if broker.pool.canJoin ticket then finish (.join ticket)
    else if due ≤ w.now then finish (.expire ticket)
    else
      let (w, alarm) := match alarm with
        | some alarm => (w, alarm)
        | none => w.setAlarm (due - w.now)
      (w, .wait (.closing ticket (some alarm) due :: rest) (.join ticket) (some alarm))
  | _ => w.give .nothing rest

/-- The innermost frame has its turn. -/
def run (w : World) (frame : Frame) (rest : List Frame) : World × Turn :=
  match frame with
  | .request (.publish ctx event) => w.publish ctx event rest
  | .request (.replay ctx name since) =>
    let (w, deeds) := w.perform (.replay ctx name since)
    let (w, loaded) := w.load name since
    match deeds.findSome? Bus.Deed.loading? with
    | some call => w.replay (.loaded call.number loaded) rest
    | none => w.give .nothing rest
  | .request (.close timeout) => w.close timeout rest
  | .request (.handle label ctx event) => w.handle label ctx event rest
  | .publishing _ [] answers => w.give (.list answers.reverse) rest
  | .publishing ctx (event :: more) answers =>
    w.publish ctx event (.publishing ctx more answers :: rest)
  | .saving event waited =>
    if waited then
      let (w, result) := w.save event
      w.give (.stored result) rest
    else w.pause (if w.store.keeps then w.store.saveDelay else 0) (.saving event true :: rest)
  | .marking id waited =>
    if waited then
      let (w, result) := w.markProcessed id
      w.give (.stored result) rest
    else w.pause (if w.store.keeps then w.store.markDelay else 0) (.marking id true :: rest)
  | .closing ticket alarm due => w.awaitStop ticket alarm due rest
  | .working ticket => w.work ticket rest
  | .dispatching => w.dispatch rest
  | .delivering ticket => w.deliver ticket rest
  | .recording label event => w.recordEnd label event rest
  | .holding label call =>
    match w.actor? label with
    | none => w.give .nothing rest
    | some a =>
      match a.probe.leave? call with
      | some probe => (w.setActor label { a with probe }).give (.handled (.ok ())) rest
      | none => (w, .wait (.holding label call :: rest) (.admitted label call) none)
  | .acting role =>
    match role.acts with
    | [] => w.give (.handled (.ok ())) rest
    | act :: acts => w.actOut act { role with acts } rest
  | .awaiting task =>
    match w.endedTasks.find? (·.1 == task) with
    | some (_, answer) => w.give answer rest
    | none => (w, .wait (.awaiting task :: rest) (.ended task) none)
  | .awaitingStarted label count =>
    if w.hasCome (.started label count) then w.give .started rest
    else (w, .wait (.awaitingStarted label count :: rest) (.started label count) none)
  | .sleeping 0 => w.give .nothing rest
  | .sleeping millis => w.pause millis (.sleeping 0 :: rest)
  | .saved _ | .replaying _ | .publishedBy _ _ _ => w.give .nothing rest

/-- The innermost frame gets an answer. -/
def back (w : World) (frame : Frame) (answer : Answer) (rest : List Frame) : World × Turn :=
  match frame, answer with
  | .publishing ctx more answers, answer =>
    (w, .go (.publishing ctx more (answer :: answers) :: rest) .run)
  | .saved ticket, .stored result =>
    let (w, notices) := w.act (.saved ticket result)
    w.give (.outcome ((answerIn notices).getD (.ok ()))) rest
  | .replaying ticket, .stored result => w.replay (.pool (.saved ticket result)) rest
  | .working ticket, .handled result => w.hear ticket (.handled (.returned result)) rest
  | .working ticket, .stored result => w.hear ticket (.marked (.returned result)) rest
  | .delivering ticket, .handled result => w.deliverOn ticket (.handled ticket result) rest
  | .publishedBy role name propagate, .outcome result =>
    let w := w.letGo
    match result, propagate with
    | .error e, true => w.give (.handled (.error (.custom (.bus e)))) rest
    | result, _ =>
      (w.addNote role.handler (.published name result), .go (.acting role :: rest) .run)
  | _, answer => w.give answer rest

/-- A panic leaves the innermost frame. Only a worker takes it, as the panic of its handler; a call
of publish on a bus without a queue ends with it. -/
def unwind (w : World) (frame : Frame) (panic : Panic) (rest : List Frame) : World × Turn :=
  match frame with
  | .working ticket => w.hear ticket (.handled (.panicked (panicText panic))) rest
  | .delivering ticket => w.forsake ticket panic rest
  | .publishedBy _ _ _ => (w.letGo, .go rest (.unwind panic))
  | _ => (w, .go rest (.unwind panic))

/-- A task goes on by one step. -/
def step (w : World) (frames : List Frame) (mode : Mode) : World × Turn :=
  match frames, mode with
  | [], .back answer => (w, .done answer)
  | [], .unwind panic => (w, .done (.panicked panic))
  | [], .run => (w, .done .nothing)
  | frame :: rest, .run => w.run frame rest
  | frame :: rest, .back answer => w.back frame answer rest
  | frame :: rest, .unwind panic => w.unwind frame panic rest

end World

end DomainEvents.Simulation
