import DomainEvents.Catalog.Order
import DomainEvents.Kind.Typed
import DomainEvents.Proofs.Bus.Agreement
import DomainEvents.Proofs.Kind.Coding

/-!
# Typed handlers on both buses

A typed handler tests names to say whether it is interested, and reads events by a look-up of their
names. Both go by the names of its kind, so an event that a bus hands to it is never of an unknown
kind. `Attends` says how such a handler fares among others that do what they like: in each of its
turns the handler inside is run with the event, the context of its publisher and the value that the
event says, or it is not run, since the kind does not have the name or the payload cannot be read
(`Kind.Serves`). It follows from the calls of its turns alone (`Attends.of_turns`), so it is the
same for a worker and for a delivery.
-/

namespace DomainEvents

/-! ## A run of a typed handler -/

namespace KindHandler

variable {k : Kind} {α : Type u} {fail : HandlerError → α} {inner : KindHandler k α}
  {ctx : Context} {event : Event}

/-- The handler inside is run with what the event says. -/
theorem typed_of_ok {value : k.Value} (reads : k.decode event = .ok value) :
    (inner.typed fail).handle ctx event = inner.handle ctx event value := by
  simp only [typed, reads]

/-- If the event cannot be read the typed handler fails. -/
theorem typed_of_error {cause : PayloadError} (fails : k.decode event = .error cause) :
    (inner.typed fail).handle ctx event = fail (.payload cause) := by
  simp only [typed, fails]

/-- A handler that goes by a name and whose runs end in the given way. -/
def ending (k : Kind) (name : String) (comes : α) : KindHandler k α where
  name := name
  handle _ _ _ := comes

end KindHandler

namespace Bus

variable {H : Type}

/-- How the turn of a handler that was run comes out. -/
def Verdict.ofOutcome : Outcome (Except HandlerError Unit) → Verdict
  | .returned (.ok ()) => .handled
  | .returned (.error source) => .failed source
  | .panicked message => .panicked message

theorem Verdict.interested_ofOutcome (outcome : Outcome (Except HandlerError Unit)) :
    (Verdict.ofOutcome outcome).interested = true := by
  rcases outcome with (source | ⟨⟨⟩⟩) | message <;> rfl

/-- How a run ends that returns with an error. -/
def Outcome.failed (error : HandlerError) : Outcome (Except HandlerError Unit) :=
  .returned (.error error)

/-- Whether a call of a dispatch ends as it does for a handler of events. The question for its name
may panic. Calls of other handlers, of the error callback and of the store may end in any way. -/
def Call.EndsAs (handler : H) (as : EventHandler (Outcome (Except HandlerError Unit)))
    (ctx : Context) (event : Event) : Call H → Prop
  | .name entry outcome => entry.handler = handler →
    ∀ told, outcome = .returned told → told = as.name
  | .interest entry outcome => entry.handler = handler →
    outcome = .returned (as.interestedIn event.name)
  | .handler entry outcome => entry.handler = handler → outcome = as.handle ctx event
  | .report _ _ | .mark _ _ => True

/-- Whether a call of a dispatch ends as it does for a typed handler of some name. The handler
inside need not be the same from call to call, so its runs may come to any end. -/
def Call.Conforms (k : Kind) (handler : H) (name : String) (ctx : Context) (event : Event)
    (call : Call H) : Prop :=
  ∃ inner : KindHandler k (Outcome (Except HandlerError Unit)), inner.name = name ∧
    call.EndsAs handler (inner.typed .failed) ctx event

/-- Nothing is asked of a report. -/
theorem Call.conforms_report (k : Kind) (handler : H) (name : String) (ctx : Context)
    (event : Event) (failure : DispatchFailure) (outcome : Outcome Unit) :
    (Call.report failure outcome).Conforms k handler name ctx event :=
  ⟨.ending k name (.returned (.ok ())), rfl, trivial⟩

end Bus

open Bus

variable {H : Type}

namespace Kind

/-- How the turn of a typed handler comes out. -/
inductive Serves (k : Kind) (event : Event) : Verdict → Prop where
  /-- the kind does not have the name of the event -/
  | passed (uncovered : k.covers event.name = false) : Serves k event .declined
  /-- the payload cannot be read, and the handler inside is not run -/
  | unreadable {cause : Codec.Mismatch} (covered : k.covers event.name = true)
      (fails : k.decode event = .error (.decode event.name cause)) :
      Serves k event (.failed (.payload (.decode event.name cause)))
  /-- the handler inside is run with what the event says, which is a value of its name -/
  | run {value : k.Value} (covered : k.covers event.name = true)
      (reads : k.decode event = .ok value) (bound : value.eventName = event.name)
      (outcome : Outcome (Except HandlerError Unit)) : Serves k event (.ofOutcome outcome)

/-- The turn of a typed handler is known from the calls in which it is asked and run. -/
theorem serves_of_conforms {k : Kind} {handler : H} {name : String} {ctx : Context} {event : Event}
    {entry : Subscription H} {verdict : Verdict} (mine : entry.handler = handler)
    (conforms : ∀ call ∈ verdict.calls entry, call.Conforms k handler name ctx event) :
    k.Serves event verdict := by
  have asks {outcome : Outcome Bool} (call : .interest entry outcome ∈ verdict.calls entry) :
      outcome = .returned (k.covers event.name) := by
    obtain ⟨inner, -, ends⟩ := conforms (.interest entry outcome) call
    exact ends mine
  have runs {outcome : Outcome (Except HandlerError Unit)}
      (call : .handler entry outcome ∈ verdict.calls entry)
      (covered : k.covers event.name = true) :
      (∃ value, k.decode event = .ok value ∧ value.eventName = event.name) ∨
        ∃ cause, k.decode event = .error (.decode event.name cause) ∧
          outcome = .returned (.error (.payload (.decode event.name cause))) := by
    obtain ⟨inner, -, ends⟩ := conforms (.handler entry outcome) call
    obtain ⟨v, there, same, ⟨data, -, reads⟩ | ⟨type, cause, -, -, fails⟩⟩ :=
      decode_of_covers covered
    · exact .inl ⟨_, reads, same⟩
    · refine .inr ⟨cause, fails, ?_⟩
      exact (ends mine).trans (KindHandler.typed_of_error fails)
  -- what is called of a handler is its interest check, and then the handler if that says so
  cases verdict with
  | declined =>
    have uncovered := Outcome.returned.inj (asks List.mem_cons_self)
    exact .passed uncovered.symm
  | checkPanicked => cases asks List.mem_cons_self
  | handled =>
    have covered := (Outcome.returned.inj (asks List.mem_cons_self)).symm
    rcases runs (List.mem_cons_of_mem _ List.mem_cons_self) covered with
      ⟨value, reads, bound⟩ | ⟨cause, -, ends⟩
    · exact .run covered reads bound (.returned (.ok ()))
    · cases ends
  | failed source =>
    have covered := (Outcome.returned.inj (asks List.mem_cons_self)).symm
    rcases runs (List.mem_cons_of_mem _ List.mem_cons_self) covered with
      ⟨value, reads, bound⟩ | ⟨cause, fails, ends⟩
    · exact .run covered reads bound (.returned (.error source))
    · obtain rfl := Except.error.inj (Outcome.returned.inj ends)
      exact .unreadable covered fails
  | panicked message =>
    have covered := (Outcome.returned.inj (asks List.mem_cons_self)).symm
    rcases runs (List.mem_cons_of_mem _ List.mem_cons_self) covered with
      ⟨value, reads, bound⟩ | ⟨cause, -, ends⟩
    · exact .run covered reads bound (.panicked message)
    · cases ends

/-- A typed handler is interested in the events of its kind. -/
theorem Serves.interested {k : Kind} {event : Event} {verdict : Verdict}
    (serves : k.Serves event verdict) : verdict.interested = k.covers event.name := by
  cases serves with
  | passed uncovered => exact uncovered.symm
  | unreadable covered => exact covered.symm
  | run covered _ _ outcome => exact (Verdict.interested_ofOutcome outcome).trans covered.symm

/-- If the payload cannot be read the typed handler fails. -/
theorem Serves.failed {k : Kind} {event : Event} {verdict : Verdict}
    (serves : k.Serves event verdict) (covered : k.covers event.name = true)
    {cause : PayloadError} (fails : k.decode event = .error cause) :
    verdict = .failed (.payload cause) := by
  cases serves with
  | passed uncovered =>
    rw [covered] at uncovered
    cases uncovered
  | unreadable _ unread => rw [Except.error.inj (fails.symm.trans unread)]
  | run _ reads =>
    rw [fails] at reads
    cases reads

/-- A handler that tells what it is run with. -/
def recorder (k : Kind) : KindHandler k (Option (Context × Event × k.Value)) where
  name := "recorder"
  handle ctx event value := some (ctx, event, value)

/-- What the handler inside is run with when a typed handler is called, if it is. -/
def runs? (k : Kind) (ctx : Context) (event : Event) : Option (Context × Event × k.Value) :=
  (k.recorder.typed fun _ => none).handle ctx event

/-- The handler inside gets the context and the event of the typed handler, and what the event says
if it can be read. -/
theorem runs?_eq (k : Kind) (ctx : Context) (event : Event) :
    k.runs? ctx event = (k.decode event).toOption.map (ctx, event, ·) := by
  cases look : k.decode event with
  | error => exact KindHandler.typed_of_error look
  | ok => exact KindHandler.typed_of_ok look

variable [DecidableEq H]

/-- The runs of the handler inside a typed handler, among the calls of handlers for an event: for
which subscription, and with what. -/
def runs (k : Kind) (handler : H) (ctx : Context) (event : Event)
    (called : List (Subscription H)) : List (Subscription H × Context × Event × k.Value) :=
  (called.filter (·.handler = handler)).filterMap fun entry => (k.runs? ctx event).map (entry, ·)

/-- How a typed handler fares in the dispatch of an event to some subscriptions, as far as the
dispatch has come: it has gone through the turns `turns`, it waits for the end of the handler of
`running`, it has called the handlers `called`, and it has told of the failures `failures`. -/
structure Attends (k : Kind) (handler : H) (name : String) (ctx : Context) (event : Event)
    (entries called : List (Subscription H)) (failures : List BusError) (turns : List (Turn H))
    (running : Option (Subscription H)) : Prop where
  /-- the subscriptions have their turns in their order, each one -/
  reached : turns.map (·.entry) ++ running.toList <+: entries
  /-- those who are interested are called, each once -/
  calls : called = interested turns ++ running.toList
  /-- the failures are those of the turns -/
  tells : failures = turns.filterMap Turn.failure?
  /-- the turns of the typed handler come out in one of three ways, and it has its own name -/
  served : ∀ turn ∈ turns, turn.entry.handler = handler →
    turn.name = name ∧ k.Serves event turn.verdict
  /-- the bus hears of a payload that cannot be read -/
  unreadable : ∀ cause, k.covers event.name = true → k.decode event = .error cause →
    (∃ mismatch, cause = .decode event.name mismatch) ∧
      ∀ turn ∈ turns, turn.entry.handler = handler →
        .handler name (.payload cause) ∈ failures ∧
          turn.failure? = some (.handler name (.payload cause))
  /-- no event that is handed to it is of an unknown kind -/
  known : ∀ entry ∈ called, entry.handler = handler →
    k.covers event.name = true ∧ ∀ unknown, k.decode event ≠ .error (.unknownKind unknown)
  /-- the handler inside is run once for each of its subscriptions that have had their turn, with
  the context, the event and what the event says, if it says something -/
  runs : k.runs handler ctx event called =
    ((turns.map (·.entry) ++ running.toList).filter (·.handler = handler)).filterMap fun entry =>
      (k.decode event).toOption.map (entry, ctx, event, ·)

variable {k : Kind} {handler : H} {name : String} {ctx : Context} {event : Event}
  {entries : List (Subscription H)} {turns : List (Turn H)} {running : Option (Subscription H)}

/-- If the event says something, those whose turns have come were called. -/
theorem called_of_reads {value : k.Value} (reads : k.decode event = .ok value)
    (served : ∀ turn ∈ turns, turn.entry.handler = handler → k.Serves event turn.verdict) :
    (interested turns).filter (·.handler = handler) =
      (turns.map (·.entry)).filter (·.handler = handler) := by
  obtain ⟨covered, -⟩ := eventName_of_decode reads
  rw [interested, List.filter_map, List.filter_map, List.filter_filter]
  refine congrArg (List.map _) (List.filter_congr ?_)
  intro turn there
  by_cases mine : turn.entry.handler = handler
  · have agrees : turn.verdict.interested = true :=
      (served turn there mine).interested.trans covered
    simp [mine, agrees]
  · simp [mine]

/-- **A typed handler fares as its calls say.** -/
theorem Attends.of_turns (reached : turns.map (·.entry) ++ running.toList <+: entries)
    (named : ∀ turn ∈ turns, turn.entry.handler = handler → turn.name = name)
    (conforms : ∀ turn ∈ turns, ∀ call ∈ turn.verdict.calls turn.entry,
      call.Conforms k handler name ctx event)
    (agreed : ∀ entry ∈ running, Call.Conforms k handler name ctx event
      (.interest entry (.returned true))) :
    Attends k handler name ctx event entries (interested turns ++ running.toList)
      (turns.filterMap Turn.failure?) turns running := by
  have served (turn : Turn H) (there : turn ∈ turns) (mine : turn.entry.handler = handler) :
      k.Serves event turn.verdict := serves_of_conforms mine (conforms turn there)
  have covered (entry : Subscription H) (there : entry ∈ interested turns ++ running.toList)
      (mine : entry.handler = handler) : k.covers event.name = true := by
    rcases List.mem_append.mp there with there | there
    · obtain ⟨turn, tried, rfl⟩ := List.mem_map.mp there
      obtain ⟨tried, agrees⟩ := List.mem_filter.mp tried
      exact (served turn tried mine).interested.symm.trans agrees
    · obtain ⟨inner, -, agrees⟩ := agreed entry (Option.mem_toList.mp there)
      exact (Outcome.returned.inj (agrees mine)).symm
  refine ⟨reached, rfl, rfl, fun turn there mine => ⟨named turn there mine, served turn there mine⟩,
    ?_, ?_, ?_⟩
  · intro cause covers fails
    refine ⟨?_, ?_⟩
    · obtain ⟨v, there, -, ⟨data, -, reads⟩ | ⟨type, mismatch, -, -, unread⟩⟩ :=
        decode_of_covers covers
      · rw [fails] at reads
        cases reads
      · exact ⟨mismatch, Except.error.inj (fails.symm.trans unread)⟩
    · intro turn there mine
      have failed : turn.failure? = some (.handler name (.payload cause)) := by
        rw [Turn.failure?, named turn there mine, (served turn there mine).failed covers fails]
        rfl
      exact ⟨List.mem_filterMap.mpr ⟨turn, there, failed⟩, failed⟩
  · intro entry there mine
    have covers := covered entry there mine
    refine ⟨covers, ?_⟩
    intro unknown fails
    obtain ⟨uncovered, -⟩ := (k.unknownKind_iff event unknown).mp fails
    rw [covers] at uncovered
    cases uncovered
  · simp only [Kind.runs, runs?_eq, Option.map_map, Function.comp_def]
    rcases reads : k.decode event with _ | value
    · simp [Except.toOption]
    · rw [List.filter_append, called_of_reads reads served, ← List.filter_append]

end Kind

namespace Bus

variable {k : Kind} {handler : H} {name : String} {ctx : Context} {event : Event}
  {entries : List (Subscription H)}

/-! ## A worker -/

/-- There is notice of a failure before it is reported. -/
theorem Phase.reported?_of_call? {phase : Phase H} {reply : Reply} {call : Call H}
    (waits : phase.call? event reply = some call) :
    (phase.opened event).filterMap WorkerNotice.reported? = call.reported?.toList := by
  revert waits
  fun_cases Phase.call?
  all_goals intro waits; cases waits
  all_goals rfl

/-- What is known of a typed handler when a worker has gone through some turns, and has called and
reported what there was to call and to report in them. -/
theorem attends_of_calls [DecidableEq H] {turns : List (Turn H)} {running : Option (Subscription H)}
    {called : List (Subscription H)} {failures : List BusError}
    (reached : turns.map (·.entry) ++ running.toList <+: entries)
    (conforms : ∀ call ∈ turns.flatMap (Turn.calls event), call.Conforms k handler name ctx event)
    (agreed : ∀ entry ∈ running, Call.Conforms k handler name ctx event
      (.interest entry (.returned true)))
    (calls : called = interested turns ++ running.toList)
    (tells : failures = turns.filterMap Turn.failure?) :
    k.Attends handler name ctx event entries called failures turns running := by
  rw [calls, tells]
  refine .of_turns reached ?_ ?_ agreed
  · intro turn there mine
    obtain ⟨inner, named, ends⟩ := conforms _ (name_mem there)
    exact (ends mine turn.name rfl).trans named
  · intro turn there call made
    exact conforms call (verdict_calls_mem there made)

/-- Wherever a worker stands, a typed handler fares as its calls say. -/
theorem SoFar.attends [DecidableEq H] {calls : List (Call H)} {progress : Progress H}
    (soFar : SoFar event entries calls progress)
    (conforms : ∀ call ∈ calls, call.Conforms k handler name ctx event) :
    ∃ turns running, k.Attends handler name ctx event entries
      (calls.filterMap Call.called? ++ (progress.opened event).filterMap WorkerNotice.called?)
      ((calls.filterMap Call.reported? ++
        (progress.opened event).filterMap WorkerNotice.reported?).filter ofHandler) turns running ∧
      (progress = .finished → turns.map (·.entry) = entries ∧ running = none) := by
  have idle : ∀ entry ∈ (none : Option (Subscription H)),
      Call.Conforms k handler name ctx event (.interest entry (.returned true)) := by simp
  induction soFar with
  | @turning turns rest split =>
    refine ⟨turns, none, attends_of_calls ⟨rest, by simpa using split⟩ conforms idle ?_ ?_, by simp⟩
    · rw [called_turns]
      cases rest <;> rfl
    · have silent : ((Phase.turnTo rest).opened event).filterMap WorkerNotice.reported? = [] := by
        cases rest <;> rfl
      rw [reported_turns, Progress.opened, silent, List.append_nil, filter_ofHandler]
  | @asking turns entry rest told split =>
    refine ⟨turns, none, attends_of_calls ⟨entry :: rest, by simpa using split⟩
      (fun call made => conforms call (List.mem_append_left _ made)) idle ?_ ?_, by simp⟩
    · rw [List.filterMap_append, called_turns]
      exact List.append_nil _
    · rw [List.filterMap_append, reported_turns]
      simp [Call.reported?, Progress.opened, Phase.opened, filter_ofHandler]
  | @handling turns entry rest told split =>
    refine ⟨turns, some entry, attends_of_calls ⟨rest, by simpa using split⟩
      (fun call made => conforms call (List.mem_append_left _ made)) ?_ ?_ ?_, by simp⟩
    · rintro _ ⟨⟩
      exact conforms _ (List.mem_append_right _ (by simp))
    · rw [List.filterMap_append, called_turns, List.append_assoc]
      rfl
    · rw [List.filterMap_append, reported_turns]
      simp [Call.reported?, Progress.opened, Phase.opened, WorkerNotice.reported?, filter_ofHandler]
  | @reporting turns turn rest failure split failed =>
    -- the turn is as good as over: what is left of it is the report, of which there was notice
    have whole : (turns ++ [turn]).flatMap (Turn.calls event) =
        turns.flatMap (Turn.calls event) ++ turn.tried ++
          [.report (.of event failure) (.returned ())] := by
      simp [Turn.calls, report, failed]
    refine ⟨turns ++ [turn], none,
      attends_of_calls ⟨rest, by simpa using split⟩ ?_ idle ?_ ?_, by simp⟩
    · rw [whole]
      intro call made
      rcases List.mem_append.mp made with made | made
      · exact conforms call made
      · obtain rfl := List.mem_singleton.mp made
        exact Call.conforms_report ..
    · have called : ((turns ++ [turn]).flatMap (Turn.calls event)).filterMap Call.called? =
          (turns.flatMap (Turn.calls event) ++ turn.tried).filterMap Call.called? ++ [] := by
        rw [whole, List.filterMap_append]
        rfl
      rw [← called_turns, called, List.append_assoc]
      rfl
    · have reported : ((turns ++ [turn]).flatMap (Turn.calls event)).filterMap Call.reported? =
          (turns.flatMap (Turn.calls event) ++ turn.tried).filterMap Call.reported? ++
            [failure] := by
        rw [whole, List.filterMap_append]
        rfl
      rw [← filter_ofHandler, ← reported_turns, reported]
      rfl
  | @reportingMark turns source all =>
    refine ⟨turns, none, attends_of_calls ⟨[], by simpa using all⟩
      (fun call made => conforms call (List.mem_append_left _ made)) idle ?_ ?_, by simp⟩
    · rw [List.filterMap_append, called_turns, List.append_assoc]
      rfl
    · rw [List.filterMap_append, reported_turns, List.append_assoc, List.filter_append,
        filter_ofHandler]
      exact List.append_nil _
  | @finished turns mark all =>
    refine ⟨turns, none, attends_of_calls ⟨[], by simpa using all⟩
      (fun call made => conforms call (List.mem_append_left _ made)) idle ?_ ?_,
      fun _ => ⟨all, rfl⟩⟩
    · rw [called_itinerary]
      rfl
    · exact reported_finished event turns mark
  | @killed calls phase call before waits kills ih =>
    -- there was notice of the last call before it was made, and of nothing after it
    obtain ⟨turns, running, attends, -⟩ :=
      ih fun call made => conforms call (List.mem_append_left _ made)
    refine ⟨turns, running, ?_, by simp⟩
    have called : calls.filterMap Call.called? ++
        (phase.opened event).filterMap WorkerNotice.called? =
          (calls ++ [call]).filterMap Call.called? ++ [] := by
      rw [Phase.called?_of_call? waits, List.filterMap_append, List.append_nil, List.filterMap_cons]
      cases call.called? <;> rfl
    have reported : calls.filterMap Call.reported? ++
        (phase.opened event).filterMap WorkerNotice.reported? =
          (calls ++ [call]).filterMap Call.reported? ++ [] := by
      rw [Phase.reported?_of_call? waits, List.filterMap_append, List.append_nil,
        List.filterMap_cons]
      cases call.reported? <;> rfl
    rw [Progress.opened, called, reported] at attends
    exact attends

/-! ## A delivery -/

namespace Delivery

/-- The subscription whose handler is being run, if one is. -/
def running? : Delivery H → Option (Subscription H)
  | .handling entry _ _ => some entry
  | _ => none

/-- The failure that the publisher hears of, if there is one. -/
def failures (names : H → String) (delivery : Delivery H) : List BusError :=
  match delivery.result? names with
  | some (.error failure) => [failure]
  | _ => []

/-- Wherever a delivery stands, a typed handler fares as its calls say. -/
theorem SoFar.attends [DecidableEq H] {turns : List (Turn H)}
    (soFar : SoFar names entries turns calls delivery)
    (named : ∀ turn ∈ turns, turn.name = names turn.entry.handler)
    (conforms : ∀ call ∈ calls, call.Conforms k handler (names handler) ctx event) :
    k.Attends handler (names handler) ctx event entries
      (calls.filterMap Call.called? ++ delivery.running?.toList) (delivery.failures names) turns
      delivery.running? := by
  have mine (turn : Turn H) (there : turn ∈ turns) (same : turn.entry.handler = handler) :
      turn.name = names handler := by rw [named turn there, same]
  have asked (all : ∀ call ∈ turns.flatMap callsOf,
      call.Conforms k handler (names handler) ctx event)
      (turn : Turn H) (there : turn ∈ turns) (call : Call H)
      (made : call ∈ turn.verdict.calls turn.entry) :
      call.Conforms k handler (names handler) ctx event :=
    all call (List.mem_flatMap.mpr ⟨turn, there, made⟩)
  cases soFar with
  | @turning rest count split succeed =>
    have idle : (turnTo count rest).running? = none := by cases rest <;> rfl
    have silent : (turnTo count rest).failures names = [] := by cases rest <;> rfl
    rw [idle, silent, called_callsOf, ← succeed]
    exact .of_turns ⟨rest, by simpa using split⟩ mine (asked conforms) nofun
  | @handling entry rest count split succeed =>
    obtain ⟨conforms, agreed⟩ := List.forall_mem_append.mp conforms
    have silent : (Delivery.handling entry rest count).failures names =
        turns.filterMap Turn.failure? :=
      succeed.symm
    rw [silent, List.filterMap_append, called_callsOf, List.append_assoc]
    have reached : turns.map (·.entry) ++ (some entry).toList <+: entries :=
      ⟨rest, by simpa using split⟩
    refine .of_turns reached mine (asked conforms) ?_
    rintro _ ⟨⟩
    exact agreed _ (List.mem_singleton_self _)
  | @stopped entry source rest split fails =>
    have told : (Delivery.stopped entry source).failures names = turns.filterMap Turn.failure? :=
      fails.symm
    rw [told, called_callsOf]
    exact .of_turns ⟨rest, by simpa [running?] using split⟩ mine (asked conforms) nofun

end Delivery

/-! ## On any bus -/

/-- An order is placed, but nothing says by whom. -/
def placedOrder : Event := { (default : Event) with name := "order.placed" }

namespace Pool

variable [DecidableEq H]

/-- **Typed handlers on any bus.** Take a handler that is typed by a kind, with any number of
subscriptions among those of other handlers, which do what they like; the handler inside it may come
to any end.

On a bus with workers, take any run in which the worker of an event has started, with the
subscriptions that there are then. Wherever the worker stands, the typed handler fares as `Attends`
says: the handler inside is run once for each of its subscriptions that have had their turn, with
the context that was published, the event and the value that the event says, if the kind has the
name of the event and the payload can be read; if the payload cannot be read the bus hears so; and
no event that is handed to it is of an unknown kind. A worker that has ended without being killed
has been through all subscriptions.

On a bus without a queue it is the same for any run of a delivery, and a delivery that is complete
has been through all subscriptions. -/
theorem typed_handler_attends (k : Kind) (handler : H) (name : String) :
    (∀ config log (b : Broker H) before after t notices,
      Run Broker.step (Broker.new config) log b →
      history log = before ++ ⟨.start t, notices⟩ :: after →
      ∃ m d, Run Pool.tick (.new config) before m ∧ m.worker? t = some ⟨d, .spawned⟩ ∧
        ((∀ call, Made (.new config) (history log) d call →
            call.Conforms k handler name d.ctx d.event) →
          ∃ turns running, k.Attends handler name d.ctx d.event m.registry.entries
              ((history log).calledFor t) ((history log).failuresFor t) turns running ∧
            (b.pool.worker? t = none → .ended d true ∉ (history log).notices →
              turns.map (·.entry) = m.registry.entries ∧ running = none))) ∧
    ∀ direct entries ctx event first calls (after : Delivery H) names, names handler = name →
      Delivery.start direct entries event = .ok first → Run Delivery.hear first calls after →
      (∀ call ∈ calls, call.Conforms k handler name ctx event) →
      ∃ turns, k.Attends handler name ctx event entries
          (calls.filterMap Call.called? ++ after.running?.toList) (after.failures names) turns
          after.running? ∧
        ∀ count, after = .completed count → turns.map (·.entry) = entries := by
  refine ⟨?_, ?_⟩
  · intro config log b before after t notices run cut
    have ran := Broker.run_pool run
    rw [cut] at ran
    obtain ⟨m, d, calls, progress, reach, found, account, made⟩ := account_of_start ran
    rw [← cut] at account made
    obtain rfl : d.ticket = t := ticket_of_worker? found
    refine ⟨m, d, reach, found, ?_⟩
    intro conforms
    obtain ⟨turns, running, attends, all⟩ :=
      account.soFar.attends fun call there => conforms call (made call there)
    have called := account.calledFor
    have reported := account.read Call.filterMap_told_reported
    refine ⟨turns, running, ?_, ?_⟩
    · rw [called, History.failuresFor, reported]
      exact attends
    · intro gone unharmed
      cases progress with
      | next phase =>
        have there : b.pool.worker? d.ticket = some ⟨d, phase⟩ := account.stands
        rw [gone] at there
        cases there
      | killed => exact absurd account.stands unharmed
      | finished => exact all rfl
  · rintro direct entries ctx event first calls after names rfl accepted run conforms
    obtain rfl := Delivery.eq_turnTo_of_start accepted
    obtain ⟨turns, named, soFar⟩ :
        ∃ turns, (∀ turn ∈ turns, turn.name = names turn.entry.handler) ∧
          Delivery.SoFar names entries turns calls after := Delivery.soFar_of_run names run
    refine ⟨turns, soFar.attends named conforms, ?_⟩
    rintro count rfl
    exact soFar.all_of_completed

/-- The handler `true` is for orders, and has two subscriptions on a bus with workers, one before
and one after that of another handler, which panics. It runs the handler inside for both of them
when an order is shipped. On a bus without a queue it cannot read what a placed order carries, so
that the delivery stops. -/
theorem typed_handler_attends_orders :
    ∃ (log : List (Deed Bool)) (b : Broker Bool) (value : Catalog.order.Value)
      (cause : Codec.Mismatch) (calls : List (Call Bool))
      (after : Delivery Bool),
      Run Broker.step (Broker.new ⟨2, 1, true⟩) log b ∧
      value.eventName = "order.shipped" ∧
      Catalog.order.runs true default shippedOrder ((history log).calledFor 0) =
        [(⟨⟨1⟩, true⟩, default, shippedOrder, value),
          (⟨⟨3⟩, true⟩, default, shippedOrder, value)] ∧
      Run Delivery.hear (.turnTo 0 [⟨⟨1⟩, false⟩, ⟨⟨2⟩, true⟩, ⟨⟨3⟩, true⟩]) calls after ∧
      .handler "shop" (.payload (.decode "order.placed" cause)) ∈
        after.failures fun _ => "shop" := by
  obtain ⟨value, reads⟩ : ∃ value, Catalog.order.decode shippedOrder = .ok value := ⟨_, rfl⟩
  obtain ⟨cause, fails⟩ :
    ∃ cause, Catalog.order.decode placedOrder = .error (.decode "order.placed" cause) := ⟨_, rfl⟩
  obtain ⟨covered, bound⟩ := Kind.eventName_of_decode reads
  let idle : KindHandler Catalog.order (Outcome (Except HandlerError Unit)) :=
    .ending _ "shop" (.returned (.ok ()))
  obtain ⟨prior, m, q, notices, more, b, log, first, starts, rest, entries, worker, gone, all,
      unharmed, heard⟩ :
      ∃ prior m q notices more b log,
        runAll Broker.step (Broker.new (H := Bool) ⟨2, 1, true⟩)
          [.pool (.subscribe ⟨1⟩ true), .pool (.subscribe ⟨2⟩ false), .pool (.subscribe ⟨3⟩ true),
            .pool (.publish default shippedOrder), .pool (.saved 0 (.ok ())), .pool .dispatch,
            .pool .dispatch] = some (m, prior) ∧
        m.step (.pool (.start 0)) = some (q, [.pool ⟨.start 0, notices⟩]) ∧
        runAll Broker.step q
          [.pool (.reply 0 (.named (.returned "shop"))),
            .pool (.reply 0 (.asked (.returned true))),
            .pool (.reply 0 (.handled (.returned (.ok ())))),
            .pool (.reply 0 (.named (.returned "shop"))),
            .pool (.reply 0 (.asked (.returned true))),
            .pool (.reply 0 (.handled (.panicked "full"))),
            .pool (.reply 0 (.reported (.returned ()))),
            .pool (.reply 0 (.named (.returned "shop"))),
            .pool (.reply 0 (.asked (.returned true))),
            .pool (.reply 0 (.handled (.returned (.error .cancelled)))),
            .pool (.reply 0 (.reported (.returned ()))),
            .pool (.reply 0 (.marked (.returned (.ok ()))))] = some (b, more) ∧
        m.pool.registry.entries = [⟨⟨1⟩, true⟩, ⟨⟨2⟩, false⟩, ⟨⟨3⟩, true⟩] ∧
        (m.pool.worker? 0).map (·.dispatch) = some ⟨0, default, shippedOrder⟩ ∧
        b.pool.worker? 0 = none ∧
        prior ++ ([.pool ⟨.start 0, notices⟩] ++ more) = log ∧
        (history log).collect Notice.killed? = [] ∧
        (history log).heard 0 =
          [.named (.returned "shop"), .asked (.returned true), .handled (.returned (.ok ())),
            .named (.returned "shop"), .asked (.returned true), .handled (.panicked "full"),
            .reported (.returned ()), .named (.returned "shop"), .asked (.returned true),
            .handled (.returned (.error .cancelled)), .reported (.returned ()),
            .marked (.returned (.ok ()))] :=
    ⟨_, _, _, _, _, _, _, rfl, rfl, rfl, rfl, rfl, rfl, rfl, rfl, rfl⟩
  obtain ⟨onPool, direct⟩ := typed_handler_attends Catalog.order true "shop"
  -- the bus with workers
  have before := Run.ofActions first
  have run := before.trans ((Run.single starts).trans (Run.ofActions rest))
  rw [all] at run
  have cut : history log = history prior ++ ⟨.start 0, notices⟩ :: history more := by
    rw [← all, history_append]
    rfl
  obtain ⟨n, d, reach, found, attends⟩ := onPool _ log b _ _ 0 _ run cut
  obtain rfl := run_unique reach (Broker.run_pool before)
  rw [found] at worker
  obtain rfl : d = ⟨0, default, shippedOrder⟩ := Option.some.inj worker
  have conforms (call : Call Bool)
      (made : Made (.new ⟨2, 1, true⟩) (history log) ⟨0, default, shippedOrder⟩ call) :
      call.Conforms Catalog.order true "shop" default shippedOrder := by
    have told := made.known.2
    rw [heard] at told
    cases call with
    | name entry outcome =>
      refine ⟨idle, rfl, ?_⟩
      rintro - name rfl
      have told : name = "shop" := by simpa [Call.reply] using told
      exact told
    | interest entry outcome =>
      refine ⟨idle, rfl, fun _ => ?_⟩
      show outcome = .returned (Catalog.order.covers shippedOrder.name)
      rw [covered]
      simpa [Call.reply] using told
    | handler entry outcome =>
      have handled : ((KindHandler.ending _ "shop" outcome).typed .failed).handle default
          shippedOrder = outcome := KindHandler.typed_of_ok reads
      exact ⟨.ending _ "shop" outcome, rfl, fun _ => handled.symm⟩
    | report | mark => exact ⟨idle, rfl, trivial⟩
  obtain ⟨turns, running, attends, whole⟩ := attends conforms
  obtain ⟨turned, rfl⟩ := whole gone (History.not_killed unharmed _)
  have runs := attends.runs
  rw [turned, entries, reads] at runs
  -- the bus without a queue
  obtain ⟨calls, after, delivered, made, stops⟩ :
      ∃ calls after,
        runAll Delivery.hear (.turnTo 0 [⟨⟨1⟩, false⟩, ⟨⟨2⟩, true⟩, ⟨⟨3⟩, true⟩])
          [.asked (.returned true), .handled (.returned (.ok ())), .asked (.returned true),
            .handled (.returned (.error (.payload (.decode "order.placed" cause))))] =
              some (after, calls) ∧
        calls = [.interest ⟨⟨1⟩, false⟩ (.returned true),
          .handler ⟨⟨1⟩, false⟩ (.returned (.ok ())), .interest ⟨⟨2⟩, true⟩ (.returned true),
          .handler ⟨⟨2⟩, true⟩
            (.returned (.error (.payload (.decode "order.placed" cause))))] ∧
        after = .stopped ⟨⟨2⟩, true⟩ (.payload (.decode "order.placed" cause)) :=
    ⟨_, _, rfl, rfl, rfl⟩
  have accepted : Delivery.start {} [⟨⟨1⟩, false⟩, ⟨⟨2⟩, true⟩, ⟨⟨3⟩, true⟩] placedOrder =
      .ok (.turnTo 0 [⟨⟨1⟩, false⟩, ⟨⟨2⟩, true⟩, ⟨⟨3⟩, true⟩]) := rfl
  have ran := Run.ofActions delivered
  have conforms (call : Call Bool) (there : call ∈ calls) :
      call.Conforms Catalog.order true "shop" default placedOrder := by
    have unread : (idle.typed .failed).handle default placedOrder =
        .failed (.payload (.decode "order.placed" cause)) :=
      KindHandler.typed_of_error fails
    refine ⟨idle, rfl, ?_⟩
    rw [made] at there
    rcases there with _ | ⟨_, _ | ⟨_, _ | ⟨_, _ | ⟨_, there⟩⟩⟩⟩
    · exact fun mine => absurd mine Bool.false_ne_true
    · exact fun mine => absurd mine Bool.false_ne_true
    · exact fun _ => rfl
    · exact fun _ => unread.symm
    · cases there
  obtain ⟨others, fares, -⟩ := direct {} _ default placedOrder _ calls after (fun _ => "shop") rfl
    accepted ran conforms
  have called : [⟨⟨1⟩, false⟩, ⟨⟨2⟩, true⟩] = interested others ++ [] := by
    have calls := fares.calls
    rw [made, stops] at calls
    exact calls
  obtain ⟨turn, there, same⟩ : ∃ turn ∈ others, turn.entry = ⟨⟨2⟩, true⟩ := by
    have there : (⟨⟨2⟩, true⟩ : Subscription Bool) ∈ interested others := by
      rw [← List.append_nil (interested others), ← called]
      exact List.mem_cons_of_mem _ (List.mem_singleton_self _)
    obtain ⟨turn, there, same⟩ := List.mem_map.mp there
    exact ⟨turn, List.mem_of_mem_filter there, same⟩
  have mine : turn.entry.handler = true := by rw [same]
  obtain ⟨-, heard⟩ := fares.unreadable _ rfl fails
  exact ⟨log, b, value, cause, calls, after, run, bound, runs, ran, (heard turn there mine).1⟩

end Pool

end Bus

end DomainEvents
