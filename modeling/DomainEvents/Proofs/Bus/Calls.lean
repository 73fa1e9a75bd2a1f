import DomainEvents.Proofs.Bus.Slots

/-!
# The calls of a worker

A worker calls into foreign code: it asks each handler for its name and its interest, runs those
that are interested, hands failures to the error callback, and lets the store mark the event. It
makes one call at a time and waits for its end. A `Call` is such a call with its end, and a `Turn`
says how the calls for one subscription come out; `itinerary` lists all calls of a worker that comes
to its end.

The calls that a worker has made and what it waits for go together, which is what `SoFar` says. It
holds at the start and is kept by each call (`SoFar.snoc`), so that a worker makes the calls of an
itinerary, whatever their ends are, as long as no panic kills it.
-/

namespace DomainEvents.Bus

variable {H : Type}

/-! ## Calls -/

/-- A call of a worker into foreign code, and how it has ended. -/
inductive Call (H : Type) where
  /-- a handler is asked for its name -/
  | name (entry : Subscription H) (outcome : Outcome String)
  /-- a handler is asked for its interest -/
  | interest (entry : Subscription H) (outcome : Outcome Bool)
  /-- a handler is run -/
  | handler (entry : Subscription H) (outcome : Outcome (Except HandlerError Unit))
  /-- a failure is handed to the error callback -/
  | report (failure : DispatchFailure) (outcome : Outcome Unit)
  /-- the store is asked to mark the event with this id as processed -/
  | mark (id : Uuid) (outcome : Outcome (Except StoreError Unit))

namespace Call

/-- What the worker hears of a call. -/
def reply : Call H → Reply
  | .name _ outcome => .named outcome
  | .interest _ outcome => .asked outcome
  | .handler _ outcome => .handled outcome
  | .report _ outcome => .reported outcome
  | .mark _ outcome => .marked outcome

/-- Whether a call kills the worker, as it ends with a panic and is not guarded. -/
def kills : Call H → Bool
  | .name _ (.panicked _) | .report _ (.panicked _) | .mark _ (.panicked _) => true
  | _ => false

/-- What the worker gives notice of when it makes a call, and when it hears of its end. -/
def told : Call H → List (WorkerNotice H)
  | .name _ _ | .interest _ (.returned _) => []
  | .interest _ (.panicked _) => [.handlerFailed]
  | .handler entry (.returned (.ok ())) => [.called entry]
  | .handler entry _ => [.called entry, .handlerFailed]
  | .report failure _ => [.reported failure]
  | .mark id _ => [.marking id]

end Call

/-- The call that the worker of an event waits for, with the end that it hears of. -/
def Phase.call? (event : Event) : Phase H → Reply → Option (Call H)
  | .naming entry _, .named outcome => some (.name entry outcome)
  | .asking _ entry _, .asked outcome => some (.interest entry outcome)
  | .handling _ entry _, .handled outcome => some (.handler entry outcome)
  | .reporting failure _, .reported outcome => some (.report (.of event failure) outcome)
  | .marking, .marked outcome => some (.mark event.id outcome)
  | .reportingMark failure, .reported outcome => some (.report (.of event failure) outcome)
  | _, _ => none

/-- Two calls that are the same but for their ends. -/
def Call.Alike (c d : Call H) : Prop :=
  ∃ (event : Event) (phase : Phase H),
    phase.call? event c.reply = some c ∧ phase.call? event d.reply = some d

/-- What the worker of an event has given notice of that waits for the end of a call. -/
def Phase.opened (event : Event) : Phase H → List (WorkerNotice H)
  | .handling _ entry _ => [.called entry]
  | .reporting failure _ | .reportingMark failure => [.reported (.of event failure)]
  | .marking => [.marking event.id]
  | _ => []

/-- What the worker of an event has given notice of after its last call. -/
def Progress.opened (event : Event) : Progress H → List (WorkerNotice H)
  | .next phase => phase.opened event
  | .finished => [.processed]
  | .killed => []

namespace Phase

variable {event : Event} {phase : Phase H} {reply : Reply} {progress : Progress H}
  {told : List (WorkerNotice H)} {call : Call H}

theorem opened_turnTo (event : Event) (entries : List (Subscription H)) :
    (turnTo entries).opened event = turnNotices event entries := by
  cases entries <;> rfl

theorem reply_of_call? (h : phase.call? event reply = some call) : call.reply = reply := by
  revert h
  fun_cases Phase.call?
  all_goals intro h; cases h
  all_goals rfl

/-- A worker that goes on has heard of the call that it waits for, and gives notice of that call and
of what comes next. -/
theorem call_of_step (h : phase.step event reply = some (progress, told)) :
    ∃ call, phase.call? event reply = some call ∧
      phase.opened event ++ told = call.told ++ progress.opened event ∧
      (progress = .killed ↔ call.kills = true) := by
  revert h
  fun_cases Phase.step
  all_goals intro h; cases h
  all_goals refine ⟨_, rfl, ?_, by simp [Call.kills]⟩
  all_goals simp only [Call.told, Progress.opened, opened_turnTo]
  all_goals rfl

/-- A worker goes on from each end of the call that it waits for. -/
theorem step_of_call? (h : phase.call? event reply = some call) :
    ∃ after, phase.step event reply = some after := by
  rw [← Option.isSome_iff_exists]
  revert h
  fun_cases Phase.call?
  all_goals intro h; cases h
  case case1 outcome => cases outcome <;> rfl
  case case2 outcome => rcases outcome with (_ | _) | _ <;> rfl
  case case3 outcome => rcases outcome with (_ | ⟨⟨⟩⟩) | _ <;> rfl
  case case4 outcome => cases outcome <;> rfl
  case case5 outcome => rcases outcome with (_ | ⟨⟨⟩⟩) | _ <;> rfl
  case case6 outcome => cases outcome <;> rfl

/-- A worker that has started waits for a call. -/
theorem exists_call (event : Event) (phase : Phase H) (started : phase ≠ .spawned) :
    ∃ call, phase.call? event call.reply = some call := by
  cases phase with
  | spawned => exact absurd rfl started
  | naming entry => exact ⟨.name entry (.returned ""), rfl⟩
  | asking _ entry => exact ⟨.interest entry (.returned false), rfl⟩
  | handling _ entry => exact ⟨.handler entry (.returned (.ok ())), rfl⟩
  | reporting failure => exact ⟨.report (.of event failure) (.returned ()), rfl⟩
  | marking => exact ⟨.mark event.id (.returned (.ok ())), rfl⟩
  | reportingMark failure => exact ⟨.report (.of event failure) (.returned ()), rfl⟩

end Phase

/-! ## Turns -/

/-- How the turn of a subscription comes out, once its handler has told its name. -/
inductive Verdict where
  /-- the handler is not interested -/
  | declined
  /-- the interest check has panicked -/
  | checkPanicked (message : String)
  /-- the handler has succeeded -/
  | handled
  /-- the handler has failed -/
  | failed (source : HandlerError)
  /-- the handler has panicked -/
  | panicked (message : String)

namespace Verdict

/-- The calls in which a handler is asked for its interest and run. -/
def calls (entry : Subscription H) : Verdict → List (Call H)
  | .declined => [.interest entry (.returned false)]
  | .checkPanicked message => [.interest entry (.panicked message)]
  | .handled => [.interest entry (.returned true), .handler entry (.returned (.ok ()))]
  | .failed source => [.interest entry (.returned true), .handler entry (.returned (.error source))]
  | .panicked message => [.interest entry (.returned true), .handler entry (.panicked message)]

/-- The failure of a handler that goes by the given name, if there is one. -/
def failure? (name : String) : Verdict → Option BusError
  | .declined | .handled => none
  | .failed source => some (.handler name source)
  | .checkPanicked message | .panicked message => some (.handlerPanicked name message)

end Verdict

/-- The turn of a subscription: the name of its handler, and how it comes out. -/
structure Turn (H : Type) where
  entry : Subscription H
  name : String
  verdict : Verdict

/-- The call in which the failure of an event is handed to the error callback, if there is one. -/
def report (event : Event) (failure : Option BusError) : List (Call H) :=
  failure.toList.map fun failure => .report (.of event failure) (.returned ())

namespace Turn

/-- The failure that comes of a turn, if there is one. -/
def failure? (turn : Turn H) : Option BusError := turn.verdict.failure? turn.name

/-- The calls of a turn before its failure is reported. -/
def tried (turn : Turn H) : List (Call H) :=
  .name turn.entry (.returned turn.name) :: turn.verdict.calls turn.entry

/-- All calls of a turn in which an event is handled. -/
def calls (event : Event) (turn : Turn H) : List (Call H) :=
  turn.tried ++ report event turn.failure?

end Turn

/-- The failure that comes of the marking, if there is one. -/
def markFailure? : Except StoreError Unit → Option BusError
  | .ok () => none
  | .error source => some (.persistence .markProcessed source)

/-- All calls of the worker of an event that comes to its end: one turn after the other, and then
the marking. -/
def itinerary (event : Event) (turns : List (Turn H)) (mark : Except StoreError Unit) :
    List (Call H) :=
  turns.flatMap (Turn.calls event) ++
    .mark event.id (.returned mark) :: report event (markFailure? mark)

/-! ## Where a worker stands -/

/-- What the worker of an event with the given subscriptions has called so far, and how it goes on.
-/
inductive SoFar (event : Event) (entries : List (Subscription H)) :
    List (Call H) → Progress H → Prop where
  /-- some turns are over, and it turns to the rest -/
  | turning {turns : List (Turn H)} {rest : List (Subscription H)}
      (split : turns.map (·.entry) ++ rest = entries) :
      SoFar event entries (turns.flatMap (Turn.calls event)) (.next (Phase.turnTo rest))
  | asking {turns : List (Turn H)} {entry : Subscription H} {rest : List (Subscription H)}
      {name : String} (split : turns.map (·.entry) ++ entry :: rest = entries) :
      SoFar event entries (turns.flatMap (Turn.calls event) ++ [.name entry (.returned name)])
        (.next (.asking name entry rest))
  | handling {turns : List (Turn H)} {entry : Subscription H} {rest : List (Subscription H)}
      {name : String} (split : turns.map (·.entry) ++ entry :: rest = entries) :
      SoFar event entries (turns.flatMap (Turn.calls event) ++
        [.name entry (.returned name), .interest entry (.returned true)])
        (.next (.handling name entry rest))
  | reporting {turns : List (Turn H)} {turn : Turn H} {rest : List (Subscription H)}
      {failure : BusError} (split : turns.map (·.entry) ++ turn.entry :: rest = entries)
      (failed : turn.failure? = some failure) :
      SoFar event entries (turns.flatMap (Turn.calls event) ++ turn.tried)
        (.next (.reporting failure rest))
  | reportingMark {turns : List (Turn H)} {source : StoreError}
      (all : turns.map (·.entry) = entries) :
      SoFar event entries
        (turns.flatMap (Turn.calls event) ++ [.mark event.id (.returned (.error source))])
        (.next (.reportingMark (.persistence .markProcessed source)))
  /-- it has come to its end -/
  | finished {turns : List (Turn H)} {mark : Except StoreError Unit}
      (all : turns.map (·.entry) = entries) :
      SoFar event entries (itinerary event turns mark) .finished
  /-- a panic has killed it -/
  | killed {calls : List (Call H)} {phase : Phase H} {call : Call H}
      (before : SoFar event entries calls (.next phase))
      (waits : phase.call? event call.reply = some call) (kills : call.kills = true) :
      SoFar event entries (calls ++ [call]) .killed

namespace SoFar

variable {event : Event} {entries : List (Subscription H)} {calls : List (Call H)} {phase : Phase H}
  {progress : Progress H} {told : List (WorkerNotice H)} {call : Call H}

theorem start (event : Event) (entries : List (Subscription H)) :
    SoFar event entries [] (.next (Phase.turnTo entries)) :=
  @turning _ event entries [] entries rfl

/-- When a turn is over the worker turns to the rest. -/
theorem turned {turns : List (Turn H)} {rest : List (Subscription H)} (turn : Turn H)
    (split : turns.map (·.entry) ++ turn.entry :: rest = entries)
    (same : calls = turns.flatMap (Turn.calls event) ++ turn.calls event) :
    SoFar event entries calls (.next (Phase.turnTo rest)) := by
  have whole : calls = (turns ++ [turn]).flatMap (Turn.calls event) := by simpa using same
  rw [whole]
  exact .turning (by simpa using split)

/-- When a turn has failed the worker reports that. -/
theorem failing {turns : List (Turn H)} {rest : List (Subscription H)} (turn : Turn H)
    {failure : BusError} (split : turns.map (·.entry) ++ turn.entry :: rest = entries)
    (failed : turn.failure? = some failure)
    (same : calls = turns.flatMap (Turn.calls event) ++ turn.tried) :
    SoFar event entries calls (.next (.reporting failure rest)) := by
  rw [same]
  exact .reporting split failed

/-- **A worker makes the calls of its turns.** Each call leads on from where the worker stands. -/
theorem snoc (soFar : SoFar event entries calls (.next phase))
    (waits : phase.call? event call.reply = some call)
    (goes : phase.step event call.reply = some (progress, told)) :
    SoFar event entries (calls ++ [call]) progress := by
  by_cases kills : call.kills = true
  · obtain ⟨other, heard, -, kill⟩ := Phase.call_of_step goes
    obtain rfl := Option.some.inj (heard.symm.trans waits)
    rw [kill.mpr kills]
    exact .killed soFar waits kills
  -- what is left are the ends from which the worker goes on
  cases soFar with
  | @turning turns rest split =>
    cases rest with
    | nil =>
      rw [List.append_nil] at split
      cases call with
      | mark _ outcome =>
        cases waits
        rcases outcome with (source | ⟨⟨⟩⟩) | message
        · cases goes
          exact .reportingMark split
        · cases goes
          exact @SoFar.finished _ _ _ turns (.ok ()) split
        · exact absurd rfl kills
      | _ => cases waits
    | cons entry rest =>
      cases call with
      | name _ outcome =>
        cases waits
        cases outcome with
        | returned name =>
          cases goes
          exact .asking split
        | panicked => exact absurd rfl kills
      | _ => cases waits
  | @asking turns entry rest name split =>
    cases call with
    | interest _ outcome =>
      cases waits
      rcases outcome with (_ | _) | message
      · cases goes
        exact turned ⟨entry, name, .declined⟩ split (List.append_assoc ..)
      · cases goes
        rw [List.append_assoc]
        exact .handling split
      · cases goes
        exact failing ⟨entry, name, .checkPanicked message⟩ split rfl (List.append_assoc ..)
    | _ => cases waits
  | @handling turns entry rest name split =>
    cases call with
    | handler _ outcome =>
      cases waits
      rcases outcome with (source | ⟨⟨⟩⟩) | message
      · cases goes
        exact failing ⟨entry, name, .failed source⟩ split rfl (List.append_assoc ..)
      · cases goes
        exact turned ⟨entry, name, .handled⟩ split (List.append_assoc ..)
      · cases goes
        exact failing ⟨entry, name, .panicked message⟩ split rfl (List.append_assoc ..)
    | _ => cases waits
  | @reporting turns turn rest failure split failed =>
    cases call with
    | report _ outcome =>
      cases waits
      cases outcome with
      | returned =>
        cases goes
        exact turned turn split (by simp [Turn.calls, failed, report])
      | panicked => exact absurd rfl kills
    | _ => cases waits
  | @reportingMark turns source all =>
    cases call with
    | report _ outcome =>
      cases waits
      cases outcome with
      | returned =>
        cases goes
        rw [List.append_assoc]
        exact @SoFar.finished _ _ _ turns (.error source) all
      | panicked => exact absurd rfl kills
    | _ => cases waits

theorem started (soFar : SoFar event entries calls (.next phase)) : phase ≠ .spawned := by
  cases soFar with
  | @turning _ rest => cases rest <;> exact nofun
  | _ => exact nofun

/-- A part of a turn comes after the turns before it. -/
theorem prefix_itinerary (turns : List (Turn H)) (turn : Turn H) (more : List (Turn H))
    (mark : Except StoreError Unit) {part : List (Call H)} (begins : part <+: turn.calls event) :
    turns.flatMap (Turn.calls event) ++ part <+: itinerary event (turns ++ turn :: more) mark := by
  rw [itinerary, List.flatMap_append, List.flatMap_cons, List.append_assoc, List.append_assoc]
  exact (List.prefix_append_right_inj _).mpr (begins.trans (List.prefix_append ..))

/-- A worker that has not ended waits for the next call of an itinerary. -/
theorem next_call (soFar : SoFar event entries calls (.next phase)) :
    ∃ call turns mark, phase.call? event call.reply = some call ∧ turns.map (·.entry) = entries ∧
      calls ++ [call] <+: itinerary event turns mark := by
  -- the turns to come may come out in any way, say that nobody is interested
  let idle (rest : List (Subscription H)) : List (Turn H) := rest.map (⟨·, "", .declined⟩)
  have all {turns : List (Turn H)} {rest : List (Subscription H)} (turn : Turn H)
      (split : turns.map (·.entry) ++ turn.entry :: rest = entries) :
      (turns ++ turn :: idle rest).map (·.entry) = entries := by
    simpa [idle, Function.comp_def] using split
  cases soFar with
  | @turning turns rest split =>
    cases rest with
    | nil =>
      rw [List.append_nil] at split
      exact ⟨.mark event.id (.returned (.ok ())), turns, .ok (), rfl, split, List.prefix_refl _⟩
    | cons entry rest =>
      refine ⟨.name entry (.returned ""), _, .ok (), rfl, all ⟨entry, "", .declined⟩ split,
        prefix_itinerary turns _ _ _ ?_⟩
      exact ⟨[.interest entry (.returned false)], rfl⟩
  | @asking turns entry rest name split =>
    refine ⟨.interest entry (.returned false), _, .ok (), rfl,
      all ⟨entry, name, .declined⟩ split, ?_⟩
    rw [List.append_assoc]
    exact prefix_itinerary turns _ _ _ (List.prefix_refl _)
  | @handling turns entry rest name split =>
    refine ⟨.handler entry (.returned (.ok ())), _, .ok (), rfl,
      all ⟨entry, name, .handled⟩ split, ?_⟩
    rw [List.append_assoc]
    exact prefix_itinerary turns _ _ _ (List.prefix_refl _)
  | @reporting turns turn rest failure split failed =>
    refine ⟨.report (.of event failure) (.returned ()), _, .ok (), rfl, all turn split, ?_⟩
    rw [List.append_assoc]
    refine prefix_itinerary turns _ _ _ ?_
    rw [Turn.calls, failed]
    exact List.prefix_refl _
  | @reportingMark turns source all =>
    refine ⟨.report (.of event (.persistence .markProcessed source)) (.returned ()), turns,
      .error source, rfl, all, ?_⟩
    rw [List.append_assoc]
    exact List.prefix_refl _

/-- No call of an itinerary kills the worker. -/
theorem guarded {turns : List (Turn H)} {mark : Except StoreError Unit} {call : Call H}
    (hc : call ∈ itinerary event turns mark) : call.kills = false := by
  have reported {failure : Option BusError} (hc : call ∈ report event failure) :
      call.kills = false := by
    obtain ⟨_, -, rfl⟩ := List.mem_map.mp hc
    rfl
  rcases List.mem_append.mp hc with hc | hc
  · obtain ⟨⟨entry, name, verdict⟩, -, hc⟩ := List.mem_flatMap.mp hc
    rcases List.mem_append.mp hc with hc | hc
    · cases verdict <;> simp [Turn.tried, Verdict.calls] at hc <;> grind [Call.kills]
    · exact reported hc
  · rcases List.mem_cons.mp hc with rfl | hc
    · rfl
    · exact reported hc

/-- A panic has killed the worker if one of its calls was not guarded. -/
theorem killed_iff (soFar : SoFar event entries calls progress) :
    progress = .killed ↔ ∃ call ∈ calls, call.kills = true := by
  cases progress with
  | next phase =>
    refine ⟨nofun, ?_⟩
    rintro ⟨call, hc, kills⟩
    obtain ⟨_, turns, mark, -, -, begins⟩ := soFar.next_call
    rw [guarded (begins.subset (List.mem_append_left _ hc))] at kills
    cases kills
  | finished =>
    refine ⟨nofun, ?_⟩
    rintro ⟨call, hc, kills⟩
    cases soFar with
    | finished =>
      rw [guarded hc] at kills
      cases kills
  | killed =>
    cases soFar with
    | killed before waits kills =>
      exact iff_of_true rfl ⟨_, List.mem_append_right _ (List.mem_singleton_self _), kills⟩

end SoFar

end DomainEvents.Bus
