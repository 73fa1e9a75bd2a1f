import DomainEvents.Proofs.Bus.Worker

/-!
# The handlers that a worker calls

Of the calls of a worker some are runs of handlers, and a worker gives notice of each before it is
made. What notices tell can be read off the calls of the worker (`Account.read`), so the handlers
that were called for an event are known from the turns of its worker (`Block`): a worker that has
come to its end has called the handlers that were interested, in the order of their subscriptions;
one that has not got so far, or was killed on its way, has called the first of them.
-/

namespace DomainEvents.Bus

variable {H : Type}

/-! ## Runs of handlers among calls and notices -/

/-- The subscription whose handler is called, if one is. -/
def WorkerNotice.called? : WorkerNotice H → Option (Subscription H)
  | .called entry => some entry
  | _ => none

/-- The subscription whose handler is run, if one is. -/
def Call.called? : Call H → Option (Subscription H)
  | .handler entry _ => some entry
  | _ => none

theorem Call.filterMap_told (call : Call H) :
    call.told.filterMap WorkerNotice.called? = call.called?.toList := by
  fun_cases Call.told <;> rfl

theorem Call.called?_of_kills {call : Call H} (kills : call.kills = true) :
    call.called? = none := by
  cases call with
  | handler => cases kills
  | _ => rfl

/-- The notice of a handler's call comes before the end of the call. -/
theorem Phase.called?_of_call? {event : Event} {phase : Phase H} {reply : Reply} {call : Call H}
    (waits : phase.call? event reply = some call) :
    (phase.opened event).filterMap WorkerNotice.called? = call.called?.toList := by
  revert waits
  fun_cases Phase.call?
  all_goals intro waits; cases waits
  all_goals rfl

/-- How the interest check of a handler has ended. -/
def Verdict.check : Verdict → Outcome Bool
  | .declined => .returned false
  | .checkPanicked message => .panicked message
  | .handled | .failed _ | .panicked _ => .returned true

/-- Whether a handler has said that it is interested. -/
def Verdict.interested (verdict : Verdict) : Bool := verdict.check = .returned true

/-- The subscriptions whose handlers were interested when it was their turn. -/
def interested (turns : List (Turn H)) : List (Subscription H) :=
  (turns.filter (·.verdict.interested)).map (·.entry)

theorem interested_cons (turn : Turn H) (turns : List (Turn H)) :
    interested (turn :: turns) =
      (if turn.verdict.interested then [turn.entry] else []) ++ interested turns := by
  rw [interested, List.filter_cons]
  split <;> rfl

theorem called_report (event : Event) (failure : Option BusError) :
    (report event failure : List (Call H)).filterMap Call.called? = [] := by
  cases failure <;> rfl

theorem Turn.called (event : Event) (turn : Turn H) :
    (turn.calls event).filterMap Call.called? =
      if turn.verdict.interested then [turn.entry] else [] := by
  rw [Turn.calls, List.filterMap_append, called_report, List.append_nil]
  obtain ⟨entry, name, verdict⟩ := turn
  cases verdict <;> rfl

/-- Turns run the handlers that are interested. -/
theorem called_turns (event : Event) (turns : List (Turn H)) :
    (turns.flatMap (Turn.calls event)).filterMap Call.called? = interested turns := by
  induction turns with
  | nil => rfl
  | cons turn turns ih =>
    rw [List.flatMap_cons, List.filterMap_append, ih, Turn.called, interested_cons]

/-- A worker that comes to its end runs the handlers that are interested. -/
theorem called_itinerary (event : Event) (turns : List (Turn H)) (mark : Except StoreError Unit) :
    (itinerary event turns mark).filterMap Call.called? = interested turns := by
  have after : (Call.mark event.id (.returned mark) :: report event (markFailure? mark) :
      List (Call H)).filterMap Call.called? = [] := called_report _ _
  rw [itinerary, List.filterMap_append, after, List.append_nil, called_turns]

/-- In each turn the handler is asked for its interest. -/
theorem Turn.interest_mem (event : Event) (turn : Turn H) :
    .interest turn.entry turn.verdict.check ∈ turn.calls event := by
  obtain ⟨entry, name, verdict⟩ := turn
  cases verdict <;> simp [Turn.calls, tried, Verdict.calls, Verdict.check]

/-- The calls of a turn in which its handler is asked and run are among the calls of the worker. -/
theorem verdict_calls_mem {event : Event} {turns : List (Turn H)} {turn : Turn H}
    (there : turn ∈ turns) {call : Call H} (made : call ∈ turn.verdict.calls turn.entry) :
    call ∈ turns.flatMap (Turn.calls event) :=
  List.mem_flatMap.mpr ⟨turn, there, List.mem_append_left _ (List.mem_cons_of_mem _ made)⟩

theorem name_mem {event : Event} {turns : List (Turn H)} {turn : Turn H} (there : turn ∈ turns) :
    .name turn.entry (.returned turn.name) ∈ turns.flatMap (Turn.calls event) :=
  List.mem_flatMap.mpr ⟨turn, there, List.mem_cons_self⟩

/-- If interest depends on nothing but the subscription, the handlers that were interested are
known from the subscriptions. -/
theorem interested_eq_filter {event : Event} {turns : List (Turn H)} {mark : Except StoreError Unit}
    (check : Subscription H → Bool)
    (pure : ∀ entry outcome, .interest entry outcome ∈ itinerary event turns mark →
      (check entry = true ↔ outcome = .returned true)) :
    interested turns = (turns.map (·.entry)).filter check := by
  rw [interested, List.filter_map]
  refine congrArg (List.map _) (List.filter_congr ?_)
  intro turn there
  have asked : .interest turn.entry turn.verdict.check ∈ itinerary event turns mark :=
    List.mem_append_left _ (List.mem_flatMap.mpr ⟨turn, there, turn.interest_mem event⟩)
  exact Bool.eq_iff_iff.mpr (decide_eq_true_iff.trans (pure _ _ asked).symm)

/-! ## The handlers called for an event -/

/-- The subscriptions whose handlers were called for an event, the first to be called first. -/
def History.calledFor (t : Nat) (h : History H) : List (Subscription H) :=
  (h.toldBy t).filterMap (·.2.called?)

namespace Pool

variable {h : History H} {p : Pool H} {d : Dispatch} {entries : List (Subscription H)}
  {calls : List (Call H)} {progress : Progress H}

/-- What is read off the notices of a worker can be read off its calls. -/
theorem Account.read {α : Type} (account : Account entries d calls progress h p)
    {f : WorkerNotice H → Option α} {g : Call H → Option α}
    (tells : ∀ call, call.told.filterMap f = (g call).toList) :
    (h.toldBy d.ticket).filterMap (fun told => f told.2) =
      calls.filterMap g ++ (progress.opened d.event).filterMap f := by
  rw [account.told, List.filterMap_map, List.filterMap_append]
  refine congrArg (· ++ _) ?_
  rw [List.filterMap_eq_flatMap_toList g]
  exact (List.filterMap_flatMap ..).trans (congrArg (List.flatMap · calls) (funext tells))

theorem Account.calledFor (account : Account entries d calls progress h p) :
    h.calledFor d.ticket =
      calls.filterMap Call.called? ++ (progress.opened d.event).filterMap WorkerNotice.called? :=
  account.read Call.filterMap_told

theorem Account.calledFor_itinerary {turns : List (Turn H)} {mark : Except StoreError Unit}
    (account : Account entries d (itinerary d.event turns mark) .finished h p) :
    h.calledFor d.ticket = interested turns := by
  have called := account.calledFor
  rw [called_itinerary] at called
  exact called.trans (List.append_nil _)

/-- How the handlers that were called for an event come from the turns of its worker. -/
inductive Block (h : History H) (p : Pool H) (d : Dispatch) (turns : List (Turn H))
    (mark : Except StoreError Unit) : List (Subscription H) → Prop where
  /-- the worker has come to its end, and all that were interested were called -/
  | whole (heard : h.heard d.ticket = (itinerary d.event turns mark).map Call.reply)
      (ended : .ended d false ∈ h.notices) : Block h p d turns mark (interested turns)
  /-- the run has come to its end before the worker; `call` is what the worker waits for -/
  | unfinished {calls : List (Call H)} {call : Call H} {phase : Phase H}
      (heard : h.heard d.ticket = calls.map Call.reply)
      (waits : phase.call? d.event call.reply = some call)
      (begins : calls ++ [call] <+: itinerary d.event turns mark)
      (there : p.worker? d.ticket = some ⟨d, phase⟩) :
      Block h p d turns mark ((calls ++ [call]).filterMap Call.called?)
  /-- a panic of `call`, which was not guarded, has killed the worker -/
  | killed {first : List (Call H)} {call next : Call H}
      (heard : h.heard d.ticket = (first ++ [call]).map Call.reply) (kills : call.kills = true)
      (alike : call.Alike next) (begins : first ++ [next] <+: itinerary d.event turns mark)
      (ended : .ended d true ∈ h.notices) :
      Block h p d turns mark (first.filterMap Call.called?)

/-- The handlers that were called are the first of those that were interested. -/
theorem Block.prefix_interested {turns : List (Turn H)} {mark : Except StoreError Unit}
    {l : List (Subscription H)} (block : Block h p d turns mark l) : l <+: interested turns := by
  cases block with
  | whole => exact List.prefix_refl _
  | unfinished _ _ begins =>
    rw [← called_itinerary d.event turns mark]
    exact begins.filterMap _
  | killed _ _ _ begins =>
    rw [← called_itinerary d.event turns mark]
    exact ((List.prefix_append ..).trans begins).filterMap _

/-- The account of a worker tells which handlers were called for its event. -/
theorem Account.block (account : Account entries d calls progress h p) :
    ∃ turns mark, turns.map (·.entry) = entries ∧
      Block h p d turns mark (h.calledFor d.ticket) := by
  have called := account.calledFor
  have heard := account.heard
  have stands := account.stands
  cases progress with
  | next phase =>
    obtain ⟨call, turns, mark, waits, all, begins⟩ := account.soFar.next_call
    refine ⟨turns, mark, all, ?_⟩
    have whole : h.calledFor d.ticket = (calls ++ [call]).filterMap Call.called? := by
      rw [called, Progress.opened, Phase.called?_of_call? waits, List.filterMap_append,
        List.filterMap_cons]
      cases call.called? <;> rfl
    rw [whole]
    exact .unfinished heard waits begins stands
  | finished =>
    cases account.soFar with
    | @finished turns mark all =>
      refine ⟨turns, mark, all, ?_⟩
      rw [account.calledFor_itinerary]
      exact .whole heard stands
  | killed =>
    cases account.soFar with
    | @killed first phase call before waits kills =>
      obtain ⟨next, turns, mark, known, all, begins⟩ := before.next_call
      refine ⟨turns, mark, all, ?_⟩
      have silent : [call].filterMap Call.called? = [] := by
        rw [List.filterMap_cons, Call.called?_of_kills kills]
        rfl
      rw [List.filterMap_append, silent, List.append_nil] at called
      replace called := called.trans (List.append_nil _)
      rw [called]
      exact .killed heard kills ⟨_, phase, waits, known⟩ begins stands

end Pool

end DomainEvents.Bus
