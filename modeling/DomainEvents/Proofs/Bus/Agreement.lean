import DomainEvents.Proofs.Bus.Delivering
import DomainEvents.Proofs.Bus.Draining

/-!
# Two buses, one event

A bus without a queue and a bus with workers go through the same subscriptions in two ways. A
delivery stops at the first handler that fails and gives the failure to the publisher. A worker
calls all handlers that are interested and hands each failure to the error callback. `Conduct` says
how the handlers go about an event, so that what each bus gives notice of can be compared: a
delivery calls the first of those whom a worker calls, up to the first that fails, and the failure
that it gives to the publisher is the first that the worker reports. On both sides it follows from
the turns, each of which comes out as the handlers say (`Conduct.eq_verdict`).
-/

namespace DomainEvents.Bus

variable {H : Type}

/-! ## How handlers go about an event -/

/-- How handlers go about one event: the name that each tells, whether it is interested, and how it
comes to its end when it is called. None of them panics, and none minds what the others do. -/
structure Conduct (H : Type) where
  name : H → String
  interested : Subscription H → Bool
  outcome : Subscription H → Except HandlerError Unit

namespace Conduct

variable (conduct : Conduct H)

/-- Whether a call of a worker ends as the handlers say. The error callback and the store do not
panic either, but the store may fail. -/
def Ends : Call H → Prop
  | .name entry outcome => outcome = .returned (conduct.name entry.handler)
  | .interest entry outcome => outcome = .returned (conduct.interested entry)
  | .handler entry outcome => outcome = .returned (conduct.outcome entry)
  | .report _ outcome => outcome = .returned ()
  | .mark _ outcome => ∃ result, outcome = .returned result

/-- Whether what a bus without a queue gives notice of is as the handlers say. -/
def Tells : DirectNotice H → Prop
  | .asked _ entry interested => interested = conduct.interested entry
  | .called _ entry result => result = conduct.outcome entry
  | _ => True

/-- The failure of a handler that is called, if it fails. -/
def failure? (entry : Subscription H) : Option BusError :=
  match conduct.outcome entry with
  | .ok () => none
  | .error source => some (.handler (conduct.name entry.handler) source)

/-! ## What a delivery and a worker have in common -/

/-- What a delivery has called and answered, beside the handlers that a worker has called and the
failures that it has reported. -/
inductive Matches (worker : List (Subscription H)) (reports : List BusError) :
    List (Subscription H) → Except BusError Unit → Prop where
  /-- no handler fails, and the delivery has called them all -/
  | success (succeed : ∀ entry ∈ worker, conduct.outcome entry = .ok ()) (none : reports = []) :
      Matches worker reports worker (.ok ())
  /-- the delivery has called the handlers up to the first that fails -/
  | failure {before after : List (Subscription H)} {entry : Subscription H}
      {source : HandlerError} (split : worker = before ++ entry :: after)
      (succeed : ∀ entry ∈ before, conduct.outcome entry = .ok ())
      (fails : conduct.outcome entry = .error source)
      (first : reports.head? = some (.handler (conduct.name entry.handler) source)) :
      Matches worker reports (before ++ [entry])
        (.error (.handler (conduct.name entry.handler) source))

variable {conduct} in
/-- A delivery calls the first of those whom a worker calls. -/
theorem Matches.begins {worker called : List (Subscription H)} {reports : List BusError}
    {answer : Except BusError Unit} (same : conduct.Matches worker reports called answer) :
    called <+: worker := by
  cases same with
  | success => exact List.prefix_refl _
  | @failure before after entry source split =>
    rw [split]
    exact ⟨after, by simp⟩

theorem failure?_eq_none_iff {entry : Subscription H} :
    conduct.failure? entry = none ↔ conduct.outcome entry = .ok () := by
  rw [failure?]
  rcases conduct.outcome entry with source | ⟨⟨⟩⟩ <;> simp

/-! ## Turns -/

/-- How the turn of a subscription comes out. -/
def verdict (entry : Subscription H) : Verdict :=
  if conduct.interested entry then
    match conduct.outcome entry with
    | .ok () => .handled
    | .error source => .failed source
  else .declined

/-- The turn of a subscription. -/
def turn (entry : Subscription H) : Turn H :=
  ⟨entry, conduct.name entry.handler, conduct.verdict entry⟩

/-- How a turn comes out is known from the calls in which its handler is asked and run. -/
theorem eq_verdict {entry : Subscription H} {verdict : Verdict}
    (ends : ∀ call ∈ verdict.calls entry, conduct.Ends call) : verdict = conduct.verdict entry := by
  have asks {outcome : Outcome Bool} (call : .interest entry outcome ∈ verdict.calls entry) :
      outcome = .returned (conduct.interested entry) := ends (.interest entry outcome) call
  have runs {outcome : Outcome (Except HandlerError Unit)}
      (call : .handler entry outcome ∈ verdict.calls entry) :
      outcome = .returned (conduct.outcome entry) := ends (.handler entry outcome) call
  rw [Conduct.verdict]
  cases verdict with
  | declined =>
    rw [← Outcome.returned.inj (asks List.mem_cons_self)]
    rfl
  | checkPanicked => cases asks List.mem_cons_self
  | handled =>
    rw [← Outcome.returned.inj (asks List.mem_cons_self),
      ← Outcome.returned.inj (runs (List.mem_cons_of_mem _ List.mem_cons_self))]
    rfl
  | failed source =>
    rw [← Outcome.returned.inj (asks List.mem_cons_self),
      ← Outcome.returned.inj (runs (List.mem_cons_of_mem _ List.mem_cons_self))]
    rfl
  | panicked => cases runs (List.mem_cons_of_mem _ List.mem_cons_self)

/-- Turns whose calls end as the handlers say are known from their subscriptions. -/
theorem eq_turns {turns : List (Turn H)}
    (named : ∀ turn ∈ turns, turn.name = conduct.name turn.entry.handler)
    (ends : ∀ turn ∈ turns, ∀ call ∈ turn.verdict.calls turn.entry, conduct.Ends call) :
    turns = (turns.map (·.entry)).map conduct.turn := by
  rw [List.map_map]
  refine (List.map_id turns).symm.trans (List.map_congr_left ?_)
  intro turn there
  show turn = conduct.turn turn.entry
  rw [Conduct.turn, ← named turn there, ← conduct.eq_verdict (ends turn there)]

theorem interested_turn (entry : Subscription H) :
    (conduct.turn entry).verdict.interested = conduct.interested entry := by
  show (conduct.verdict entry).interested = _
  rw [verdict]
  cases conduct.interested entry with
  | false => rfl
  | true => rcases conduct.outcome entry with _ | ⟨⟨⟩⟩ <;> rfl

theorem failure?_turn (entry : Subscription H) :
    (conduct.turn entry).failure? =
      if conduct.interested entry then conduct.failure? entry else none := by
  show (conduct.verdict entry).failure? _ = _
  rw [verdict, failure?]
  cases conduct.interested entry with
  | false => rfl
  | true => rcases conduct.outcome entry with _ | ⟨⟨⟩⟩ <;> rfl

/-- A worker calls those who are interested. -/
theorem interested_turns (entries : List (Subscription H)) :
    Bus.interested (entries.map conduct.turn) = entries.filter conduct.interested := by
  induction entries with
  | nil => rfl
  | cons entry rest ih =>
    rw [List.map_cons, interested_cons, ih, interested_turn, List.filter_cons]
    cases conduct.interested entry <;> rfl

/-- A worker reports the failures of those whom it calls. -/
theorem failures_turns (entries : List (Subscription H)) :
    (entries.map conduct.turn).filterMap Turn.failure? =
      (entries.filter conduct.interested).filterMap conduct.failure? := by
  rw [List.filterMap_map, List.filterMap_filter]
  exact List.filterMap_congr fun entry _ => conduct.failure?_turn entry

/-- A turn fails if its handler is interested and fails. -/
theorem failed_iff {entry : Subscription H} {source : HandlerError} :
    conduct.verdict entry = .failed source ↔
      conduct.interested entry = true ∧ conduct.outcome entry = .error source := by
  rw [verdict]
  cases conduct.interested entry with
  | false => simp
  | true => rcases conduct.outcome entry with other | ⟨⟨⟩⟩ <;> simp

/-- The end of a call is as the handlers say if what there is notice of is. -/
theorem ends_of_tells {d : Dispatch} {call : Call H} (heard : call.heard d ≠ [])
    (tells : ∀ n ∈ call.heard d, conduct.Tells n) : conduct.Ends call := by
  cases call with
  | interest entry outcome =>
    cases outcome with
    | returned interested =>
      have same : interested = conduct.interested entry :=
        tells (.asked d entry interested) (List.mem_singleton_self _)
      exact congrArg _ same
    | panicked => exact absurd rfl heard
  | handler entry outcome =>
    cases outcome with
    | returned result =>
      have same : result = conduct.outcome entry :=
        tells (.called d entry result) (List.mem_singleton_self _)
      exact congrArg _ same
    | panicked => exact absurd rfl heard
  | _ => exact absurd rfl heard

/-- How a delivery has come to its answer in turns that come out as the handlers say, beside what a
worker does. -/
theorem matches_of_answers {entries : List (Subscription H)} {turns : List (Turn H)}
    {answer : Except BusError Unit} (answers : Delivery.Answers conduct.name entries turns answer)
    (known : turns = (turns.map (·.entry)).map conduct.turn) :
    conduct.Matches (entries.filter conduct.interested)
      ((entries.filter conduct.interested).filterMap conduct.failure?)
      (Bus.interested turns) answer := by
  cases answers with
  | success all succeed =>
    have silent : (entries.filter conduct.interested).filterMap conduct.failure? = [] := by
      rw [← conduct.failures_turns, ← all, ← known]
      exact List.filterMap_eq_nil_iff.mpr succeed
    rw [known, all, conduct.interested_turns]
    refine .success ?_ silent
    intro entry there
    exact conduct.failure?_eq_none_iff.mp (List.filterMap_eq_nil_iff.mp silent entry there)
  | @failure before entry rest source split succeed =>
    rw [List.map_append, List.map_append] at known
    obtain ⟨known, last⟩ := List.append_inj' known rfl
    have verdict : .failed source = conduct.verdict entry :=
      congrArg Turn.verdict (List.singleton_inj.mp last)
    obtain ⟨agrees, fails⟩ := conduct.failed_iff.mp verdict.symm
    have earlier : (before.map (·.entry)).filter conduct.interested = Bus.interested before := by
      rw [← conduct.interested_turns, ← known]
    have silent : (Bus.interested before).filterMap conduct.failure? = [] := by
      rw [← earlier, ← conduct.failures_turns, ← known]
      exact List.filterMap_eq_nil_iff.mpr succeed
    have called : Bus.interested (before ++ [⟨entry, conduct.name entry.handler, .failed source⟩]) =
        Bus.interested before ++ [entry] := by
      rw [Bus.interested, List.filter_append, List.map_append]
      rfl
    have failure : conduct.failure? entry =
        some (.handler (conduct.name entry.handler) source) := by
      rw [failure?, fails]
    rw [called, ← split, List.filter_append, earlier, List.filter_cons_of_pos agrees]
    refine .failure rfl ?_ fails ?_
    · intro other there
      exact conduct.failure?_eq_none_iff.mp (List.filterMap_eq_nil_iff.mp silent other there)
    · rw [List.filterMap_append, silent, List.nil_append, List.filterMap_cons, failure]
      rfl

end Conduct

/-! ## A call of publish on a bus without a queue -/

namespace Delivery

/-- How often a delivery has yet to hear of a handler, at most. -/
def work : Delivery H → Nat
  | .asking _ rest _ => 2 * rest.length + 2
  | .handling _ rest _ => 2 * rest.length + 1
  | .completed _ | .stopped _ _ => 0

theorem work_turnTo (count : Nat) (entries : List (Subscription H)) :
    (turnTo count entries).work = 2 * entries.length := by
  cases entries <;> rfl

/-- What is told of a delivery that has come to something says nothing of what handlers have said.
-/
theorem tells_notices (conduct : Conduct H) (delivery : Delivery H) (d : Dispatch) :
    ∀ n ∈ delivery.notices conduct.name d, conduct.Tells n := by
  cases delivery <;> simp [notices, result?, Conduct.Tells]

end Delivery

namespace Direct

open DirectNotice (about about_append about_self)

variable {conduct : Conduct H} {b c : Direct H} {d : Dispatch} {entries : List (Subscription H)}
  {first : List (DirectNotice H)} {during : List (DirectEntry H)} {calls : List (Call H)}
  {delivery : Delivery H}

/-- What a call of publish has called when it has its answer stands to the work of a worker as told.
-/
theorem Delivering.agrees
    (del : Delivering conduct.name d entries first during b calls delivery)
    (tells : ∀ n ∈ about d.ticket (first ++ noticesOf during), conduct.Tells n)
    {answer : Except BusError Unit}
    (answered : .answered d answer ∈ about d.ticket (first ++ noticesOf during)) :
    conduct.Matches (entries.filter conduct.interested)
      ((entries.filter conduct.interested).filterMap conduct.failure?)
      ((about d.ticket (first ++ noticesOf during)).filterMap DirectNotice.calling?) answer := by
  have run := Run.ofActions del.hears
  have result := (del.answered_iff answer).mp answered
  have heard := Delivery.heard_ne_nil run
  obtain ⟨turns, answers, rfl, named⟩ := Delivery.answers_of_run run result
  have silent : (delivery.notices conduct.name d).filterMap DirectNotice.calling? = [] := by
    cases delivery with
    | asking | handling => cases result
    | completed | stopped => rfl
  rw [del.tells] at tells ⊢
  rw [List.filterMap_append, silent, List.append_nil, Delivery.calling_transcript]
  refine conduct.matches_of_answers answers (conduct.eq_turns named ?_)
  intro turn there call made
  have among : call ∈ turns.flatMap Delivery.callsOf := List.mem_flatMap.mpr ⟨turn, there, made⟩
  refine conduct.ends_of_tells (heard call among d) fun n told => tells n ?_
  refine List.mem_append_left _ (List.mem_flatMap.mpr ⟨call, among, ?_⟩)
  exact List.mem_append_right _ told

variable [DecidableEq H]

/-- A call of publish that waits for a handler hears of it what the handler says, and has less to
hear after that. -/
theorem can_go (conduct : Conduct H) (waits : b.call? d.ticket = some ⟨d, delivery⟩)
    (goesOn : delivery.result? conduct.name = none) :
    ∃ action said next, b.step conduct.name action =
        some ((b.proceed conduct.name d next).1, said :: next.notices conduct.name d) ∧
      conduct.Tells said ∧ said.dispatch = d ∧ next.work < delivery.work := by
  cases delivery with
  | asking entry rest count =>
    refine ⟨.asked d.ticket (conduct.interested entry), .asked d entry (conduct.interested entry),
      (Delivery.asking entry rest count).asked (conduct.interested entry), ?_, rfl, rfl, ?_⟩
    · rw [step, waits]
      rfl
    · cases conduct.interested entry with
      | false =>
        have turned := Delivery.work_turnTo count rest
        exact turned.trans_lt (Nat.lt_succ_of_lt (Nat.lt_succ_self _))
      | true => exact Nat.lt_succ_self _
  | handling entry rest count =>
    refine ⟨.handled d.ticket (conduct.outcome entry), .called d entry (conduct.outcome entry),
      (Delivery.handling entry rest count).handled (conduct.outcome entry), ?_, rfl, rfl, ?_⟩
    · rw [step, waits]
      rfl
    · rcases conduct.outcome entry with source | ⟨⟨⟩⟩
      · exact Nat.succ_pos _
      · have turned := Delivery.work_turnTo (count + 1) rest
        exact turned.trans_lt (Nat.lt_succ_self _)
  | completed | stopped => cases goesOn

/-- A call of publish can go on, with handlers that do as they say, until it has its answer. -/
theorem can_end (conduct : Conduct H) (waits : b.call? d.ticket = some ⟨d, delivery⟩)
    (goesOn : delivery.result? conduct.name = none) :
    ∃ more c answer, Run (tick conduct.name) b more c ∧
      (∀ n ∈ about d.ticket (noticesOf more), conduct.Tells n) ∧
      .answered d answer ∈ about d.ticket (noticesOf more) := by
  -- by induction on what the delivery has yet to hear
  induction work : delivery.work using Nat.strongRecOn generalizing b delivery with
  | ind n ih =>
    obtain ⟨action, said, next, goes, tells, own, less⟩ := can_go conduct waits goesOn
    have step : Run (tick conduct.name) b [⟨action, said :: next.notices conduct.name d⟩]
        (b.proceed conduct.name d next).1 := .single (by rw [tick, goes]; rfl)
    have told : about d.ticket (said :: next.notices conduct.name d) =
        said :: next.notices conduct.name d :=
      about_self (List.forall_mem_cons.mpr ⟨own, Delivery.dispatch_of_notices⟩)
    have sayings : ∀ n ∈ said :: next.notices conduct.name d, conduct.Tells n :=
      List.forall_mem_cons.mpr ⟨tells, Delivery.tells_notices conduct next d⟩
    have stands := call?_proceed conduct.name b d next d.ticket
    rw [if_pos rfl, standing] at stands
    rcases result : next.result? conduct.name with _ | answer
    · rw [result] at stands
      obtain ⟨more, c, answer, later, others, answered⟩ := ih _ (work ▸ less) stands result rfl
      have whole : about d.ticket
          (noticesOf (⟨action, said :: next.notices conduct.name d⟩ :: more)) =
          said :: next.notices conduct.name d ++ about d.ticket (noticesOf more) := by
        rw [noticesOf, List.flatMap_cons, about_append, told, ← noticesOf]
      refine ⟨_, c, answer, step.trans later, ?_, ?_⟩
      · rw [List.singleton_append, whole]
        exact List.forall_mem_append.mpr ⟨sayings, others⟩
      · rw [List.singleton_append, whole]
        exact List.mem_append_right _ answered
    · have whole : about d.ticket (noticesOf [⟨action, said :: next.notices conduct.name d⟩]) =
          said :: next.notices conduct.name d := by
        rw [noticesOf, List.flatMap_singleton, told]
      refine ⟨_, _, answer, step, ?_, ?_⟩
      · rw [whole]
        exact sayings
      · rw [whole]
        exact List.mem_cons_of_mem _ (Delivery.answered_mem_notices.mpr result)

/-- A call of publish that nobody has forsaken can come to its answer. -/
theorem Delivering.can_answer
    (del : Delivering conduct.name d entries first during b calls delivery)
    (unharmed : ∀ e ∈ during, e.action ≠ .forsake d.ticket) :
    ∃ more c answer, Run (tick conduct.name) b more c ∧
      (∀ n ∈ about d.ticket (noticesOf more), conduct.Tells n) ∧
      .answered d answer ∈ about d.ticket (first ++ noticesOf (during ++ more)) := by
  rcases result : delivery.result? conduct.name with _ | answer
  · have waits : b.call? d.ticket = standing conduct.name d delivery := by
      refine del.stands.resolve_right ?_
      rintro ⟨-, e, there, act⟩
      exact unharmed e there act
    rw [standing, result] at waits
    obtain ⟨more, c, answer, run, tells, answered⟩ := can_end conduct waits result
    refine ⟨more, c, answer, run, tells, ?_⟩
    rw [noticesOf, List.flatMap_append, ← List.append_assoc, about_append]
    exact List.mem_append_right _ answered
  · refine ⟨[], b, answer, .refl, List.forall_mem_nil _, ?_⟩
    rw [List.append_nil]
    exact (del.answered_iff answer).mpr result

/-- A call of publish refuses its event as malformed if the look at the event says so. -/
theorem malformed_iff {name : H → String} {ctx : Context} {event : Event}
    (goes : b.step name (.publish ctx event) = some (c, first)) (invalid : ValidationError) :
    (∃ d, .answered d (.error (.validation invalid)) ∈ first) ↔
      Delivery.start b.config b.registry.entries event = .error invalid := by
  cases Rule.of_step goes with
  | refuse check => simp [check, eq_comm]
  | begins check =>
    obtain rfl := Delivery.eq_turnTo_of_start check
    rw [check]
    refine ⟨?_, nofun⟩
    rintro ⟨d, there⟩
    exfalso
    generalize b.registry.entries = entries at there
    cases entries <;>
      simp [Delivery.turnTo, Delivery.notices, Delivery.result?] at there
  -- the other rules are not about a call that comes in
  | @hears _ d _ _ reply _ _ heard =>
    have hears : none = some reply := (heard d.ticket).trans (if_pos rfl)
    cases hears
  | register registers => cases registers

end Direct

/-! ## Reports -/

/-- Whether a failure is one of a handler. -/
def ofHandler : BusError → Bool
  | .handler _ _ | .handlerPanicked _ _ => true
  | _ => false

theorem Turn.ofHandler_failure? {turn : Turn H} {failure : BusError}
    (failed : turn.failure? = some failure) : ofHandler failure = true := by
  obtain ⟨entry, told, verdict⟩ := turn
  cases verdict <;> cases failed <;> rfl

/-- The failures of turns are failures of handlers. -/
theorem filter_ofHandler (turns : List (Turn H)) :
    (turns.filterMap Turn.failure?).filter ofHandler = turns.filterMap Turn.failure? := by
  refine List.filter_eq_self.mpr ?_
  intro failure there
  obtain ⟨turn, -, failed⟩ := List.mem_filterMap.mp there
  exact Turn.ofHandler_failure? failed

/-- The failure that is handed to the error callback, if one is. -/
def WorkerNotice.reported? : WorkerNotice H → Option BusError
  | .reported failure => some failure.error
  | _ => none

/-- The failure that is handed to the error callback, if one is. -/
def Call.reported? : Call H → Option BusError
  | .report failure _ => some failure.error
  | _ => none

theorem Call.filterMap_told_reported (call : Call H) :
    call.told.filterMap WorkerNotice.reported? = call.reported?.toList := by
  fun_cases Call.told <;> rfl

theorem reported_report (event : Event) (failure : Option BusError) :
    (report event failure : List (Call H)).filterMap Call.reported? = failure.toList := by
  cases failure <;> rfl

theorem Turn.reported (event : Event) (turn : Turn H) :
    (turn.calls event).filterMap Call.reported? = turn.failure?.toList := by
  rw [Turn.calls, List.filterMap_append, reported_report]
  obtain ⟨entry, name, verdict⟩ := turn
  cases verdict <;> rfl

/-- Turns report their failures. -/
theorem reported_turns (event : Event) (turns : List (Turn H)) :
    (turns.flatMap (Turn.calls event)).filterMap Call.reported? =
      turns.filterMap Turn.failure? := by
  rw [List.filterMap_flatMap, List.filterMap_eq_flatMap_toList Turn.failure?]
  exact congrArg (turns.flatMap ·) (funext (Turn.reported event))

/-- A worker that comes to its end reports the failures of its turns, and then that of the marking.
-/
theorem reported_itinerary (event : Event) (turns : List (Turn H))
    (mark : Except StoreError Unit) :
    (itinerary event turns mark).filterMap Call.reported? =
      turns.filterMap Turn.failure? ++ (markFailure? mark).toList := by
  have after : (Call.mark event.id (.returned mark) :: report event (markFailure? mark) :
      List (Call H)).filterMap Call.reported? = (markFailure? mark).toList := reported_report _ _
  rw [itinerary, List.filterMap_append, after, reported_turns]

/-- Of what a worker has reported when it is at its end, the failures of handlers are those of the
turns. -/
theorem reported_finished (event : Event) (turns : List (Turn H)) (mark : Except StoreError Unit) :
    ((itinerary event turns mark).filterMap Call.reported? ++
      ((Progress.finished : Progress H).opened event).filterMap
        WorkerNotice.reported?).filter ofHandler = turns.filterMap Turn.failure? := by
  have marked : (markFailure? mark).toList.filter ofHandler = [] := by
    rcases mark with source | ⟨⟨⟩⟩ <;> rfl
  have silent : ((Progress.finished : Progress H).opened event).filterMap
      WorkerNotice.reported? = [] := rfl
  rw [reported_itinerary, silent, List.append_nil, List.filter_append, marked, List.append_nil,
    filter_ofHandler]

/-- The failures of handlers that the worker of an event has reported, the first to come first. -/
def History.failuresFor (t : Nat) (h : History H) : List BusError :=
  ((h.toldBy t).filterMap (·.2.reported?)).filter ofHandler

/-! ## Validation -/

namespace Pool

open DirectNotice (about)

variable {h : History H} {p q : Pool H} {d : Dispatch} {notices : List (Notice H)}

/-- With equal settings both buses look at an event in the same way. -/
theorem check_eq_error_iff {direct : DirectConfig}
    (equal : p.config.validateEvents = direct.validateEvents) (entries : List (Subscription H))
    (event : Event) (invalid : ValidationError) :
    p.check event = .error invalid ↔ Delivery.start direct entries event = .error invalid := by
  rw [Delivery.start_eq, Pool.check, equal]
  cases (if direct.validateEvents then event.validate else .ok ()) <;> simp [Except.map]

variable [DecidableEq H]

/-- A pool that is open refuses an event as malformed if its look at the event says so. -/
theorem Rule.malformed_iff {ctx : Context} {event : Event}
    (rule : Rule p (.publish ctx event) q notices) (opened : p.closed = false)
    (invalid : ValidationError) :
    (∃ d, .answered d (.error (.validation invalid)) ∈ notices) ↔
      p.check event = .error invalid := by
  cases rule with
  | refuse _ why =>
    cases why with
    | closed closed =>
      rw [opened] at closed
      cases closed
    | malformed _ check => simp [check, eq_comm]
  | ask _ _ check => simp [check]
  | register _ changes => cases changes

/-! ## The work of a worker -/

omit [DecidableEq H] in
/-- A worker that has come to its end, with calls that end as the handlers say, has called those who
were interested and has reported the failures of those who failed. -/
theorem Account.follows {conduct : Conduct H} {entries : List (Subscription H)}
    {calls : List (Call H)} {progress : Progress H}
    (account : Account entries d calls progress h p) (gone : p.worker? d.ticket = none)
    (ends : ∀ call ∈ calls, conduct.Ends call) :
    h.calledFor d.ticket = entries.filter conduct.interested ∧
      h.failuresFor d.ticket = (entries.filter conduct.interested).filterMap conduct.failure? := by
  cases progress with
  | next phase =>
    have there : p.worker? d.ticket = some ⟨d, phase⟩ := account.stands
    rw [gone] at there
    cases there
  | killed =>
    -- no call that ends as the handlers say kills the worker
    obtain ⟨call, made, kills⟩ := account.soFar.killed_iff.mp rfl
    have ends := ends call made
    cases call with
    | name =>
      cases ends
      cases kills
    | report =>
      cases ends
      cases kills
    | mark =>
      obtain ⟨result, rfl⟩ := ends
      cases kills
    | _ => cases kills
  | finished =>
    cases account.soFar with
    | @finished turns mark all =>
      have made {call : Call H} (there : call ∈ turns.flatMap (Turn.calls d.event)) :
          conduct.Ends call := ends call (List.mem_append_left _ there)
      have known : turns = entries.map conduct.turn := by
        rw [← all]
        refine conduct.eq_turns ?_ fun turn there call asked => made (verdict_calls_mem there asked)
        exact fun turn there => Outcome.returned.inj (made (name_mem there))
      have reported := account.read Call.filterMap_told_reported
      refine ⟨?_, ?_⟩
      · rw [account.calledFor_itinerary, known, conduct.interested_turns]
      · rw [History.failuresFor, reported, reported_finished, known, conduct.failures_turns]

/-! ## To the end of a worker -/

omit [DecidableEq H] in
/-- What a worker waits for can end as the handlers say. -/
theorem exists_call_ends (conduct : Conduct H) (event : Event) {phase : Phase H}
    (started : phase ≠ .spawned) :
    ∃ call, phase.call? event call.reply = some call ∧ conduct.Ends call := by
  cases phase with
  | spawned => exact absurd rfl started
  | naming entry => exact ⟨.name entry (.returned (conduct.name entry.handler)), rfl, rfl⟩
  | asking _ entry => exact ⟨.interest entry (.returned (conduct.interested entry)), rfl, rfl⟩
  | handling _ entry => exact ⟨.handler entry (.returned (conduct.outcome entry)), rfl, rfl⟩
  | reporting failure => exact ⟨.report (.of event failure) (.returned ()), rfl, rfl⟩
  | marking => exact ⟨.mark event.id (.returned (.ok ())), rfl, _, rfl⟩
  | reportingMark failure => exact ⟨.report (.of event failure) (.returned ()), rfl, rfl⟩

/-- A call was made in the first step of a run, or in what comes after it. -/
theorem Made.of_cons {e : Entry H} {k : History H} {call : Call H}
    (step : p.step e.action = some (q, e.notices)) (made : Made p (e :: k) d call) :
    e.action = .reply d.ticket call.reply ∧ p.Waits d call ∨ Made q k d call := by
  obtain ⟨before, notices, after, m, cut, reach, waits⟩ := made
  cases before with
  | nil =>
    obtain ⟨rfl, -⟩ := List.cons.inj cut
    rw [eq_of_run_nil reach]
    exact .inl ⟨rfl, waits⟩
  | cons first before =>
    obtain ⟨rfl, rest⟩ := List.cons.inj cut
    obtain ⟨r, begins, later⟩ := run_cons reach
    obtain ⟨rfl, -⟩ := Prod.mk.inj (Option.some.inj (step.symm.trans begins))
    exact .inr ⟨before, notices, after, m, rest, later, waits⟩

/-- After the answer to the call for which a worker waits, a call that was made is that one, or was
made later. -/
theorem Made.of_reply {e : Dispatch} {phase : Phase H} {call other : Call H} {k : History H}
    (found : p.worker? d.ticket = some ⟨d, phase⟩)
    (waits : phase.call? d.event call.reply = some call)
    (step : p.step (.reply d.ticket call.reply) = some (q, notices))
    (made : Made p (⟨.reply d.ticket call.reply, notices⟩ :: k) e other) :
    other = call ∨ Made q k e other := by
  rcases Made.of_cons step made with ⟨same, phase', there, wanted⟩ | later
  · obtain ⟨ticket, reply⟩ := Action.reply.inj same
    rw [← ticket, found] at there
    obtain ⟨rfl, rfl⟩ := Worker.mk.inj (Option.some.inj there)
    rw [← reply, waits] at wanted
    exact .inl (Option.some.inj wanted).symm
  · exact .inr later

/-- A call was made in the first part of a run, or in the second. -/
theorem Made.of_append {k l : History H} {call : Call H} (run : Run Pool.tick p k q)
    (made : Made p (k ++ l) d call) : Made p k d call ∨ Made q l d call := by
  induction k generalizing p with
  | nil =>
    rw [← eq_of_run_nil run]
    exact .inr made
  | cons e k ih =>
    obtain ⟨r, step, rest⟩ := run_cons run
    rcases Made.of_cons step made with ⟨acts, waits⟩ | later
    · exact .inl ⟨[], e.notices, k, p, by rw [← acts]; rfl, .refl, waits⟩
    · rcases ih rest later with there | after
      · exact .inl (there.after (run_step step))
      · exact .inr after

/-- A worker that has started can go on, with calls that end as the handlers say, until it has come
to its end. -/
theorem can_finish (conduct : Conduct H) {config : PoolConfig} {b : Broker H} {phase : Phase H}
    (reach : Run Pool.tick (.new config) h b.pool)
    (found : b.pool.worker? d.ticket = some ⟨d, phase⟩) (started : phase ≠ .spawned) :
    ∃ more after, Run Broker.step b more after ∧ after.pool.worker? d.ticket = none ∧
      ∀ e call, Made b.pool (history more) e call → conduct.Ends call := by
  -- by induction on how much the worker has to do
  induction work : phase.work using Nat.strongRecOn generalizing h b phase with
  | ind n ih =>
    obtain ⟨call, waits, ends⟩ := exists_call_ends conduct d.event started
    obtain ⟨⟨q, notices⟩, step⟩ := can_hear found waits
    have first : b.step (.pool (.reply d.ticket call.reply)) =
        some ({ b with pool := q }, [.pool ⟨.reply d.ticket call.reply, notices⟩]) := by
      show b.act _ = _
      rw [Broker.act, step]
      rfl
    have route : Route (h ++ [⟨.reply d.ticket call.reply, notices⟩]) q :=
      (Route.of_run reach).of_rule (.of_step step)
    have reached := reach.trans (run_step step)
    cases Rule.of_step step with
    | @turn _ _ w next _ worker turns =>
      rw [found] at worker
      obtain rfl := Option.some.inj worker
      have there := worker?_setPhase_self found next
      have less := Phase.work_of_step turns
      obtain ⟨more, after, run, gone, others⟩ :=
        ih _ (work ▸ less) (b := { b with pool := b.pool.setPhase d.ticket next }) reached there (by
          rintro rfl
          exact Bool.false_ne_true (Phase.isStarted_of_next turns)) rfl
      refine ⟨_, after, (Run.single first).trans run, gone, ?_⟩
      intro e other made
      rcases made.of_reply found waits step with rfl | later
      · exact ends
      · exact others e other later
    | @finish _ _ w progress _ killed worker turns ended =>
      rw [found] at worker
      obtain rfl := Option.some.inj worker
      refine ⟨_, _, Run.single first, ?_, ?_⟩
      · exact route.worker?_of_ended (by simp)
      · intro e other made
        rcases made.of_reply found waits step with rfl | later
        · exact ends
        · obtain ⟨_, _, _, _, cut, -⟩ := later
          simp at cut
    | register _ changes => cases changes

/-- **Two buses agree on an event.** With equal settings they refuse the same events as malformed,
for the same reason. Now let handlers go about an event in some way, without panics and without
minding each other. Take any run of a bus with workers in which the worker of the event has started.
The worker can go on until it comes to its end. If it has come to its end, publish the event on a
bus without a queue that has the same subscriptions and accepts the event, and let anything happen
to that bus meanwhile. As long as the handlers have told this call nothing but what they say and
nobody has forsaken it, it can go on until it has its answer. When it has an answer, there was
notice of the first of the handlers that the worker has called. If none of those fails the call has
called all of them and succeeds, and the worker has no failure of a handler to report; otherwise it
has called them up to the first that fails and answers with its failure, which is the first that the
worker reports. -/
theorem buses_agree (conduct : Conduct H) :
    (∀ (p : Pool H) (s : Direct H) name ctx ctx' event q notices s₁ first invalid,
      p.config.validateEvents = s.config.validateEvents → p.closed = false →
      p.step (.publish ctx event) = some (q, notices) →
      s.step name (.publish ctx' event) = some (s₁, first) →
      ((∃ d, .answered d (.error (.validation invalid)) ∈ notices) ↔
        ∃ d, .answered d (.error (.validation invalid)) ∈ first)) ∧
    ∀ config log (b : Broker H) (before after : History H) t notices,
      Run Broker.step (Broker.new config) log b →
      history log = before ++ ⟨.start t, notices⟩ :: after →
      (∀ d call, d.ticket = t → Made (.new config) (history log) d call → conduct.Ends call) →
      ∃ m d, Run Pool.tick (.new config) before m ∧ m.worker? t = some ⟨d, .spawned⟩ ∧
        (∃ more c, Run Broker.step b more c ∧ c.pool.worker? t = none ∧ ∀ d call, d.ticket = t →
          Made (.new config) (history (log ++ more)) d call → conduct.Ends call) ∧
        (b.pool.worker? t = none → ∀ (s s₁ : Direct H) ctx first during u,
          s.registry.entries = m.registry.entries →
          (s.config.validateEvents = true → d.event.validate = .ok ()) →
          s.step conduct.name (.publish ctx d.event) = some (s₁, first) →
          Run (Direct.tick conduct.name) s₁ during u →
          let told := about s.tickets (first ++ noticesOf during)
          let called := told.filterMap DirectNotice.calling?
          (∀ n ∈ told, conduct.Tells n) →
          ((∀ e ∈ during, e.action ≠ .forsake s.tickets) →
            ∃ more v answer, Run (Direct.tick conduct.name) u more v ∧
              (∀ n ∈ about s.tickets (noticesOf more), conduct.Tells n) ∧
              .answered ⟨s.tickets, ctx, d.event⟩ answer ∈
                about s.tickets (first ++ noticesOf (during ++ more))) ∧
          ∀ answer, .answered ⟨s.tickets, ctx, d.event⟩ answer ∈ told →
            called <+: (history log).calledFor t ∧
              conduct.Matches ((history log).calledFor t) ((history log).failuresFor t)
                called answer) := by
  refine ⟨?_, ?_⟩
  · intro p s name ctx ctx' event q notices s₁ first invalid equal opened step goes
    rw [(Rule.of_step step).malformed_iff opened invalid, Direct.malformed_iff goes invalid]
    exact check_eq_error_iff equal ..
  · intro config log b before after t notices run cut ends
    have ran := Broker.run_pool run
    rw [cut] at ran
    obtain ⟨m, d, calls, progress, reach, found, account, made⟩ := account_of_start ran
    rw [← cut] at ran account made
    obtain rfl : d.ticket = t := ticket_of_worker? found
    refine ⟨m, d, reach, found, ?_, ?_⟩
    · by_cases gone : b.pool.worker? d.ticket = none
      · exact ⟨[], b, .refl, gone, by simpa using ends⟩
      · obtain ⟨phase, rfl⟩ : ∃ phase, progress = .next phase := by
          cases progress with
          | next phase => exact ⟨phase, rfl⟩
          | _ => exact absurd (account.stands.worker?_eq_none (.of_run ran) nofun) gone
        obtain ⟨more, c, later, gone, others⟩ :=
          can_finish conduct ran account.stands account.soFar.started
        refine ⟨more, c, later, gone, ?_⟩
        intro e call same calls
        rw [history_append] at calls
        rcases calls.of_append ran with earlier | later
        · exact ends e call same earlier
        · exact others e call later
    · intro gone s s₁ ctx first during u same valid goes between told called tells
      obtain ⟨calledFor, failuresFor⟩ :=
        account.follows gone fun call there => ends d call rfl (made call there)
      rcases Direct.publish_cases goes with ⟨invalid, validates, malformed, -⟩ | ⟨-, begun⟩
      · rw [valid validates] at malformed
        cases malformed
      obtain ⟨heard, delivery, del⟩ := begun.of_run between
      rw [calledFor, failuresFor, ← same]
      refine ⟨fun unharmed => del.can_answer unharmed, ?_⟩
      intro answer answered
      have agrees := del.agrees tells answered
      exact ⟨agrees.begins, agrees⟩

/-- Handlers that are interested and fail. -/
def failing : Conduct Unit where
  name _ := "audit"
  interested _ := true
  outcome _ := .error .cancelled

/-- Two handlers that fail, on both buses: the worker calls both of them, and the call of publish
that waits for them only the first. -/
theorem buses_agree_failing :
    ∃ (log : List (Deed Unit)) (b : Broker Unit) (prior during : List (DirectEntry Unit))
      (s s₁ u : Direct Unit) (first : List (DirectNotice Unit)),
      Run Broker.step (Broker.new ⟨2, 1, true⟩) log b ∧
      (history log).calledFor 0 = [⟨⟨1⟩, ()⟩, ⟨⟨2⟩, ()⟩] ∧
      Run (Direct.tick failing.name) (.new ⟨true⟩) prior s ∧
      s.step failing.name (.publish default shippedOrder) = some (s₁, first) ∧
      Run (Direct.tick failing.name) s₁ during u ∧
      (about 0 (first ++ noticesOf during)).filterMap DirectNotice.calling? = [⟨⟨1⟩, ()⟩] ∧
      [⟨⟨1⟩, ()⟩] <+: (history log).calledFor 0 ∧
      failing.Matches ((history log).calledFor 0) ((history log).failuresFor 0) [⟨⟨1⟩, ()⟩]
        (.error (.handler "audit" .cancelled)) := by
  obtain ⟨past, m, q, notices, more, b, log, opened, starts, rest, worker, gone, all, called,
      heard⟩ :
      ∃ past m q notices more b log,
        runAll Broker.step (Broker.new (H := Unit) ⟨2, 1, true⟩)
          [.pool (.subscribe ⟨1⟩ ()), .pool (.subscribe ⟨2⟩ ()),
            .pool (.publish default shippedOrder), .pool (.saved 0 (.ok ())), .pool .dispatch,
            .pool .dispatch] = some (m, past) ∧
        m.step (.pool (.start 0)) = some (q, [.pool ⟨.start 0, notices⟩]) ∧
        runAll Broker.step q
          [.pool (.reply 0 (.named (.returned "audit"))),
            .pool (.reply 0 (.asked (.returned true))),
            .pool (.reply 0 (.handled (.returned (.error .cancelled)))),
            .pool (.reply 0 (.reported (.returned ()))),
            .pool (.reply 0 (.named (.returned "audit"))),
            .pool (.reply 0 (.asked (.returned true))),
            .pool (.reply 0 (.handled (.returned (.error .cancelled)))),
            .pool (.reply 0 (.reported (.returned ()))),
            .pool (.reply 0 (.marked (.returned (.ok ()))))] = some (b, more) ∧
        (m.pool.registry.entries = [⟨⟨1⟩, ()⟩, ⟨⟨2⟩, ()⟩] ∧
          (m.pool.worker? 0).map (·.dispatch.event) = some shippedOrder) ∧
        b.pool.worker? 0 = none ∧
        past ++ ([.pool ⟨.start 0, notices⟩] ++ more) = log ∧
        (history log).calledFor 0 = [⟨⟨1⟩, ()⟩, ⟨⟨2⟩, ()⟩] ∧
        (history log).heard 0 =
          [.named (.returned "audit"), .asked (.returned true),
            .handled (.returned (.error .cancelled)), .reported (.returned ()),
            .named (.returned "audit"), .asked (.returned true),
            .handled (.returned (.error .cancelled)), .reported (.returned ()),
            .marked (.returned (.ok ()))] :=
    ⟨_, _, _, _, _, _, _, rfl, rfl, rfl, ⟨rfl, rfl⟩, rfl, rfl, rfl, rfl⟩
  -- the bus with workers
  have before := Run.ofActions opened
  have run := before.trans ((Run.single starts).trans (Run.ofActions rest))
  rw [all] at run
  have cut : history log = history past ++ ⟨.start 0, notices⟩ :: history more := by
    rw [← all, history_append]
    rfl
  have ends (d : Dispatch) (call : Call Unit) (ticket : d.ticket = 0)
      (made : Made (.new ⟨2, 1, true⟩) (history log) d call) : failing.Ends call := by
    have told := made.known.2
    rw [ticket, heard] at told
    cases call with
    | name _ outcome =>
      show outcome = .returned "audit"
      simpa [Call.reply] using told
    | interest _ outcome =>
      show outcome = .returned true
      simpa [Call.reply] using told
    | handler _ outcome =>
      show outcome = .returned (.error .cancelled)
      simpa [Call.reply] using told
    | report _ outcome =>
      show outcome = .returned ()
      simpa [Call.reply] using told
    | mark _ outcome => exact ⟨.ok (), by simpa [Call.reply] using told⟩
  -- the bus without a queue
  obtain ⟨prior, during, s, s₁, u, first, opens, goes, between, entries, ticket, told⟩ :
      ∃ prior during s s₁ u first,
        runAll (Direct.tick failing.name) (.new ⟨true⟩)
          [.subscribe ⟨1⟩ (), .subscribe ⟨2⟩ ()] = some (s, prior) ∧
        s.step failing.name (.publish default shippedOrder) = some (s₁, first) ∧
        runAll (Direct.tick failing.name) s₁
          [.asked 0 true, .handled 0 (.error .cancelled)] = some (u, during) ∧
        s.registry.entries = [⟨⟨1⟩, ()⟩, ⟨⟨2⟩, ()⟩] ∧ s.tickets = 0 ∧
        about 0 (first ++ noticesOf during) =
          [.asking ⟨0, default, shippedOrder⟩ ⟨⟨1⟩, ()⟩,
            .asked ⟨0, default, shippedOrder⟩ ⟨⟨1⟩, ()⟩ true,
            .calling ⟨0, default, shippedOrder⟩ ⟨⟨1⟩, ()⟩,
            .called ⟨0, default, shippedOrder⟩ ⟨⟨1⟩, ()⟩ (.error .cancelled),
            .delivered ⟨0, default, shippedOrder⟩ (.stopped ⟨⟨1⟩, ()⟩ .cancelled),
            .answered ⟨0, default, shippedOrder⟩ (.error (.handler "audit" .cancelled))] :=
    ⟨_, _, _, _, _, _, rfl, rfl, rfl, rfl, rfl, rfl⟩
  have meanwhile := Run.ofActions between
  obtain ⟨-, agree⟩ := buses_agree failing
  obtain ⟨n, d, reach, found, -, same⟩ := agree _ log b _ _ 0 _ run cut ends
  obtain rfl := run_unique reach (Broker.run_pool before)
  have event : d.event = shippedOrder := by
    have known := worker.2
    rw [found] at known
    exact Option.some.inj known
  obtain ⟨-, answers⟩ := same gone s s₁ default first during u (entries.trans worker.1.symm)
    (by rw [event]; exact fun _ => rfl) (by rw [event]; exact goes) meanwhile
    (by rw [ticket, told]; simp [Conduct.Tells, failing])
  rw [ticket, event, told] at answers
  obtain ⟨begins, matched⟩ := answers _ (List.mem_of_getLast? rfl)
  exact ⟨log, b, prior, during, s, s₁, u, first, run, called, Run.ofActions opens, goes, meanwhile,
    by rw [told]; rfl, begins, matched⟩

end Pool

end DomainEvents.Bus
