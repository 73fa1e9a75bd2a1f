import DomainEvents.Proofs.Bus.Called
import DomainEvents.Proofs.Bus.Closing

/-!
# A bus with one worker

A bus that has one permit works on one event at a time. A worker keeps its permit until it has
ended, marking included, and the dispatcher hands out the next event only with the permit; so the
worker that is there is the only one that has anything to tell, and what workers have told comes
event by event, in the order in which the events were accepted (`Serial`). The log of all calls of
handlers is then made of blocks, one for each event, and each block is known from the turns of the
worker of its event (`Block`).
-/

namespace DomainEvents.Bus

variable {H : Type}

/-- The event and the subscription for which a handler is called, if the notice says so. -/
def Notice.calling? : Notice H → Option (Dispatch × Subscription H)
  | .worker d (.called entry) => some (d, entry)
  | _ => none

/-- All calls of handlers, the first to come first. -/
def History.callLog (h : History H) : List (Dispatch × Subscription H) :=
  h.collect Notice.calling?

/-- The log of calls is a part of what workers have told. -/
theorem History.callLog_eq (h : History H) :
    h.callLog =
      (h.collect Notice.worker?).filterMap fun told => told.2.called?.map (told.1, ·) := by
  rw [callLog, collect, collect, List.filterMap_filterMap]
  refine List.filterMap_congr ?_
  intro n _
  cases n with
  | worker _ told => cases told <;> rfl
  | _ => rfl

namespace Pool

variable {h : History H} {p q : Pool H} {action : Action H} {notices : List (Notice H)}
  {d : Dispatch}

/-! ## What there is of one event -/

/-- Two events that have come into the queue are the same if their numbers are. -/
theorem Route.eq_of_ticket (route : Route h p) {e : Dispatch} (hd : d ∈ h.accepted)
    (he : e ∈ h.accepted) (same : d.ticket = e.ticket) : d = e :=
  List.inj_on_of_nodup_map route.accepted_distinct hd he same

/-- What is told by the worker of a number is about the event of that number. -/
theorem Route.told_of_mem (route : Route h p) (hd : d ∈ h.accepted)
    {told : Dispatch × WorkerNotice H} (mem : told ∈ h.toldBy d.ticket) :
    told.1 = d ∧ d ∈ h.handed := by
  obtain ⟨⟨notice, hn, same⟩, number⟩ : (∃ n ∈ h.notices, n.worker? = some told) ∧
      told.1.ticket = d.ticket := by
    simpa [History.toldBy, History.mem_collect] using mem
  cases notice with
  | worker e n =>
    cases same
    have handed := route.done e n hn
    obtain rfl := route.eq_of_ticket (route.handed_prefix.subset handed) hd number
    exact ⟨rfl, handed⟩
  | _ => cases same

/-- Of an event that was not handed out there is nothing to tell. -/
theorem Route.toldBy_eq_nil (route : Route h p) (hd : d ∈ h.accepted) (waits : d ∉ h.handed) :
    h.toldBy d.ticket = [] := by
  refine List.eq_nil_iff_forall_not_mem.mpr ?_
  intro told mem
  exact waits (route.told_of_mem hd mem).2

/-- The calls for an event, among what its worker has told. -/
theorem Route.filterMap_toldBy (route : Route h p) (hd : d ∈ h.accepted) :
    (h.toldBy d.ticket).filterMap (fun told => told.2.called?.map (told.1, ·)) =
      (h.calledFor d.ticket).map (d, ·) := by
  rw [History.calledFor, List.map_filterMap]
  refine List.filterMap_congr ?_
  intro told mem
  rw [(route.told_of_mem hd mem).1]

/-! ## One worker -/

/-- With one permit there is no other worker beside one. -/
theorem Slots.alone (slots : Slots h p) (single : p.config.workerCount = 1)
    (mem : d ∈ p.working) : p.working = [d] := by
  have permits := slots.permits
  rw [single] at permits
  obtain ⟨e, only⟩ := List.length_eq_one_iff.mp
    (show p.working.length = 1 by
      have some := List.length_pos_of_mem mem
      rw [working, List.length_map] at some ⊢
      omega)
  rw [only] at mem ⊢
  rw [List.mem_singleton.mp mem]

section

variable [DecidableEq H]

/-- A worker that acts is there, and no event is handed out meanwhile. -/
theorem Rule.acts (rule : Rule p action q notices) {t : Nat} (own : action.worker? = some t) :
    (∃ w, p.worker? t = some w) ∧ notices.filterMap Notice.handed? = [] := by
  cases rule with
  | start worker =>
    obtain rfl := Option.some.inj own
    exact ⟨⟨_, worker⟩, by simp [List.filterMap_cons]⟩
  | turn worker =>
    obtain rfl := Option.some.inj own
    exact ⟨⟨_, worker⟩, by simp⟩
  | finish worker =>
    obtain rfl := Option.some.inj own
    exact ⟨⟨_, worker⟩, by simp [List.filterMap_cons]⟩
  | register _ changes =>
    rw [Action.worker?_of_registration? changes] at own
    cases own
  | _ => cases own

/-- All that workers tell in a step is told by the worker that acts. -/
theorem Rule.toldBy_self (rule : Rule p action q notices) {t : Nat}
    (own : action.worker? = some t) :
    History.toldBy t [⟨action, notices⟩] = notices.filterMap Notice.worker? := by
  rw [History.toldBy, History.collect_cons, History.collect_nil, List.append_nil]
  refine List.filter_eq_self.mpr ?_
  rintro ⟨d, n⟩ mem
  obtain ⟨notice, hn, same⟩ := List.mem_filterMap.mp mem
  cases notice with
  | worker =>
    cases same
    have acts := rule.worker_of_told hn
    rw [own] at acts
    simpa using (Option.some.inj acts).symm
  | _ => cases same

/-- When no worker acts none has anything to tell. -/
theorem Rule.filterMap_worker?_eq_nil (rule : Rule p action q notices)
    (none : ∀ t, action.worker? ≠ some t) : notices.filterMap Notice.worker? = [] := by
  refine List.filterMap_eq_nil_iff.mpr ?_
  intro notice hn
  cases notice with
  | worker d => exact absurd (rule.worker_of_told hn) (none d.ticket)
  | _ => rfl

/-- An event that is handed out was in the hand of the dispatcher. -/
theorem Rule.hand_of_told (rule : Rule p action q notices) (told : .handed d ∈ notices) :
    p.hand = .granted d := by
  cases rule with
  | handOut hand =>
    obtain rfl : d = _ := by simpa using told
    exact hand
  | close => cases p.closed <;> simp at told
  | join => cases p.joinable <;> simp at told
  | _ => simp at told

end

/-- An event with the dispatcher or in the queue was accepted, and was not handed out. -/
theorem Route.not_handed (route : Route h p) (waits : d ∈ p.hand.toList ++ p.queue) :
    d ∈ h.accepted ∧ d ∉ h.handed := by
  have line := route.line
  rw [List.append_assoc] at line
  have distinct := List.Nodup.of_map _ route.accepted_distinct
  rw [line] at distinct
  obtain ⟨-, -, apart⟩ := List.nodup_append.mp distinct
  refine ⟨?_, fun handed => apart d handed d waits rfl⟩
  rw [line]
  exact List.mem_append_right _ waits

/-- What is true of a bus that works on one event at a time. -/
structure Serial (h : History H) (p : Pool H) : Prop where
  /-- workers end in the order in which they were given their events -/
  order : h.handed = h.ended ++ p.working
  /-- what workers have told comes event by event -/
  log : h.collect Notice.worker? = h.handed.flatMap fun d => h.toldBy d.ticket

namespace Serial

theorem start (config : PoolConfig) : Serial [] (.new config : Pool H) where
  order := rfl
  log := rfl

variable [DecidableEq H]

theorem order_of_rule (serial : Serial h p) (slots : Slots h p)
    (single : p.config.workerCount = 1) (rule : Rule p action q notices) :
    (h ++ [⟨action, notices⟩] : History H).handed =
      (h ++ [⟨action, notices⟩] : History H).ended ++ q.working := by
  have order := serial.order
  cases rule with
  | handOut => simp [order, List.filterMap_cons, working]
  | @start t =>
    rw [← working_setPhase p t (Phase.turnTo p.registry.entries)] at order
    simpa [List.filterMap_cons] using order
  | turn => simp [order, working_setPhase]
  | @finish t reply w progress told killed worker =>
    -- the worker that ends is the only one
    have perm := working_endWorker worker killed
    rw [slots.alone single (dispatch_mem_working worker)] at perm
    have none : (p.endWorker w.dispatch killed).1.working = [] := by
      simpa using perm.length_eq
    rw [slots.alone single (dispatch_mem_working worker)] at order
    rw [none]
    simp [order, List.filterMap_cons]
  | close => cases p.closed <;> simp [order, List.filterMap_cons]
  | join => cases p.joinable <;> simp [order, List.filterMap_cons]
  | _ => simp [order, List.filterMap_cons, Pool.take]

theorem log_of_rule (serial : Serial h p) (route : Route h p) (slots : Slots h p)
    (single : p.config.workerCount = 1) (rule : Rule p action q notices) :
    (h ++ [⟨action, notices⟩] : History H).collect Notice.worker? =
      (h ++ [⟨action, notices⟩] : History H).handed.flatMap fun d =>
        (h ++ [⟨action, notices⟩] : History H).toldBy d.ticket := by
  have log := serial.log
  have all : (h ++ [⟨action, notices⟩] : History H).collect Notice.worker? =
      h.collect Notice.worker? ++ notices.filterMap Notice.worker? := by simp
  have handed : (h ++ [⟨action, notices⟩] : History H).handed =
      h.handed ++ notices.filterMap Notice.handed? := by simp
  have quiet {t : Nat} (other : action.worker? ≠ some t) :
      (h ++ [⟨action, notices⟩] : History H).toldBy t = h.toldBy t := by
    rw [History.toldBy_snoc, (rule.quiet other).2.1, List.append_nil]
  by_cases own : ∃ t, action.worker? = some t
  · -- the worker that acts has the last of the events that were handed out
    obtain ⟨t, own⟩ := own
    obtain ⟨⟨w, found⟩, none⟩ := rule.acts own
    have order := serial.order
    rw [slots.alone single (dispatch_mem_working found)] at order
    rw [order] at log
    have earlier : (h.ended.flatMap fun d => History.toldBy d.ticket (h ++ [⟨action, notices⟩])) =
        h.ended.flatMap fun d => h.toldBy d.ticket := by
      refine List.flatMap_congr ?_
      intro e he
      refine quiet ?_
      rw [own]
      intro same
      rw [Option.some.inj same, route.worker?_of_ended he] at found
      cases found
    have last : History.toldBy w.dispatch.ticket (h ++ [⟨action, notices⟩]) =
        h.toldBy w.dispatch.ticket ++ notices.filterMap Notice.worker? := by
      rw [History.toldBy_snoc, ticket_of_worker? found, rule.toldBy_self own]
    rw [all, handed, none, List.append_nil, log, order, List.flatMap_append, List.flatMap_append,
      List.flatMap_singleton, List.flatMap_singleton, earlier, last, List.append_assoc]
  · -- of an event that is handed out now nothing was told yet
    rw [not_exists] at own
    have new : (notices.filterMap Notice.handed?).flatMap
        (fun d => History.toldBy d.ticket (h ++ [⟨action, notices⟩])) = [] := by
      refine List.flatMap_eq_nil_iff.mpr ?_
      intro d hd
      obtain ⟨notice, hn, same⟩ := List.mem_filterMap.mp hd
      obtain rfl : notice = .handed d := by
        cases notice <;> simp_all
      obtain ⟨known, waits⟩ := route.not_handed (d := d) (by simp [rule.hand_of_told hn])
      rw [quiet (own _), route.toldBy_eq_nil known waits]
    rw [all, rule.filterMap_worker?_eq_nil own, List.append_nil, handed, List.flatMap_append, new,
      List.append_nil, log]
    exact List.flatMap_congr fun d _ => (quiet (own _)).symm

/-- **Every rule of a bus with one worker keeps it at one event at a time.** -/
theorem of_rule (serial : Serial h p) (route : Route h p) (slots : Slots h p)
    (single : p.config.workerCount = 1) (rule : Rule p action q notices) :
    Serial (h ++ [⟨action, notices⟩]) q where
  order := serial.order_of_rule slots single rule
  log := serial.log_of_rule route slots single rule

theorem of_run {config : PoolConfig} (single : config.workerCount = 1)
    (run : Run Pool.tick (.new config) h p) : Serial h p := by
  induction run with
  | refl => exact .start config
  | snoc init ticks ih =>
    obtain ⟨notices, step, rfl⟩ := tick_eq_some.mp ticks
    exact ih.of_rule (.of_run init) (.of_run init) ((config_of_run init).symm ▸ single)
      (.of_step step)

omit [DecidableEq H] in
/-- The log of all calls of handlers is made of one block for each accepted event. -/
theorem callLog (serial : Serial h p) (route : Route h p) :
    h.callLog = h.accepted.flatMap fun d => (h.calledFor d.ticket).map (d, ·) := by
  -- of an event that was not handed out nothing was told
  have later : (p.hand.toList ++ p.queue).flatMap (fun d => h.toldBy d.ticket) = [] := by
    refine List.flatMap_eq_nil_iff.mpr ?_
    intro d waits
    obtain ⟨known, waits⟩ := route.not_handed waits
    exact route.toldBy_eq_nil known waits
  have all : h.collect Notice.worker? = h.accepted.flatMap fun d => h.toldBy d.ticket := by
    rw [route.line, List.append_assoc, List.flatMap_append, later, List.append_nil, serial.log]
  rw [History.callLog_eq, all, List.filterMap_flatMap]
  exact List.flatMap_congr fun d hd => route.filterMap_toldBy hd

end Serial

variable [DecidableEq H] {config : PoolConfig}

/-! ## The block of an event -/

theorem Rule.start_of_told (rule : Rule p action q notices) (told : .started d ∈ notices) :
    action = .start d.ticket ∧ p.worker? d.ticket = some ⟨d, .spawned⟩ := by
  cases rule with
  | start worker =>
    obtain rfl : d = _ := by simpa using told
    rw [ticket_of_worker? worker]
    exact ⟨rfl, worker⟩
  | close => cases p.closed <;> simp at told
  | join => cases p.joinable <;> simp at told
  | _ => simp at told

/-- The account of the worker of an event, if it has started. -/
theorem account_of_started (run : Run Pool.tick (.new config) h p) (started : d ∈ h.started) :
    ∃ before notices after m calls progress,
      h = before ++ ⟨.start d.ticket, notices⟩ :: after ∧ Run Pool.tick (.new config) before m ∧
      Account m.registry.entries d calls progress h p ∧
      ∀ call ∈ calls, Made (.new config) h d call := by
  obtain ⟨notice, told, same⟩ := History.mem_collect.mp started
  obtain rfl : notice = .started d := by
    cases notice <;> simp_all
  obtain ⟨before, ⟨action, notices⟩, after, rfl, now⟩ := History.exists_cut told
  obtain ⟨m, q, reach, step, -⟩ := run_cut run
  obtain ⟨rfl, found⟩ := (Rule.of_step step).start_of_told now
  obtain ⟨n, e, calls, progress, again, there, account, made⟩ := account_of_start run
  obtain rfl := run_unique reach again
  rw [found] at there
  obtain rfl : d = e := congrArg Worker.dispatch (Option.some.inj there)
  exact ⟨before, notices, after, m, calls, progress, rfl, reach, account, made⟩

/-- Nothing was called for an event whose worker has not started. -/
theorem calledFor_of_unstarted (run : Run Pool.tick (.new config) h p) (hd : d ∈ h.accepted)
    (unstarted : d ∉ h.started) : h.calledFor d.ticket = [] := by
  have route : Route h p := .of_run run
  have slots : Slots h p := .of_run run
  have silent := silent_of_run (t := d.ticket) run (by
    intro there
    obtain ⟨e, he, same⟩ := List.mem_map.mp there
    have known : e ∈ h.handed := by
      refine route.work.mem_iff.mpr ?_
      rcases List.mem_append.mp (slots.started.mem_iff.mp he) with running | ended
      · exact List.mem_append_left _ ((having_sublist _ p).subset running)
      · exact List.mem_append_right _ ended
    obtain rfl := route.eq_of_ticket (route.handed_prefix.subset known) hd same
    exact unstarted he)
  rw [History.calledFor, silent.2]
  rfl

/-- The worker of an event that has ended, and was not killed, has called all handlers that were
interested. If their interest depends on nothing but the event, they are known beforehand. -/
theorem calledFor_of_ended (run : Run Pool.tick (.new config) h p) (ended : d ∈ h.ended)
    (unharmed : .ended d true ∉ h.notices) {entries : List (Subscription H)}
    (fixed : ∀ before t notices after m, h = before ++ ⟨.start t, notices⟩ :: after →
      Run Pool.tick (.new config) before m → m.registry.entries = entries)
    {check : H → String → Outcome Bool}
    (pure : ∀ d entry outcome, Made (.new config) h d (.interest entry outcome) →
      outcome = check entry.handler d.event.name) :
    h.calledFor d.ticket =
      entries.filter fun entry => check entry.handler d.event.name = .returned true := by
  have slots : Slots h p := .of_run run
  have started : d ∈ h.started := slots.started.mem_iff.mpr (List.mem_append_right _ ended)
  obtain ⟨before, notices, after, m, calls, progress, cut, reach, account, made⟩ :=
    account_of_started run started
  rw [fixed _ _ _ _ m cut reach] at account
  have stands := account.stands
  cases progress with
  | next phase =>
    have gone := (Route.of_run run).worker?_of_ended ended
    have there : p.worker? d.ticket = some ⟨d, phase⟩ := stands
    rw [gone] at there
    cases there
  | killed => exact absurd stands unharmed
  | finished =>
    cases account.soFar with
    | @finished turns mark all =>
      rw [account.calledFor_itinerary, ← all]
      have known (entry : Subscription H) (outcome : Outcome Bool)
          (asked : .interest entry outcome ∈ itinerary d.event turns mark) :
          decide (check entry.handler d.event.name = .returned true) = true ↔
            outcome = .returned true := by
        rw [pure d entry outcome (made _ asked), decide_eq_true_iff]
      exact interested_eq_filter _ known

/-- **A bus with one worker is a queue.** After every run of a bus with one worker, with any room in
its queue, any calls of publish, replay and close, any answers of stores and handlers, and in any
order: the log of all calls of handlers is made of one block for each accepted event, in the order
in which the events were accepted. If the worker of an event has started, its block has the handlers
that were interested when it was their turn, among the subscriptions that there were when it
started, and in their order; the block is only shorter if the run has come to its end before the
worker, or a panic that is not guarded has killed it. Whatever a worker does, those of all events
that were accepted earlier have ended. And if all workers have found the same subscriptions,
interest depends on nothing but handler and event, and no worker was killed, then the log of a bus
that was closed with success is known from the accepted events. -/
theorem single_worker_is_serial (single : config.workerCount = 1) {log : List (Deed H)}
    {b : Broker H} (run : Run Broker.step (Broker.new config) log b) :
    let h := history log
    h.callLog = h.accepted.flatMap (fun d => (h.calledFor d.ticket).map (d, ·)) ∧
      (∀ d ∈ h.accepted, d ∉ h.started ∧ h.calledFor d.ticket = [] ∨
        ∃ before notices after m turns mark,
          h = before ++ ⟨.start d.ticket, notices⟩ :: after ∧
          Run Pool.tick (.new config) before m ∧ turns.map (·.entry) = m.registry.entries ∧
          Block h b.pool d turns mark (h.calledFor d.ticket) ∧
          h.calledFor d.ticket <+: interested turns) ∧
      (∀ (before after : History H) (e : Entry H), h = before ++ e :: after →
        ∀ d n, .worker d n ∈ e.notices →
          ∃ rest, before.accepted = before.ended ++ d :: rest) ∧
      ∀ (entries : List (Subscription H)) (check : H → String → Outcome Bool) (c : Closer),
        (∀ before t notices after m, h = before ++ ⟨.start t, notices⟩ :: after →
          Run Pool.tick (.new config) before m → m.registry.entries = entries) →
        (∀ d entry outcome, Made (.new config) h d (.interest entry outcome) →
          outcome = check entry.handler d.event.name) →
        (∀ d, .ended d true ∉ h.notices) → .closeAnswered c (.ok ()) ∈ h.notices →
        h.callLog = h.accepted.flatMap fun d =>
          (entries.filter fun entry => check entry.handler d.event.name = .returned true).map
            (d, ·) := by
  intro h
  have run : Run Pool.tick (.new config) h b.pool := Broker.run_pool run
  have route : Route h b.pool := .of_run run
  have serial : Serial h b.pool := .of_run single run
  have blocks := serial.callLog route
  refine ⟨blocks, ?_, ?_, ?_⟩
  · intro d hd
    by_cases started : d ∈ h.started
    · obtain ⟨before, notices, after, m, calls, progress, cut, reach, account, -⟩ :=
        account_of_started run started
      obtain ⟨turns, mark, all, block⟩ := account.block
      exact .inr ⟨before, notices, after, m, turns, mark, cut, reach, all, block,
        block.prefix_interested⟩
    · exact .inl ⟨started, calledFor_of_unstarted run hd started⟩
  · intro before after e cut d n told
    rw [cut] at run
    obtain ⟨m, q, reach, step, -⟩ := run_cut run
    have rule := Rule.of_step step
    have order := (Serial.of_run single reach).order
    rw [(Slots.of_run reach).alone ((config_of_run reach).symm ▸ single)
      (rule.mem_working told)] at order
    refine ⟨m.hand.toList ++ m.queue, ?_⟩
    rw [(Route.of_run reach).line, order]
    simp
  · intro entries check c fixed pure unharmed closed
    have stopped := stopped_of_closed run closed
    have closing : Closing b.pool := .of_run run
    obtain ⟨hand, queue⟩ := closing.emptied (.inr stopped)
    have line := route.line
    rw [hand, queue, serial.order, working, closing.idle stopped] at line
    have ended : h.accepted = h.ended := by simpa using line
    rw [blocks]
    refine List.flatMap_congr ?_
    intro d hd
    rw [calledFor_of_ended run (ended ▸ hd) (unharmed d) fixed pure]

/-! ## Subscriptions that stay -/

/-- Subscriptions are changed by actions about subscriptions and by nothing else. -/
theorem registry_of_run {k : History H} (run : Run Pool.tick p k q)
    (fixed : ∀ e ∈ k, e.action.registration? = none) : q.registry = p.registry := by
  let P (k : History H) (q : Pool H) : Prop :=
    (∀ e ∈ k, e.action.registration? = none) → q.registry = p.registry
  refine run_induction (P := P) (fun _ => rfl) ?_ run fixed
  intro k q r action notices same rule fixed
  have before := same fun e he => fixed e (List.mem_append_left _ he)
  have now : action.registration? = none := fixed ⟨action, notices⟩ (by simp)
  cases rule with
  | register _ changes =>
    rw [changes] at now
    cases now
  | _ => exact before

/-- When nobody changes the subscriptions all workers find the same. -/
theorem entries_of_start {setup rest : History H} (reach : Run Pool.tick (.new config) setup p)
    (unstarted : ∀ e ∈ setup, ∀ t, e.action ≠ .start t)
    (fixed : ∀ e ∈ rest, e.action.registration? = none) {before after : History H} {t : Nat}
    (cut : setup ++ rest = before ++ ⟨.start t, notices⟩ :: after)
    (run : Run Pool.tick (.new config) before q) : q.registry.entries = p.registry.entries := by
  rcases List.append_eq_append_iff.mp cut with ⟨l, rfl, split⟩ | ⟨l, split, more⟩
  · obtain ⟨m, first, second⟩ := run_append run
    obtain rfl := run_unique reach first
    rw [registry_of_run second]
    intro e he
    exact fixed e (split ▸ List.mem_append_left _ he)
  · cases l with
    | nil =>
      rw [List.append_nil] at split
      rw [split] at reach
      rw [run_unique reach run]
    | cons e l =>
      obtain ⟨rfl, -⟩ := List.cons.inj more
      have there : ⟨.start t, notices⟩ ∈ setup := by simp [split]
      exact absurd rfl (unstarted _ there t)

/-- A bus with one worker and two subscriptions, and then two events, of which the handlers only
take the first; one of them fails. In the end the bus is closed. -/
def twoEvents : List (BrokerAction Unit) × List (BrokerAction Unit) :=
  let event (name : String) : Event := { (default : Event) with name }
  let hears (t : Nat) (replies : List Reply) : List (BrokerAction Unit) :=
    replies.map fun reply => .pool (.reply t reply)
  ([.pool (.subscribe ⟨1⟩ ()), .pool (.subscribe ⟨2⟩ ())],
    [.pool (.publish default (event "placed")), .pool (.saved 0 (.ok ())),
      .pool (.publish default (event "shipped")), .pool (.saved 1 (.ok ())), .pool .dispatch,
      .pool .dispatch, .pool .dispatch, .pool (.start 0)] ++
    hears 0 [.named (.returned "audit"), .asked (.returned true), .handled (.returned (.ok ())),
      .named (.returned "mail"), .asked (.returned true),
      .handled (.returned (.error .cancelled)), .reported (.returned ()),
      .marked (.returned (.ok ()))] ++
    [.pool .dispatch, .pool (.start 1)] ++
    hears 1 [.named (.returned "audit"), .asked (.returned false), .named (.returned "mail"),
      .asked (.returned false), .marked (.returned (.ok ()))] ++
    [.pool (.close ⟨5, 0⟩), .pool .dispatch, .pool .dispatch, .pool .dispatch, .pool .dispatch,
      .pool .dispatch, .pool (.join 2)])

theorem single_worker_is_serial_twoEvents :
    let entries : List (Subscription Unit) := [⟨⟨1⟩, ()⟩, ⟨⟨2⟩, ()⟩]
    let check : Unit → String → Outcome Bool := fun _ name => .returned (name == "placed")
    ∃ (log : List (Deed Unit)) (b : Broker Unit),
      Run Broker.step (Broker.new ⟨2, 1, false⟩) log b ∧
      .closeAnswered ⟨2, ⟨5, 0⟩⟩ (.ok ()) ∈ (history log).notices ∧
      (history log).accepted.map (·.event.name) = ["placed", "shipped"] ∧
      (history log).callLog = (history log).accepted.flatMap (fun d =>
        (entries.filter fun entry => check entry.handler d.event.name = .returned true).map
          (d, ·)) ∧
      (history log).callLog.map (fun (d, entry) => (d.ticket, entry.id)) =
        [(0, ⟨1⟩), (0, ⟨2⟩)] := by
  intro entries check
  obtain ⟨setup, rest, m, b, d, e, first, second, closed, killed, found, accepted, zero, one,
      placed, shipped, unstarted, fixed, calls⟩ :
      ∃ setup rest m b d e,
        runAll Broker.step (Broker.new ⟨2, 1, false⟩) twoEvents.1 = some (m, setup) ∧
        runAll Broker.step m twoEvents.2 = some (b, rest) ∧
        (history (setup ++ rest)).notices.getLast? = some (.closeAnswered ⟨2, ⟨5, 0⟩⟩ (.ok ())) ∧
        (history (setup ++ rest)).collect Notice.killed? = [] ∧
        m.pool.registry.entries = entries ∧
        (history (setup ++ rest)).accepted = [d, e] ∧
        (history (setup ++ rest)).heard d.ticket =
          [.named (.returned "audit"), .asked (.returned true), .handled (.returned (.ok ())),
            .named (.returned "mail"), .asked (.returned true),
            .handled (.returned (.error .cancelled)), .reported (.returned ()),
            .marked (.returned (.ok ()))] ∧
        (history (setup ++ rest)).heard e.ticket =
          [.named (.returned "audit"), .asked (.returned false), .named (.returned "mail"),
            .asked (.returned false), .marked (.returned (.ok ()))] ∧
        d.event.name = "placed" ∧ e.event.name = "shipped" ∧
        (history setup).filterMap (·.action.worker?) = [] ∧
        ((history rest).all fun e => e.action.registration?.isNone) = true ∧
        (history (setup ++ rest)).callLog.map (fun (d, entry) => (d.ticket, entry.id)) =
          [(0, ⟨1⟩), (0, ⟨2⟩)] :=
    ⟨_, _, _, _, _, _, rfl, rfl, rfl, rfl, rfl, rfl, rfl, rfl, rfl, rfl, rfl, rfl, rfl⟩
  have before := Run.ofActions first
  have run := before.trans (Run.ofActions second)
  replace closed := List.mem_of_getLast? closed
  obtain ⟨-, -, -, known⟩ := single_worker_is_serial (by rfl) run
  refine ⟨setup ++ rest, b, run, closed, ?_, known entries check _ ?_ ?_ ?_ closed, calls⟩
  · rw [accepted, List.map_cons, List.map_cons, List.map_nil, placed, shipped]
  · intro before' t notices after n cut reach
    rw [history_append] at cut
    rw [← found]
    refine entries_of_start (Broker.run_pool before) ?_ ?_ cut reach
    · intro e he t starts
      have acts : t ∈ (history setup).filterMap (·.action.worker?) :=
        List.mem_filterMap.mpr ⟨e, he, by rw [starts]; rfl⟩
      rw [unstarted] at acts
      cases acts
    · intro e he
      simpa using List.all_eq_true.mp fixed e he
  · intro f entry outcome made
    obtain ⟨known, heard⟩ := made.known
    rw [accepted] at known
    obtain rfl | rfl : f = d ∨ f = e := by simpa using known
    · rw [zero] at heard
      obtain rfl : outcome = .returned true := by simpa [Call.reply] using heard
      rw [placed]
      rfl
    · rw [one] at heard
      obtain rfl : outcome = .returned false := by simpa [Call.reply] using heard
      rw [shipped]
      rfl
  · exact History.not_killed killed

end Pool

end DomainEvents.Bus
