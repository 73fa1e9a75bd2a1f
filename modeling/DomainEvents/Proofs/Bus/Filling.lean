import DomainEvents.Proofs.Bus.Reloading

/-!
# Replays that nobody interrupts

When the store of a bus answers at once, a replay never waits, and nobody else has a turn before it
has ended (`Broker.Uninterrupted`). The dispatcher takes no event off the queue then: what the
replay publishes stays there (`Broker.Filling`), and the replay gets as far as there was room when
it came in. The event after that is saved, and then refused. So a history of more events than there
is room for is never replayed to its end in this way.
-/

namespace DomainEvents.Bus

variable {H : Type}

/-- The store does what a replay asks it to do: it has loaded these events, or has saved one. -/
def BrokerAction.Served (n : Nat) (events : List Event) (action : BrokerAction H) : Prop :=
  action = .loaded n (.ok events) ∨ ∃ t, action = .pool (.saved t (.ok ()))

/-- An answer of the store is no end of a call without an answer. -/
theorem BrokerAction.Served.answered {n : Nat} {events : List Event} {action : BrokerAction H}
    (served : action.Served n events) :
    action ≠ .forsakeReplay n ∧ ∀ t, action ≠ .pool (.forsake t) := by
  rcases served with rfl | ⟨t, rfl⟩ <;> exact ⟨nofun, nofun⟩

namespace Broker

/-- The moves of a replay that nobody interrupts, with a store that loads these events and saves
whatever it is asked to save. -/
structure Uninterrupted (n : Nat) (events : List Event) (log : List (Move H)) : Prop where
  /-- nobody else has a turn -/
  own : ∀ move ∈ log, move.replay? = some n
  /-- the store does what it is asked to do -/
  served : ∀ move ∈ log, move.action.Served n events

theorem Uninterrupted.append {n : Nat} {events : List Event} {log more : List (Move H)}
    (one : Uninterrupted n events log) (other : Uninterrupted n events more) :
    Uninterrupted n events (log ++ more) :=
  ⟨List.forall_mem_append.mpr ⟨one.own, other.own⟩,
    List.forall_mem_append.mpr ⟨one.served, other.served⟩⟩

theorem Uninterrupted.single {n : Nat} {events : List Event} {move : Move H}
    (own : move.replay? = some n) (served : move.action.Served n events) :
    Uninterrupted n events [move] :=
  ⟨List.forall_mem_singleton.mpr own, List.forall_mem_singleton.mpr served⟩

/-- What has become of the open pool `p` while a replay did this and nobody else did anything: what
was accepted is in the queue, and the replay has stopped only if that is full. -/
structure Filling (p : Pool H) (deeds : List (Deed H)) (q : Pool H) : Prop where
  config : q.config = p.config
  opened : q.closed = false
  queued : q.queued = p.queued + (history deeds).accepted.length
  full : ∀ replayed total source, .error (.replay replayed total source) ∈ resultsOf deeds →
    source = .queueFull p.config.queueSize ∧ q.queued = p.config.queueSize

/-- How far a replay of these events gets in a pool when nobody takes events off the queue. -/
structure Fills (p : Pool H) (events : List Event) (deeds : List (Deed H)) (q : Pool H) :
    Prop where
  /-- as many of the first events are accepted as there was room for -/
  accepted : (history deeds).accepted.map (·.event) =
    events.take (min events.length (p.config.queueSize - p.queued))
  /-- these are saved, and so is the next one -/
  saved : (history deeds).savings.map (·.event) =
    events.take (min events.length (p.config.queueSize - p.queued + 1))
  /-- the answer says so -/
  answered : resultsOf deeds =
    [if events.length ≤ p.config.queueSize - p.queued then .ok events.length
      else .error (.replay (p.config.queueSize - p.queued) events.length
        (.queueFull p.config.queueSize))]
  /-- the events that were accepted are in the queue -/
  queued : q.queued = min (p.queued + events.length) p.config.queueSize

variable {b c : Broker H} {p q : Pool H} {call : ReplayCall} {events rest : List Event}
  {ds saving : List Dispatch} {answers : List (Except StoreError (List Event))}
  {deeds told : List (Deed H)}

/-! ## Filling the queue -/

/-- What a replay has done in all, when it has published some events and done something more. -/
theorem told_after (call : ReplayCall) (loaded : List Event) (ds : List Dispatch)
    (told : List (Deed H)) :
    let deeds := begins call loaded ++ ds.flatMap publishes ++ told
    (history deeds).accepted = ds ++ (history told).accepted ∧
      (history deeds).savings = ds ++ (history told).savings ∧
      resultsOf deeds = resultsOf told := by
  obtain ⟨-, savings, accepted, results⟩ := published (H := H) ds
  intro deeds
  have before : history deeds = history (ds.flatMap publishes) ++ history told :=
    history_append ..
  refine ⟨?_, ?_, ?_⟩
  · rw [before, History.accepted_append, accepted]
  · rw [before, History.savings_append, savings]
  · rw [resultsOf_append, resultsOf_append, results]
    rfl

namespace Filling

theorem start (opened : p.closed = false) (call : ReplayCall) : Filling p [.loading call] p :=
  ⟨rfl, opened, rfl, nofun⟩

theorem check_eq (filling : Filling p deeds q) (event : Event) : q.check event = p.check event := by
  rw [Pool.check, filling.config, Pool.check]

/-- Something is done that fills the queue by as much as is accepted. -/
theorem append (filling : Filling p deeds q) {r : Pool H} (config : r.config = q.config)
    (opened : r.closed = q.closed) (queued : r.queued = q.queued + (history told).accepted.length)
    (silent : resultsOf deeds = [])
    (full : ∀ replayed total source, .error (.replay replayed total source) ∈ resultsOf told →
      source = .queueFull p.config.queueSize ∧ r.queued = p.config.queueSize) :
    Filling p (deeds ++ told) r where
  config := config.trans filling.config
  opened := opened.trans filling.opened
  queued := by
    rw [history_append, History.accepted_append, List.length_append, queued, filling.queued,
      Nat.add_assoc]
  full := by
    rw [resultsOf_append, silent, List.nil_append]
    exact full

variable [DecidableEq H]

/-- A replay that goes on is not refused at once, since the bus is open and its events are well
formed. -/
theorem of_turned (filling : Filling p deeds b.pool) (silent : resultsOf deeds = [])
    (valid : ∀ e ∈ rest, p.check e = .ok ()) {replayed total : Nat}
    (turned : Turned b call (Replay.turnTo replayed total rest) c told) :
    Filling p (deeds ++ told) c.pool := by
  cases rest with
  | nil =>
    cases turned with
    | answered => exact filling.append rfl rfl rfl silent (by simp [resultsOf, Deed.replayed?])
  | cons event rest =>
    cases turned with
    | asks rule =>
      cases rule with
      | ask => exact filling.append rfl rfl rfl silent (by simp [resultsOf, Deed.replayed?])
    | refused rule why =>
      cases why with
      | closed closed =>
        rw [filling.opened] at closed
        cases closed
      | malformed _ check =>
        rw [filling.check_eq, valid event List.mem_cons_self] at check
        cases check

/-- **Each move of the replay fills the queue by as much as is accepted.** -/
theorem of_rule (filling : Filling p deeds b.pool) (closing : Pool.Closing b.pool)
    (orderly : Orderly b) (loading : call.wait = .loading)
    (course : Course b.pool.saving call answers deeds (b.replay? call.number))
    (heard : ∀ answer ∈ answers, answer = .ok events) (valid : ∀ e ∈ events, p.check e = .ok ())
    {action : BrokerAction H} (served : action.Served call.number events)
    (rule : Rule b action c (some call.number) told) : Filling p (deeds ++ told) c.pool := by
  generalize own : some call.number = whose at rule
  rcases served with rfl | ⟨t, rfl⟩
  · cases rule with
    | @loaded _ _ e _ told waits turned =>
      obtain ⟨rfl, rfl, rfl⟩ := course.of_loader? orderly waits
      have filling : Filling p ([.loading e] ++ [.replaying e events.length]) b.pool :=
        filling.append rfl rfl rfl rfl nofun
      exact filling.of_turned rfl valid turned
  · cases rule with
    | act => cases own
    | @accepted _ e replay d pool _ told waits found rule turned =>
      obtain ⟨loaded, rest, ds, d', split, -, -, rfl, rfl, rfl, rfl, rfl⟩ :=
        course.of_publisher? orderly loading waits (Option.some.inj own).symm
      obtain rfl := Except.ok.inj (heard _ (List.mem_singleton_self _))
      have silent := (told_after call loaded ds [asks (H := H) d']).2.2
      have accepted : Filling p (begins call loaded ++ ds.flatMap publishes ++ [asks d'] ++
          [.pool ⟨.saved d'.ticket (.ok ()), [.accepted d, .answered d (.ok ())]⟩]) pool := by
        cases rule with
        | accept => exact filling.append rfl rfl (List.length_append ..) silent nofun
      rw [List.append_cons]
      refine accepted.of_turned (b := { b with pool }) ?_ (fun e there => ?_) turned
      · rw [resultsOf_append, silent]
        rfl
      · refine valid e (split ▸ ?_)
        exact List.mem_append_right _ (List.mem_cons_of_mem _ there)
    | @refused _ e replay d pool _ error waits found rule why =>
      obtain ⟨loaded, rest, ds, d', -, -, -, rfl, rfl, rfl, rfl, rfl⟩ :=
        course.of_publisher? orderly loading waits (Option.some.inj own).symm
      have silent := (told_after call loaded ds [asks (H := H) d']).2.2
      have held : b.pool.held = true :=
        orderly.held (List.ne_nil_of_mem (mem_of_publisher? waits).1)
      cases why with
      | late ended =>
        -- the queue takes events as long as the bus is open
        have closed := Pool.closed_of_ended closing ended held
        rw [filling.opened] at closed
        cases closed
      | full _ full =>
        have room : b.pool.queued = b.pool.config.queueSize := Nat.le_antisymm closing.room full
        cases rule with
        | refuseLate =>
          refine filling.append (r := b.pool.unsave _) rfl rfl rfl silent ?_
          intro replayed total source there
          cases List.mem_singleton.mp there
          have size := congrArg PoolConfig.queueSize filling.config
          exact ⟨congrArg BusError.queueFull size, room.trans size⟩

omit [DecidableEq H] in
/-- A replay that has its answer has got as far as there was room. -/
theorem fills (filling : Filling p deeds q) (room : q.queued ≤ p.config.queueSize)
    (course : Course saving call [.ok events] deeds none) (answered : resultsOf deeds ≠ []) :
    Fills p events deeds q := by
  have queued := filling.queued
  cases course with
  | @forsaken _ _ ds d =>
    exact absurd (told_after call events ds [asks d, .pool ⟨.forsake d.ticket, []⟩]).2.2 answered
  | @refused _ rest ds d error told wait split _ refuses =>
    let stop : List (Deed H) := [.stopped { call with wait } ⟨ds.length, events.length, rest⟩,
      .replayed { call with wait } (.error (.replay ds.length events.length error))]
    obtain ⟨accepted, savings, results⟩ := told_after call events ds (told ++ stop)
    obtain ⟨-, -, nothing, silent, -⟩ := refuses.told
    have pool : history (told ++ stop) = history told :=
      (history_append ..).trans (List.append_nil _)
    have answer : resultsOf (told ++ stop) =
        [.error (.replay ds.length events.length error)] := by
      rw [resultsOf_append, silent]
      rfl
    rw [pool, nothing, List.append_nil] at accepted
    rw [pool] at savings
    rw [answer] at results
    obtain ⟨rfl, full⟩ := filling.full _ _ _ (results ▸ List.mem_singleton_self _)
    have asked : (history told).savings = [d] := by
      cases refuses with
      | atOnce why => cases why
      | late => rfl
    rw [asked] at savings
    rw [accepted] at queued
    have free : p.config.queueSize - p.queued = (ds.map (·.event)).length := by
      rw [List.length_map]
      omega
    have more : (ds.map (·.event)).length + 1 ≤ events.length := by
      rw [← split, List.length_append, List.length_cons]
      omega
    refine ⟨?_, ?_, ?_, ?_⟩
    · rw [accepted, free, Nat.min_eq_right (Nat.le_of_lt more), ← split, List.take_left]
    · rw [savings, free, Nat.min_eq_right more, ← split, List.map_append,
        List.take_length_add_append]
      rfl
    · rw [results, free, if_neg (Nat.not_le_of_lt more), List.length_map]
    · rw [full]
      omega
  | @completed _ ds wait all _ =>
    obtain ⟨accepted, savings, results⟩ :=
      told_after call events ds [.replayed { call with wait } (.ok events.length)]
    have accepted : _ = ds := accepted.trans (List.append_nil ds)
    have savings : _ = ds := savings.trans (List.append_nil ds)
    have total : ds.length = events.length := by rw [← all, List.length_map]
    rw [accepted, total] at queued
    have fits : events.length ≤ p.config.queueSize - p.queued := by omega
    refine ⟨?_, ?_, ?_, ?_⟩
    · rw [accepted, all, Nat.min_eq_left fits, List.take_length]
    · rw [savings, all, Nat.min_eq_left (Nat.le_succ_of_le fits), List.take_length]
    · rw [results, if_pos fits]
      rfl
    · rw [queued, Nat.min_eq_left]
      omega

end Filling

/-! ## The moves of the replay -/

theorem Uninterrupted.of_snoc {n : Nat} {log : List (Move H)} {move : Move H}
    (alone : Uninterrupted n events (log ++ [move])) :
    Uninterrupted n events log ∧ move.replay? = some n ∧ move.action.Served n events :=
  ⟨⟨(List.forall_mem_append.mp alone.own).1, (List.forall_mem_append.mp alone.served).1⟩,
    (List.forall_mem_append.mp alone.own).2 _ (List.mem_singleton_self _),
    (List.forall_mem_append.mp alone.served).2 _ (List.mem_singleton_self _)⟩

/-- The store has answered with these events, if it has answered. -/
theorem Uninterrupted.heard {n : Nat} {log : List (Move H)} (alone : Uninterrupted n events log) :
    ∀ answer ∈ answersTo n log, answer = .ok events := by
  intro answer there
  obtain ⟨move, known, answers⟩ := List.mem_filterMap.mp there
  rcases alone.served move known with loads | ⟨t, saves⟩
  · rw [loads, BrokerAction.loaded?, if_pos rfl] at answers
    exact (Option.some.inj answers).symm
  · rw [saves] at answers
    cases answers

/-- A replay hears of its events once, has at most all of them accepted, and answers once. -/
theorem Course.bounded {stands : Option ReplayCall}
    (course : Course saving call answers deeds stands)
    (heard : ∀ answer ∈ answers, answer = .ok events) :
    answers.length + (history deeds).accepted.length + (resultsOf deeds).length ≤
      events.length + 2 := by
  rcases answers with _ | ⟨answer, _ | ⟨_, _⟩⟩
  · cases course <;> exact Nat.zero_le _
  · obtain rfl := heard answer (List.mem_singleton_self _)
    have exact := course.exact
    have accepted := exact.accepted.length_le
    have once := exact.once
    rw [List.length_map] at accepted
    rw [List.length_singleton]
    omega
  · cases course

/-- The store has loaded the events when the replay has its answer. -/
theorem Course.loaded_of_answered {stands : Option ReplayCall}
    (course : Course saving call answers deeds stands)
    (heard : ∀ answer ∈ answers, answer = .ok events) (answered : resultsOf deeds ≠ []) :
    answers = [.ok events] := by
  rcases answers with _ | ⟨answer, _ | ⟨_, _⟩⟩
  · cases course <;> exact absurd rfl answered
  · rw [heard answer (List.mem_singleton_self _)]
  · cases course

variable [DecidableEq H]

/-- Each move of a replay that nobody interrupts brings it forward: the store has loaded its events,
an event was accepted, or the replay has its answer. -/
theorem Rule.advances {n : Nat} {action : BrokerAction H} (served : action.Served n events)
    (rule : Rule b action c (some n) told) :
    1 ≤ (action.loaded? n).toList.length + (history told).accepted.length +
      (resultsOf told).length := by
  generalize own : some n = whose at rule
  rcases served with rfl | ⟨t, rfl⟩
  · rw [BrokerAction.loaded?, if_pos rfl, Option.toList_some, List.length_singleton]
    omega
  · cases rule with
    | act => cases own
    | @accepted _ _ _ d =>
      have came : ([.accepted d, .answered d (.ok ())].filterMap
        (Notice.accepted? (H := H))).length = 1 := rfl
      rw [history_pool, History.accepted, History.collect_cons, List.length_append, came]
      omega
    | refused => exact Nat.le_add_left 1 _

/-- What holds while a replay makes its moves that has come in when the pool was `p`. -/
structure Underway (p : Pool H) (call : ReplayCall) (during : List (Move H)) (c : Broker H) :
    Prop where
  known : call.number < c.calls
  course : Course c.pool.saving call (answersTo call.number during)
    (.loading call :: deedsOf during) (c.replay? call.number)
  filling : Filling p (.loading call :: deedsOf during) c.pool
  moves : during.length ≤ (answersTo call.number during).length +
    (history (deedsOf during)).accepted.length + (resultsOf (deedsOf during)).length
  answered : c.replay? call.number = none → resultsOf (deedsOf during) ≠ []

variable {config : PoolConfig} {log during : List (Move H)}

theorem Underway.of_rule (underway : Underway p call during b) (moved : Moved log b)
    (closing : Pool.Closing b.pool) (loading : call.wait = .loading)
    (valid : ∀ e ∈ events, p.check e = .ok ()) (alone : Uninterrupted call.number events during)
    {action : BrokerAction H} (served : action.Served call.number events)
    (rule : Rule b action c (some call.number) told) :
    Underway p call (during ++ [⟨action, some call.number, told⟩]) c := by
  have deeds : deedsOf (during ++ [⟨action, some call.number, told⟩]) =
      deedsOf during ++ told := by
    rw [deedsOf, List.flatMap_append, List.flatMap_singleton]
    rfl
  refine ⟨Nat.lt_of_lt_of_le underway.known rule.calls_le, ?_, ?_, ?_, fun gone => ?_⟩
  · rw [answersTo_snoc, deeds]
    exact underway.course.of_own moved.route moved.orderly underway.known loading rule
  · rw [deeds]
    exact underway.filling.of_rule closing moved.orderly loading underway.course alone.heard valid
      served rule
  · have before := underway.moves
    have now := rule.advances served
    rw [answersTo_snoc, deeds, history_append, History.accepted_append, resultsOf_append]
    simp only [List.length_append, List.length_singleton]
    omega
  · rw [deeds, resultsOf_append]
    intro none
    obtain ⟨silent, unanswered⟩ := List.append_eq_nil_iff.mp none
    have stood : b.replay? call.number ≠ Option.none := fun gone => underway.answered gone silent
    obtain ⟨-, ⟨e, result, there⟩ | leaves | ⟨t, leaves⟩⟩ := rule.left stood gone
    · have answer : result ∈ resultsOf told := List.mem_filterMap.mpr ⟨_, there, rfl⟩
      rw [unanswered] at answer
      cases answer
    · exact served.answered.1 leaves
    · exact served.answered.2 t leaves

theorem Underway.of_run (underway : Underway p call [] b)
    (run : Run Broker.watch (.new config) log b) (loading : call.wait = .loading)
    (valid : ∀ e ∈ events, p.check e = .ok ()) (more : Run Broker.watch b during c)
    (alone : Uninterrupted call.number events during) : Underway p call during c := by
  induction more with
  | refl => exact underway
  | @snoc during told c d action init watches ih =>
    obtain ⟨deeds, step, rfl⟩ := watch_eq_some.mp watches
    obtain ⟨alone, own, served⟩ := alone.of_snoc
    have own : c.turnOf action = some call.number := own
    have total := run.trans init
    have rule := Rule.of_step step
    rw [own] at rule ⊢
    exact (ih alone).of_rule (.of_run total) (.of_run (run_pool (run_of_watch total))) loading valid
      alone served rule

/-- A replay that has come in is underway. -/
theorem Underway.start {ctx : Context} {name : String} {since : Time.Instant}
    (orderly : Orderly b) (opened : b.pool.closed = false)
    (rule : Rule b (.replay ctx name since) c (some b.calls) told) :
    Underway b.pool ⟨b.calls, ctx, name, since, .loading⟩ [] c := by
  obtain ⟨-, -, stands⟩ := (orderly.of_rule rule).comes rule
  have course : Course c.pool.saving ⟨b.calls, ctx, name, since, .loading⟩ []
      ([.loading ⟨b.calls, ctx, name, since, .loading⟩] : List (Deed H))
      (c.replay? b.calls) := stands ▸ .loading
  cases rule with
  | begins =>
    refine ⟨Nat.lt_succ_self _, course, .start opened _, Nat.zero_le _, fun gone => ?_⟩
    rw [stands] at gone
    cases gone

/-- As long as a replay goes on it can make a move. -/
theorem Underway.can_move (underway : Underway p call during c) (moved : Moved log c)
    (loading : call.wait = .loading) {e : ReplayCall}
    (stands : c.replay? call.number = some e) (events : List Event) :
    ∃ action d told, action.Served call.number events ∧ c.turnOf action = some call.number ∧
      c.step action = some (d, told) := by
  have course := underway.course
  obtain ⟨canLoad, canSave⟩ := moved.orderly.can_go_on stands
  have known := List.mem_of_find?_eq_some stands
  have number := number_of_replay? stands
  rw [stands] at course
  generalize answersTo call.number during = answers at course
  generalize Deed.loading call :: deedsOf during = deeds at course
  cases course with
  | loading =>
    obtain ⟨⟨d, told⟩, step⟩ := canLoad loading (.ok events)
    exact ⟨_, d, told, .inl rfl, rfl, step⟩
  | publishing _ _ waits =>
    obtain ⟨⟨d, told⟩, step⟩ := canSave _ waits (.ok ())
    have own := moved.orderly.turnOf_eq known rfl (.inr ⟨.ok (), rfl⟩)
    exact ⟨_, d, told, .inr ⟨_, rfl⟩, own, step⟩

/-- A replay that nobody interrupts comes to its end. -/
theorem Underway.can_end (underway : Underway p call [] b)
    (run : Run Broker.watch (.new config) log b) (loading : call.wait = .loading)
    (valid : ∀ e ∈ events, p.check e = .ok ()) (more : Run Broker.watch b during c)
    (alone : Uninterrupted call.number events during) :
    ∃ rest d, Run Broker.watch c rest d ∧ Uninterrupted call.number events rest ∧
      d.replay? call.number = none := by
  -- there is a bound on the number of moves, and so on the number of those that are to come
  generalize left : events.length + 3 - during.length = moves
  induction moves generalizing during c with
  | zero =>
    have now := underway.of_run run loading valid more alone
    have bounded := now.course.bounded alone.heard
    have moves := now.moves
    have same : (history (.loading call :: deedsOf during)) = history (deedsOf during) := rfl
    have answers : resultsOf (.loading call :: deedsOf during) = resultsOf (deedsOf during) := rfl
    rw [same, answers] at bounded
    omega
  | succ moves ih =>
    have now := underway.of_run run loading valid more alone
    rcases stands : c.replay? call.number with _ | e
    · exact ⟨[], c, .refl, ⟨nofun, nofun⟩, stands⟩
    · obtain ⟨action, d, told, served, own, step⟩ :=
        now.can_move (.of_run (run.trans more)) loading stands events
      have watches := watch_eq_some.mpr ⟨told, step, rfl⟩
      have next : Uninterrupted call.number events [⟨action, c.turnOf action, told⟩] :=
        .single own served
      obtain ⟨rest, last, moves, alone, ended⟩ := ih (more.snoc watches) (alone.append next) (by
        rw [List.length_append, List.length_singleton]
        omega)
      exact ⟨_, last, (Run.single watches).trans moves, next.append alone, ended⟩

/-- **A replay that nobody interrupts fills the queue.** A replay comes in to an open bus, its store
loads these events and saves whatever it is asked to save, and nobody else has a turn. Then it comes
to its end; and when it has ended as many of the events were accepted as there was room for, in
order. It has published all if there was room for all, and stops otherwise at the first for which
there is none, which was saved nevertheless. -/
theorem replay_fills_queue {b₁ : Broker H} {told : List (Move H)} {ctx : Context} {name : String}
    {since : Time.Instant} (run : Run Broker.watch (.new config) log b)
    (opened : b.pool.closed = false)
    (comes : b.watch (.replay ctx name since) = some (b₁, told))
    (valid : ∀ e ∈ events, b.pool.check e = .ok ()) (more : Run Broker.watch b₁ during c)
    (alone : Uninterrupted b.calls events during) :
    (∃ rest d, Run Broker.watch c rest d ∧ Uninterrupted b.calls events rest ∧
      d.replay? b.calls = none) ∧
    (c.replay? b.calls = none → Fills b.pool events (deedsOf during) c.pool) := by
  obtain ⟨deeds, step, rfl⟩ := watch_eq_some.mp comes
  have moved : Moved log b := .of_run run
  have came := run.snoc comes
  have start := Underway.start moved.orderly opened (.of_step step)
  have now := start.of_run came rfl valid more alone
  refine ⟨start.can_end came rfl valid more alone, fun ended => ?_⟩
  have closing : Pool.Closing c.pool := .of_run (run_pool (run_of_watch (came.trans more)))
  have answered := now.answered ended
  have course := now.course
  rw [ended, course.loaded_of_answered alone.heard answered] at course
  have room := closing.room
  rw [now.filling.config] at room
  obtain ⟨accepted, saved, answer, queued⟩ := now.filling.fills room course answered
  exact ⟨accepted, saved, answer, queued⟩

/-- An event is published. -/
def publishing : List (BrokerAction Unit) :=
  [.pool (.publish default default), .pool (.saved 0 (.ok ()))]

/-- The moves of a replay of three events. -/
def replaying : List (BrokerAction Unit) :=
  [.loaded 0 (.ok [default, default, default]), .pool (.saved 1 (.ok ())),
    .pool (.saved 2 (.ok ()))]

theorem replay_fills_queue_third :
    ∃ (log told during : List (Move Unit)) (b b₁ c : Broker Unit),
      Run Broker.watch (.new ⟨2, 1, false⟩) log b ∧ b.pool.closed = false ∧ b.pool.queued = 1 ∧
      b.watch (.replay default default default) = some (b₁, told) ∧
      (∀ e ∈ [(default : Event), default, default], b.pool.check e = .ok ()) ∧
      Run Broker.watch b₁ during c ∧ Uninterrupted b.calls [default, default, default] during ∧
      c.replay? b.calls = none ∧
      resultsOf (deedsOf during) = [.error (.replay 1 3 (.queueFull 2))] ∧
      Fills b.pool [default, default, default] (deedsOf during) c.pool := by
  obtain ⟨log, told, during, b, b₁, c, first, opened, queued, comes, unchecked, number, second,
      actions, turns, ended, answer⟩ :
      ∃ log told during b b₁ c,
        runAll Broker.watch (.new ⟨2, 1, false⟩) publishing = some (b, log) ∧
        b.pool.closed = false ∧ b.pool.queued = 1 ∧
        b.watch (.replay default default default) = some (b₁, told) ∧
        b.pool.config.validateEvents = false ∧ b.calls = 0 ∧
        runAll Broker.watch b₁ replaying = some (c, during) ∧
        during.map (·.action) = replaying ∧
        during.map (·.replay?) = List.replicate 3 (some b.calls) ∧ c.replay? b.calls = none ∧
        resultsOf (deedsOf during) = [.error (.replay 1 3 (.queueFull 2))] :=
    ⟨_, _, _, _, _, _, rfl, rfl, rfl, rfl, rfl, rfl, rfl, rfl, rfl, rfl, rfl⟩
  have served : ∀ action ∈ replaying, action.Served 0 [default, default, default] := by
    simp [replaying, BrokerAction.Served]
  have valid : ∀ e ∈ [(default : Event), default, default], b.pool.check e = .ok () :=
    fun e _ => by rw [Pool.check, unchecked]; rfl
  have alone : Uninterrupted b.calls [default, default, default] during := by
    refine ⟨fun move there => ?_, fun move there => ?_⟩
    · exact List.eq_of_mem_replicate (turns ▸ List.mem_map_of_mem there)
    · rw [number]
      exact served move.action (actions ▸ List.mem_map_of_mem there)
  exact ⟨log, told, during, b, b₁, c, .ofActions first, opened, queued, comes, valid,
    .ofActions second, alone, ended, answer,
    (replay_fills_queue (.ofActions first) opened comes valid (.ofActions second) alone).2 ended⟩

end Broker

end DomainEvents.Bus
