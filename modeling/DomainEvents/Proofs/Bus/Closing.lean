import DomainEvents.Proofs.Bus.Slots

/-!
# Closing a bus

The dispatcher goes through its stages in one direction. It runs until it is told to quit, then the
queue takes no more events; it hands out what is left, waits for the workers, and stops. `Closing`
says what is true of a pool in each stage, whoever closes it and however often.

A call of publish that was let in before the bus was closed may wait for the store all this time. It
is refused when the store has answered, unless the queue still takes events, and then its event is
handed out like any other. So nothing is left when a call of close sees that the dispatcher has
stopped, and nothing comes after.
-/

namespace DomainEvents.Bus

variable {H : Type}

namespace Pool

/-- What is true of a pool that goes through the stages of its dispatcher. -/
structure Closing (p : Pool H) : Prop where
  /-- the queue takes events as long as the dispatcher runs -/
  open_iff : p.accepting = true ↔ p.stage = .running
  /-- the dispatcher runs until it is told to quit -/
  told : p.stage ≠ .running → p.quit = true
  /-- it is told to quit when the bus is closed, or nobody holds it any more -/
  signalled : p.quit = true → p.closed = true ∨ p.held = false
  /-- when it waits for the workers all events have been handed out -/
  emptied : p.stage = .joining ∨ p.stage = .stopped → p.hand = .empty ∧ p.queue = []
  /-- when it has stopped all workers have ended -/
  idle : p.stage = .stopped → p.workers = []
  /-- it has stopped when a call of close has seen that -/
  joined : p.joinable = false → p.stage = .stopped
  /-- whoever waits for an answer holds the bus -/
  awaited : p.saving ≠ [] ∨ p.closers ≠ [] → p.held = true
  /-- no more events wait than the queue has room for -/
  room : p.queued ≤ p.config.queueSize

namespace Closing

theorem start (config : PoolConfig) : Closing (.new config : Pool H) where
  open_iff := by simp [new]
  told := by simp [new]
  signalled := by simp [new]
  emptied := by simp [new]
  idle := by simp [new]
  joined := by simp [new]
  awaited := by simp [new]
  room := by simp [new, queued]

variable {p q : Pool H} {action : Action H} {notices : List (Notice H)}

/-- A dispatcher with an event in its hand has not come to its end. -/
theorem not_emptied_of_hand (closing : Closing p) {d : Dispatch} (hand : p.hand = .granted d) :
    ¬(p.stage.counted = .joining ∨ p.stage.counted = .stopped) := by
  intro ended
  have same : p.stage.counted = p.stage := by
    cases stage : p.stage with
    | draining n => simp [stage, Stage.counted] at ended
    | _ => rfl
  rw [same] at ended
  have empty := (closing.emptied ended).1
  rw [hand] at empty
  cases empty

variable [DecidableEq H]

theorem open_iff_of_rule (closing : Closing p) (rule : Rule p action q notices) :
    q.accepting = true ↔ q.stage = .running := by
  have open_iff := closing.open_iff
  cases rule with
  | handOut hand =>
    rw [open_iff]
    cases p.stage <;> simp [Stage.counted]
  | quit => simp
  | drain hand stage => simpa [stage] using open_iff
  | stop hand stage => simpa [stage] using open_iff
  | _ => exact open_iff

theorem told_of_rule (closing : Closing p) (rule : Rule p action q notices) :
    q.stage ≠ .running → q.quit = true := by
  have told := closing.told
  cases rule with
  | handOut hand =>
    intro moved
    refine told ?_
    intro running
    exact moved (by simp [running, Stage.counted])
  | quit hand stage quit => exact fun _ => quit
  | drain hand stage => exact fun _ => told (by simp [stage])
  | stop hand stage => exact fun _ => told (by simp [stage])
  | close => exact fun _ => rfl
  | release => exact fun _ => rfl
  | _ => exact told

theorem signalled_of_rule (closing : Closing p) (rule : Rule p action q notices) :
    q.quit = true → q.closed = true ∨ q.held = false := by
  have signalled := closing.signalled
  cases rule with
  | close => exact fun _ => .inl rfl
  | release => exact fun _ => .inr rfl
  | _ => exact signalled

theorem emptied_of_rule (closing : Closing p) (rule : Rule p action q notices) :
    q.stage = .joining ∨ q.stage = .stopped → q.hand = .empty ∧ q.queue = [] := by
  have emptied := closing.emptied
  cases rule with
  | accept waits accepting =>
    -- the queue still takes events, so the dispatcher runs
    intro ended
    replace ended : p.stage = .joining ∨ p.stage = .stopped := ended
    rw [closing.open_iff.mp accepting] at ended
    simp at ended
  | handOut hand => exact fun ended => absurd ended (closing.not_emptied_of_hand hand)
  | quit => simp
  | take hand stage =>
    intro ended
    replace ended : p.stage = .joining ∨ p.stage = .stopped := ended
    obtain running | ⟨n, draining⟩ := stage
    · simp [running] at ended
    · simp [draining] at ended
  | drain hand _ queue => exact fun _ => ⟨hand, queue⟩
  | stop hand stage => exact fun _ => emptied (.inl stage)
  | finish =>
    intro ended
    obtain ⟨hand, queue⟩ := emptied ended
    refine ⟨?_, queue⟩
    show p.hand.grant = .empty
    rw [hand]
    rfl
  | _ => exact emptied

theorem idle_of_rule (closing : Closing p) (rule : Rule p action q notices) :
    q.stage = .stopped → q.workers = [] := by
  have idle := closing.idle
  -- a step of a worker cannot come after the dispatcher has stopped, as there are no workers then
  have nobody {t : Nat} {w : Worker H} (found : p.worker? t = some w) : p.stage ≠ .stopped := by
    intro stopped
    rw [worker?, idle stopped] at found
    cases found
  cases rule with
  | handOut hand => exact fun stopped => absurd (.inr stopped) (closing.not_emptied_of_hand hand)
  | quit => simp
  | drain => simp
  | stop _ _ _ workers => exact fun _ => workers
  | start worker => exact fun stopped => absurd stopped (nobody worker)
  | turn worker => exact fun stopped => absurd stopped (nobody worker)
  | finish worker => exact fun stopped => absurd stopped (nobody worker)
  | _ => exact idle

theorem joined_of_rule (closing : Closing p) (rule : Rule p action q notices) :
    q.joinable = false → q.stage = .stopped := by
  have joined := closing.joined
  cases rule with
  | handOut hand =>
    intro seen
    have stopped := joined seen
    have counted : p.stage.counted = .stopped := by rw [stopped]; rfl
    exact absurd (.inr counted) (closing.not_emptied_of_hand hand)
  | quit _ stage => exact fun seen => absurd (joined seen) (by simp [stage])
  | drain _ stage => exact fun seen => absurd (joined seen) (by simp [stage])
  | stop => exact fun _ => rfl
  | join waits sees =>
    intro _
    obtain ⟨-, seen | stopped⟩ : _ ∧ (p.joinable = false ∨ p.stage = .stopped) := by
      simpa [canJoin] using sees
    · exact joined seen
    · exact stopped
  | _ => exact joined

theorem awaited_of_rule (closing : Closing p) (rule : Rule p action q notices) :
    q.saving ≠ [] ∨ q.closers ≠ [] → q.held = true := by
  -- a call is only answered, or gone away from, while it waits
  have saves {t : Nat} {d : Dispatch} (waits : p.saving.find? (·.ticket == t) = some d) :
      p.held = true :=
    closing.awaited (.inl (List.ne_nil_of_mem (List.mem_of_find?_eq_some waits)))
  have closes {t : Nat} {c : Closer} (waits : p.closers.find? (·.ticket == t) = some c) :
      p.held = true :=
    closing.awaited (.inr (List.ne_nil_of_mem (List.mem_of_find?_eq_some waits)))
  cases rule with
  | ask held => exact fun _ => held
  | refuseLate waits => exact fun _ => saves waits
  | accept waits => exact fun _ => saves waits
  | forsake waits => exact fun _ => saves waits
  | close held => exact fun _ => held
  | join waits => exact fun _ => closes waits
  | expire waits => exact fun _ => closes waits
  | abandon waits => exact fun _ => closes waits
  | release _ saving closers => simp [saving, closers]
  | _ => exact closing.awaited

theorem room_of_rule (closing : Closing p) (rule : Rule p action q notices) :
    q.queued ≤ q.config.queueSize := by
  have room := closing.room
  cases rule with
  | accept _ _ free =>
    rw [queued, List.length_append]
    exact free
  | take _ _ queue =>
    rw [queued, queue] at room
    exact Nat.le_of_succ_le room
  | _ => exact room

/-- **Every rule keeps to the stages.** -/
theorem of_rule (closing : Closing p) (rule : Rule p action q notices) : Closing q where
  open_iff := closing.open_iff_of_rule rule
  told := closing.told_of_rule rule
  signalled := closing.signalled_of_rule rule
  emptied := closing.emptied_of_rule rule
  idle := closing.idle_of_rule rule
  joined := closing.joined_of_rule rule
  awaited := closing.awaited_of_rule rule
  room := closing.room_of_rule rule

/-- Every run keeps to the stages. -/
theorem of_run {config : PoolConfig} {h : History H} (run : Run Pool.tick (.new config) h p) :
    Closing p :=
  run_induction (P := fun _ p => Closing p) (.start config)
    (fun closing rule => closing.of_rule rule) run

/-! ## After the end -/

/-- A dispatcher that has stopped does not start again. -/
theorem stopped_of_rule (closing : Closing p) (stopped : p.stage = .stopped)
    (rule : Rule p action q notices) : q.stage = .stopped := by
  cases rule with
  | handOut hand =>
    have counted : p.stage.counted = .stopped := by rw [stopped]; rfl
    exact absurd (.inr counted) (closing.not_emptied_of_hand hand)
  | quit _ stage => exact absurd stopped (by simp [stage])
  | drain _ stage => exact absurd stopped (by simp [stage])
  | stop => rfl
  | _ => exact stopped

/-- When the dispatcher has stopped, publishing fails. -/
theorem refused_of_rule (closing : Closing p) (stopped : p.stage = .stopped)
    (rule : Rule p action q notices) {d : Dispatch} {result : Except BusError Unit}
    (answered : .answered d result ∈ notices) : ∃ error, result = .error error := by
  cases rule with
  | refuse =>
    obtain ⟨-, rfl⟩ : _ ∧ result = .error _ := by simpa using answered
    exact ⟨_, rfl⟩
  | refuseLate =>
    obtain ⟨-, rfl⟩ : _ ∧ result = .error _ := by simpa using answered
    exact ⟨_, rfl⟩
  | accept _ accepting =>
    have running := closing.open_iff.mp accepting
    rw [stopped] at running
    cases running
  | close => cases p.closed <;> simp at answered
  | join => cases p.joinable <;> simp at answered
  | _ => simp at answered

/-- After the dispatcher has stopped all publishing fails, and no worker does anything. -/
theorem silent_of_run {h : History H} (closing : Closing p) (stopped : p.stage = .stopped)
    (run : Run Pool.tick p h q) :
    (∀ d result, .answered d result ∈ h.notices → ∃ error, result = .error error) ∧
      ∀ d n, .worker d n ∉ h.notices := by
  let P (h : History H) (q : Pool H) : Prop :=
    (Closing q ∧ q.stage = .stopped) ∧
      (∀ d result, .answered d result ∈ h.notices → ∃ error, result = .error error) ∧
      ∀ d n, .worker d n ∉ h.notices
  refine (run_induction (P := P) ⟨⟨closing, stopped⟩, by simp, by simp⟩ ?_ run).2
  rintro h q r action notices ⟨⟨closing, stopped⟩, refused, idle⟩ rule
  refine ⟨⟨closing.of_rule rule, closing.stopped_of_rule stopped rule⟩, ?_, ?_⟩
  · intro d result answered
    rcases History.mem_notices_snoc.mp answered with earlier | now
    · exact refused d result earlier
    · exact closing.refused_of_rule stopped rule now
  · intro d n told
    rcases History.mem_notices_snoc.mp told with earlier | now
    · exact idle d n earlier
    · have mem : d ∈ q.working := rule.mem_working now
      rw [working, closing.idle stopped] at mem
      cases mem

end Closing

variable [DecidableEq H] {h : History H} {p : Pool H} {config : PoolConfig}

/-- A call of publish succeeds in the step in which its event comes into the queue. -/
theorem Rule.accepted_of_answered {q : Pool H} {action : Action H} {notices : List (Notice H)}
    (rule : Rule p action q notices) {d : Dispatch} (answered : .answered d (.ok ()) ∈ notices) :
    .accepted d ∈ notices := by
  cases rule with
  | accept =>
    obtain rfl : d = _ := by simpa using answered
    exact List.mem_cons_self
  | close => cases p.closed <;> simp at answered
  | join => cases p.joinable <;> simp at answered
  | _ => simp at answered

/-- Only an event that has come into the queue is answered with success. -/
theorem accepted_of_answered (run : Run Pool.tick (.new config) h p) {d : Dispatch}
    (answered : .answered d (.ok ()) ∈ h.notices) : d ∈ h.accepted := by
  let P (h : History H) (_ : Pool H) : Prop :=
    .answered d (.ok ()) ∈ h.notices → .accepted d ∈ h.notices
  refine History.mem_accepted.mpr (run_induction (P := P) ?_ ?_ run answered)
  · intro answered
    cases answered
  · intro h p q action notices known rule answered
    refine History.mem_notices_snoc.mpr ?_
    rcases History.mem_notices_snoc.mp answered with earlier | now
    · exact .inl (known earlier)
    · exact .inr (rule.accepted_of_answered now)

/-- A call of close succeeds only if the dispatcher has stopped. -/
theorem Closing.stopped_of_answered {q : Pool H} {action : Action H} {notices : List (Notice H)}
    (closing : Closing p) (rule : Rule p action q notices) {c : Closer}
    (answered : .closeAnswered c (.ok ()) ∈ notices) : q.stage = .stopped := by
  cases rule with
  | join waits sees => exact (closing.of_rule (.join waits sees)).joined rfl
  | close => cases p.closed <;> simp at answered
  | _ => simp at answered

/-- When a call of close has been answered with success the dispatcher has stopped. -/
theorem stopped_of_closed (run : Run Pool.tick (.new config) h p) {c : Closer}
    (closed : .closeAnswered c (.ok ()) ∈ h.notices) : p.stage = .stopped := by
  let P (h : History H) (p : Pool H) : Prop :=
    Closing p ∧ (.closeAnswered c (.ok ()) ∈ h.notices → p.stage = .stopped)
  refine (run_induction (P := P) ⟨.start config, by simp⟩ ?_ run).2 closed
  rintro h p q action notices ⟨closing, stopped⟩ rule
  refine ⟨closing.of_rule rule, ?_⟩
  intro closed
  rcases History.mem_notices_snoc.mp closed with earlier | now
  · exact closing.stopped_of_rule (stopped earlier) rule
  · exact closing.stopped_of_answered rule now

/-- **A bus that was closed is empty for good.** After every run of a bus in which a call of close
was answered with success, from the moment of the answer on: the dispatcher has stopped, no event
waits, no worker is counted, and all permits are free; the worker of every event that was published
with success has ended; and whatever happens next, no call of publish succeeds and no handler is
called. -/
theorem closed_is_final {log : List (Deed H)} {b : Broker H}
    (run : Run Broker.step (Broker.new config) log b) {c : Closer}
    (closed : .closeAnswered c (.ok ()) ∈ (history log).notices) :
    (b.pool.stage = .stopped ∧ b.pool.queued = 0 ∧ b.pool.inFlight = 0 ∧
        b.pool.free = config.workerCount) ∧
      (∀ d, .answered d (.ok ()) ∈ (history log).notices → d ∈ (history log).ended) ∧
      ∀ more after, Run Broker.step b more after →
        (∀ d result, .answered d result ∈ (history more).notices →
          ∃ error, result = .error error) ∧
        ∀ d entry, .worker d (.called entry) ∉ (history more).notices := by
  have run := Broker.run_pool run
  have stopped := stopped_of_closed run closed
  have closing : Closing b.pool := .of_run run
  have slots : Slots (history log) b.pool := .of_run run
  have route : Route (history log) b.pool := .of_run run
  obtain ⟨hand, queue⟩ := closing.emptied (.inr stopped)
  have idle := closing.idle stopped
  refine ⟨⟨stopped, ?_, ?_, ?_⟩, ?_, ?_⟩
  · rw [queued, queue]
    rfl
  · rw [slots.counted, running, having, idle]
    rfl
  · have permits := slots.permits
    rw [hand, idle, config_of_run run] at permits
    exact permits
  · -- of the places where the event can be all but one are empty
    intro d answered
    have places := route.accepted_perm.mem_iff.mp (accepted_of_answered run answered)
    simpa [Place.all, standing, working, hand, queue, idle] using places
  · intro more after later
    obtain ⟨refused, silent⟩ := closing.silent_of_run stopped (Broker.run_pool later)
    exact ⟨refused, fun d entry => silent d (.called entry)⟩

/-- A bus that is closed while a call of publish waits for the store. The event comes into the queue
after that, and is worked on before the call of close has its answer. -/
def lateEvent : List (BrokerAction Unit) :=
  [.pool (.publish default default), .pool (.close ⟨5, 0⟩), .pool (.saved 0 (.ok ())),
    .pool .dispatch, .pool .dispatch, .pool .dispatch, .pool (.start 0),
    .pool (.reply 0 (.marked (.returned (.ok ())))), .pool .dispatch, .pool .dispatch,
    .pool .dispatch, .pool (.join 1)]

theorem closed_is_final_lateEvent :
    ∃ (log : List (Deed Unit)) (b : Broker Unit),
      Run Broker.step (Broker.new ⟨2, 1, false⟩) log b ∧
      .closeAnswered ⟨1, ⟨5, 0⟩⟩ (.ok ()) ∈ (history log).notices ∧
      .answered ⟨0, default, default⟩ (.ok ()) ∈ (history log).notices ∧
      (b.pool.stage = .stopped ∧ b.pool.queued = 0 ∧ b.pool.inFlight = 0 ∧ b.pool.free = 1) ∧
      ⟨0, default, default⟩ ∈ (history log).ended := by
  obtain ⟨log, b, all, closed, answered⟩ : ∃ log b,
      runAll Broker.step (Broker.new ⟨2, 1, false⟩) lateEvent = some (b, log) ∧
      (history log).notices.getLast? = some (.closeAnswered ⟨1, ⟨5, 0⟩⟩ (.ok ())) ∧
      (history log).notices[3]? = some (.answered ⟨0, default, default⟩ (.ok ())) :=
    ⟨_, _, rfl, rfl, rfl⟩
  replace closed := List.mem_of_getLast? closed
  replace answered := List.mem_of_getElem? answered
  obtain ⟨state, ended, -⟩ := closed_is_final (Run.ofActions all) closed
  exact ⟨log, b, .ofActions all, closed, answered, state, ended _ answered⟩

end Pool

end DomainEvents.Bus
