import DomainEvents.Proofs.Bus.Publishing

/-!
# The backlog of a bus

How many events can have come into the queue and not be done with. So many wait as there is room in
the queue, one is in the hand of the dispatcher, and the others are with workers, of which there are
no more than permits. The hand holds its event, be it that the dispatcher runs or that it hands out
what is left after the signal to quit, and takes no other before that one has a worker.

A call of publish meets the queue in the step in which the store has answered. If the queue still
takes events then, there is room for its event or the call is told that there is none.
-/

namespace DomainEvents.Bus

variable {H : Type}

/-- The events that have come into the queue and whose workers have not ended. -/
def History.unfinished (h : History H) : List Dispatch :=
  h.accepted.filter fun d => d.ticket ∉ h.ended.map (·.ticket)

namespace Pool

variable {h : History H} {p q : Pool H} {config : PoolConfig} {notices : List (Notice H)}

/-! ## Where the backlog is -/

/-- The events that are not done with are with workers, in the hand, or in the queue. -/
theorem Route.unfinished_perm (route : Route h p) :
    h.unfinished.Perm (p.working ++ p.hand.toList ++ p.queue) := by
  have places : h.accepted.Perm (h.ended ++ (p.working ++ p.hand.toList ++ p.queue)) := by
    simpa [Place.all, standing] using route.accepted_perm
  have distinct := (places.map (·.ticket)).nodup_iff.mp route.accepted_distinct
  rw [List.map_append] at distinct
  obtain ⟨-, -, apart⟩ := List.nodup_append.mp distinct
  refine (places.filter _).trans ?_
  -- none of the ended events is left, and all others are, as no two events have the same number
  rw [List.filter_append, List.filter_eq_nil_iff.mpr, List.nil_append, List.filter_eq_self.mpr]
  · intro d hd
    simp only [decide_eq_true_eq]
    intro there
    exact apart _ there _ (List.mem_map_of_mem hd) rfl
  · intro d hd
    simpa using ⟨d, hd, rfl⟩

/-- There is one event in the hand at most. -/
theorem length_hand_le (hand : Hand) : hand.toList.length ≤ 1 := by
  cases hand <;> simp

/-- There are no more workers than permits. -/
theorem Slots.workers_le (slots : Slots h p) : p.workers.length ≤ p.config.workerCount := by
  have permits := slots.permits
  omega

/-- A dispatcher with an event in its hand runs, or hands out what is left in the queue. -/
theorem Closing.handing (closing : Closing p) (hand : p.hand ≠ .empty) :
    p.stage = .running ∨ ∃ n, p.stage = .draining n := by
  cases stage : p.stage with
  | running => exact .inl rfl
  | draining n => exact .inr ⟨n, rfl⟩
  | joining => exact absurd (closing.emptied (.inl stage)).1 hand
  | stopped => exact absurd (closing.emptied (.inr stage)).1 hand

/-! ## Coming to the queue -/

variable [DecidableEq H]

/-- What a call meets when the store has saved its event. -/
theorem Rule.enqueue_cases {t : Nat} (rule : Rule p (.saved t (.ok ())) q notices) :
    ∃ d ∈ p.saving, d.ticket = t ∧
      (p.accepting = false ∧ notices = refusal d .shuttingDown ∨
        p.accepting = true ∧ p.config.queueSize ≤ p.queued ∧
          notices = refusal d (.queueFull p.config.queueSize) ∨
        p.accepting = true ∧ p.queued < p.config.queueSize ∧
          notices = [.accepted d, .answered d (.ok ())]) := by
  cases rule with
  | refuseLate waits why =>
    refine ⟨_, List.mem_of_find?_eq_some waits, ticket_of_found waits, ?_⟩
    cases why with
    | late ended => exact .inl ⟨ended, rfl⟩
    | full accepting full => exact .inr (.inl ⟨accepting, full, rfl⟩)
  | accept waits accepting room =>
    exact ⟨_, List.mem_of_find?_eq_some waits, ticket_of_found waits,
      .inr (.inr ⟨accepting, room, rfl⟩)⟩
  | register _ changes => cases changes

/-- A call is only told that there is no room when it comes to a queue that takes events. -/
theorem Rule.full_of_answered {action : Action H} (rule : Rule p action q notices) {d : Dispatch}
    {n : Nat} (answered : .answered d (.error (.queueFull n)) ∈ notices) :
    action = .saved d.ticket (.ok ()) ∧ p.accepting = true ∧ n = p.config.queueSize := by
  cases rule with
  | refuse held why => cases why <;> simp at answered
  | refuseLate waits why =>
    cases why with
    | full accepting =>
      obtain ⟨rfl, rfl⟩ : d = _ ∧ n = _ := by simpa using answered
      rw [ticket_of_found waits]
      exact ⟨rfl, accepting, rfl⟩
    | _ => simp at answered
  | close => cases p.closed <;> simp at answered
  | join => cases p.joinable <;> simp at answered
  | _ => simp at answered

/-- **The backlog is bounded, and a full queue says so.** After every run of a bus: no more events
wait than there is room for; those that are not done with are with workers, in the hand or in the
queue, and are no more than one more than there is room and there are workers for, as the hand has
one at most, and only while the dispatcher runs or hands out what is left. And whenever a call of
publish comes to a queue that takes events, it is refused for want of room if so many events wait as
there is room for, and succeeds if fewer wait; no other call is refused for want of room. -/
theorem backlog_bounded {log : List (Deed H)} {b : Broker H}
    (run : Run Broker.step (Broker.new config) log b) :
    let p := b.pool
    let h := history log
    p.queued ≤ config.queueSize ∧
      (h.unfinished.Perm (p.working ++ p.hand.toList ++ p.queue) ∧
        h.unfinished.length ≤ config.queueSize + 1 + config.workerCount) ∧
      (p.hand.toList.length ≤ 1 ∧
        (p.hand ≠ .empty → p.stage = .running ∨ ∃ n, p.stage = .draining n)) ∧
      (∀ before t notices after m, h = before ++ ⟨.saved t (.ok ()), notices⟩ :: after →
        Run Pool.tick (.new config) before m →
        ∃ d ∈ m.saving, d.ticket = t ∧
          (m.accepting = true →
            (.answered d (.error (.queueFull config.queueSize)) ∈ notices ↔
              m.queued = config.queueSize) ∧
            (.answered d (.ok ()) ∈ notices ↔ m.queued < config.queueSize))) ∧
      ∀ d n, .answered d (.error (.queueFull n)) ∈ h.notices →
        n = config.queueSize ∧ ∃ before notices after m,
          h = before ++ ⟨.saved d.ticket (.ok ()), notices⟩ :: after ∧
          Run Pool.tick (.new config) before m ∧ m.accepting = true ∧
          .answered d (.error (.queueFull n)) ∈ notices := by
  intro p h
  have run : Run Pool.tick (Pool.new config) h p := Broker.run_pool run
  have route : Route h p := .of_run run
  have slots : Slots h p := .of_run run
  have closing : Closing p := .of_run run
  have room := closing.room
  have workers := slots.workers_le
  rw [config_of_run run] at room workers
  refine ⟨room, ⟨route.unfinished_perm, ?_⟩, ⟨length_hand_le p.hand, closing.handing⟩, ?_, ?_⟩
  · have length := route.unfinished_perm.length_eq
    have hand := length_hand_le p.hand
    rw [queued] at room
    rw [List.length_append, List.length_append, working, List.length_map] at length
    omega
  · intro before t notices after m split reach
    rw [split] at run
    obtain ⟨m', q, before, step, -⟩ := run_cut run
    obtain rfl := run_unique before reach
    obtain ⟨d, waits, ticket, outcome⟩ := (Rule.of_step step).enqueue_cases
    refine ⟨d, waits, ticket, ?_⟩
    have room := (Closing.of_run reach).room
    rw [config_of_run reach] at room outcome
    intro accepting
    rcases outcome with ⟨ended, -⟩ | ⟨-, full, rfl⟩ | ⟨-, free, rfl⟩
    · rw [accepting] at ended
      cases ended
    · have same : m'.queued = config.queueSize := Nat.le_antisymm room full
      simp [refusal, same]
    · simp [free, Nat.ne_of_lt free]
  · intro d n answered
    obtain ⟨before, ⟨action, notices⟩, after, split, told⟩ := History.exists_cut answered
    rw [split] at run
    obtain ⟨m, q, reach, step, -⟩ := run_cut run
    obtain ⟨rfl, accepting, rfl⟩ := (Rule.of_step step).full_of_answered told
    exact ⟨by rw [config_of_run reach], before, notices, after, m, split, reach, accepting, told⟩

/-- A bus with room for one event and one worker, whose worker does not get to its handlers. Of four
events the first is with the worker, the second in the hand, and the third in the queue; the fourth
is refused. -/
theorem backlog_bounded_full :
    ∃ (log : List (Deed Unit)) (b : Broker Unit) (before : History Unit)
      (notices : List (Notice Unit)) (m : Pool Unit),
      Run Broker.step (Broker.new ⟨1, 1, false⟩) log b ∧
      (history log).unfinished.length = 3 ∧ (history log).unfinished.length ≤ 1 + 1 + 1 ∧
      history log = before ++ ⟨.saved 3 (.ok ()), notices⟩ :: [] ∧
      Run Pool.tick (.new ⟨1, 1, false⟩) before m ∧ m.accepting = true ∧ m.queued = 1 ∧
      ∃ d ∈ m.saving, d.ticket = 3 ∧ .answered d (.error (.queueFull 1)) ∈ notices := by
  let publish (t : Nat) : List (BrokerAction Unit) :=
    [.pool (.publish default default), .pool (.saved t (.ok ()))]
  obtain ⟨earlier, c, first, accepting, queued, last⟩ : ∃ earlier c,
      runAll Broker.step (Broker.new ⟨1, 1, false⟩)
        (publish 0 ++ [.pool .dispatch, .pool .dispatch] ++ publish 1 ++ [.pool .dispatch] ++
          publish 2 ++ [.pool (.publish default default)]) = some (c, earlier) ∧
      c.pool.accepting = true ∧ c.pool.queued = 1 ∧
      ∃ b notices, c.step (.pool (.saved 3 (.ok ()))) =
        some (b, [.pool ⟨.saved 3 (.ok ()), notices⟩]) ∧
      (history (earlier ++ [.pool ⟨.saved 3 (.ok ()), notices⟩])).unfinished.length = 3 :=
    ⟨_, _, rfl, rfl, rfl, _, _, rfl, rfl⟩
  obtain ⟨b, notices, step, unfinished⟩ := last
  have run := (Run.ofActions first).snoc step
  have split := history_append earlier [.pool ⟨.saved 3 (.ok ()), notices⟩]
  have reach := Broker.run_pool (Run.ofActions first)
  obtain ⟨-, ⟨-, bound⟩, -, meets, -⟩ := backlog_bounded run
  obtain ⟨d, waits, ticket, answers⟩ := meets _ _ _ _ _ split reach
  exact ⟨_, b, _, notices, c.pool, run, unfinished, bound, split, reach, accepting, queued, d,
    waits, ticket, (answers accepting).1.mpr queued⟩

end Pool

end DomainEvents.Bus
