import DomainEvents.Proofs.Behaviour
import DomainEvents.Proofs.Bus.Backlog
import DomainEvents.Proofs.Bus.Worker
import Mathlib.Algebra.Ring.Nat
import Mathlib.Data.Prod.Lex

/-!
# Draining

A bus that has something to do can go on, and a bus that was closed or let go of comes to its end.

As long as an event is not done with, the dispatcher can go on or there is a worker, and a worker
can go on as soon as the call that it waits for has ended. The dispatcher waits for a permit only
while workers have all of them. When the bus was closed or let go of no new event is on its way to
the queue, and `Pool.load` measures what is left to do: the dispatcher and the workers make it less
with every step, and nobody makes it more.
-/

namespace DomainEvents.Bus

variable {H : Type}

/-! ## Configurations of buses that were built -/

namespace PoolConfig

theorem positive_of_validate {c : PoolConfig} (valid : c.validate = .ok ()) :
    1 ≤ c.queueSize ∧ 1 ≤ c.workerCount := by
  rw [validate] at valid
  split at valid
  case isTrue => cases valid
  case isFalse =>
    split at valid
    case isTrue => cases valid
    case isFalse => omega

theorem validate_of_build {wanted config : PoolConfig} {inRuntime : Bool}
    (built : wanted.build inRuntime = .built config) : config.validate = .ok () := by
  rw [build] at built
  rcases valid : wanted.validate with e | ⟨⟨⟩⟩
  · rw [valid] at built
    cases built
  · simp only [valid] at built
    split at built
    case isTrue => cases built
    case isFalse =>
      split at built
      case isTrue => cases built
      case isFalse =>
        obtain rfl : wanted = config := by simpa using built
        exact valid

end PoolConfig

/-! ## What is left to do -/

/-- How many steps a worker that has started makes at most before it ends, and one more. -/
def Phase.work : Phase H → Nat
  | .spawned => 0
  | .naming _ rest => 4 * rest.length + 7
  | .asking _ _ rest => 4 * rest.length + 6
  | .handling _ _ rest => 4 * rest.length + 5
  | .reporting _ rest => 4 * rest.length + 4
  | .marking => 3
  | .reportingMark _ => 2

/-- What is left to do when a worker goes on or ends; the dispatcher looks at it once more then. -/
def Progress.work : Progress H → Nat
  | .next phase => phase.work
  | .finished | .killed => 1

theorem Progress.work_of_end {progress : Progress H} {killed : Bool}
    (ends : progress.end? = some killed) : progress.work = 1 := by
  cases progress with
  | next => cases ends
  | _ => rfl

theorem Phase.isStarted_spawned : (spawned : Phase H).isStarted = false := rfl

theorem Phase.work_turnTo (entries : List (Subscription H)) :
    (turnTo entries).work = 4 * entries.length + 3 := by
  cases entries <;> rfl

/-- A worker that has heard something has less to do. -/
theorem Phase.work_of_step {event : Event} {phase : Phase H} {reply : Reply}
    {progress : Progress H} {told : List (WorkerNotice H)}
    (h : phase.step event reply = some (progress, told)) :
    progress.work < phase.work := by
  revert h
  fun_cases Phase.step
  all_goals intro h; cases h
  all_goals simp only [Progress.work, Phase.work_turnTo]
  all_goals simp only [Phase.work]
  all_goals omega

/-- Whether a worker waits for the end of a handler or for the store, which may take their time. -/
def Phase.isAway : Phase H → Bool
  | .handling _ _ _ | .marking => true
  | _ => false

/-- Whether a handler or the store comes back to a worker. -/
def Action.comesBack : Action H → Bool
  | .reply _ (.handled _) | .reply _ (.marked _) => true
  | _ => false

/-- A handler or the store comes back to a worker that waits for that. -/
theorem Phase.comesBack_of_call? {event : Event} {phase : Phase H} {reply : Reply} {call : Call H}
    (h : phase.call? event reply = some call) (t : Nat) :
    (Action.reply t reply : Action H).comesBack = phase.isAway := by
  revert h
  fun_cases Phase.call?
  all_goals intro h; cases h
  all_goals rfl

/-- How many stages the dispatcher has before it. -/
def Stage.ahead : Stage → Nat
  | .running => 3
  | .draining _ => 2
  | .joining => 1
  | .stopped => 0

namespace Pool

/-- How far the events are from their workers, all together. -/
def distance (p : Pool H) : Nat :=
  4 * p.saving.length + 3 * p.queue.length + 2 * p.hand.toList.length +
    p.workers.countP (!·.phase.isStarted)

/-- How much the workers that have started and the dispatcher have to do. -/
def effort (p : Pool H) : Nat :=
  (p.workers.map (·.phase.work)).sum + p.ended.length + p.stage.ahead

/-- What is left to do. A worker that starts may have any number of handlers to call, so the way of
the events to their workers comes first. -/
def load (p : Pool H) : Nat ×ₗ Nat := toLex (p.distance, p.effort)

/-- Whether the bus was closed or nobody holds it any more. -/
def Ending (p : Pool H) : Prop := p.closed = true ∨ p.held = false

end Pool

/-- Whether the dispatcher or a worker makes a step. -/
def Action.drives : Action H → Bool
  | .dispatch | .start _ | .reply _ _ => true
  | _ => false

theorem Action.drives_of_registration? [DecidableEq H] {action : Action H}
    {change : Registry H → Registry H} (h : action.registration? = some change) :
    action.drives = false := by
  cases action with
  | dispatch => cases h
  | start => cases h
  | reply => cases h
  | _ => rfl

namespace Pool

variable [DecidableEq H] {config : PoolConfig} {h : History H} {p q : Pool H} {action : Action H}
  {notices : List (Notice H)}

/-- A bus that was closed or let go of stays so. -/
theorem Rule.ending (rule : Rule p action q notices) (ending : p.Ending) : q.Ending := by
  cases rule with
  | close => exact .inl rfl
  | release => exact .inr rfl
  | _ => exact ending

omit [DecidableEq H] in
/-- A worker that makes a step goes on or ends, and all other workers stay as they are. -/
theorem workers_perm {t : Nat} {w : Worker H} (distinct : (p.working.map (·.ticket)).Nodup)
    (found : p.worker? t = some w) :
    ∃ rest, p.workers.Perm (w :: rest) ∧
      (∀ phase, (p.setPhase t phase).workers.Perm ({ w with phase } :: rest)) ∧
      ∀ killed, (p.endWorker w.dispatch killed).1.workers = rest := by
  obtain ⟨l₁, l₂, split, set, ended⟩ := workers_split distinct found
  refine ⟨l₁ ++ l₂, ?_, ?_, ended⟩
  · rw [split]
    exact List.perm_middle
  · intro phase
    rw [set]
    exact List.perm_middle

/-- **What is left to do never grows** when the bus was closed or let go of, and a step of the
dispatcher or of a worker makes it less. -/
theorem Rule.load_cases (route : Route h p) (ending : p.Ending) (rule : Rule p action q notices) :
    q.distance < p.distance ∨ (q.distance = p.distance ∧ q.effort < p.effort) ∨
      (action.drives = false ∧ q.distance = p.distance ∧ q.effort = p.effort) := by
  have fewer {t : Nat} {d : Dispatch} (waits : p.saving.find? (·.ticket == t) = some d) :
      p.saving.length = (p.saving.eraseP (·.ticket == t)).length + 1 :=
    (perm_of_find? waits).length_eq
  cases rule with
  | ask held opened =>
    -- the bus takes no new calls any more
    rcases ending with closed | released
    · rw [opened] at closed
      cases closed
    · rw [held] at released
      cases released
  | refuseLate waits =>
    have := fewer waits
    left
    simp only [distance, unsave]
    omega
  | accept waits =>
    have := fewer waits
    left
    simp only [distance, unsave, List.length_append, List.length_singleton]
    omega
  | forsake waits =>
    have := fewer waits
    left
    simp only [distance, unsave]
    omega
  | handOut hand =>
    left
    simp only [distance, hand, Hand.toList_granted, Hand.toList_empty, List.countP_append,
      List.countP_singleton, Phase.isStarted_spawned, List.length_singleton, List.length_nil,
      Bool.not_false, if_true]
    omega
  | quit hand stage =>
    refine .inr (.inl ⟨rfl, ?_⟩)
    simp [effort, stage, Stage.ahead]
  | reap hand stage ended =>
    refine .inr (.inl ⟨rfl, ?_⟩)
    simp [effort, ended]
  | @take d rest hand stage queue =>
    left
    simp only [distance, toList_take, hand, queue, Hand.toList_empty, List.length_cons,
      List.length_nil]
    simp only [Pool.take]
    omega
  | drain hand stage =>
    refine .inr (.inl ⟨rfl, ?_⟩)
    simp [effort, stage, Stage.ahead]
  | stop hand stage =>
    refine .inr (.inl ⟨rfl, ?_⟩)
    simp [effort, stage, Stage.ahead]
  | start worker =>
    obtain ⟨rest, before, after, -⟩ := workers_perm route.working_distinct worker
    have after := after (Phase.turnTo p.registry.entries)
    left
    simp only [distance, before.countP_eq, after.countP_eq, List.countP_cons,
      Phase.isStarted_spawned, Phase.isStarted_turnTo]
    simp [setPhase]
  | @turn t reply w phase told worker goes =>
    obtain ⟨rest, before, after, -⟩ := workers_perm route.working_distinct worker
    have after := after phase
    have less : phase.work < w.phase.work := Phase.work_of_step goes
    refine .inr (.inl ⟨?_, ?_⟩)
    · simp only [distance, before.countP_eq, after.countP_eq, List.countP_cons,
        Phase.isStarted_of_step goes, Phase.isStarted_of_next goes]
      rfl
    · simp only [effort, (before.map _).sum_nat, (after.map _).sum_nat, List.map_cons,
        List.sum_cons]
      simp only [setPhase]
      omega
  | @finish t reply w progress told killed worker goes ends =>
    obtain ⟨rest, before, -, after⟩ := workers_perm route.working_distinct worker
    have less : 1 < w.phase.work := by
      rw [← Progress.work_of_end ends]
      exact Phase.work_of_step goes
    refine .inr (.inl ⟨?_, ?_⟩)
    · simp only [distance, before.countP_eq, after, List.countP_cons, Phase.isStarted_of_step goes]
      simp [endWorker, giveBack]
    · simp only [effort, (before.map _).sum_nat, after, List.map_cons, List.sum_cons]
      simp [endWorker, giveBack]
      omega
  | register _ changes => exact .inr (.inr ⟨Action.drives_of_registration? changes, rfl, rfl⟩)
  | _ => exact .inr (.inr ⟨rfl, rfl, rfl⟩)

theorem Rule.load_le (route : Route h p) (ending : p.Ending) (rule : Rule p action q notices) :
    q.load ≤ p.load := by
  refine Prod.Lex.toLex_le_toLex.mpr ?_
  rcases rule.load_cases route ending with nearer | ⟨same, less⟩ | ⟨-, same, equal⟩
  · exact .inl nearer
  · exact .inr ⟨same, less.le⟩
  · exact .inr ⟨same, equal.le⟩

theorem Rule.load_lt (route : Route h p) (ending : p.Ending) (rule : Rule p action q notices)
    (drives : action.drives = true) : q.load < p.load := by
  refine Prod.Lex.toLex_lt_toLex.mpr ?_
  rcases rule.load_cases route ending with nearer | less | ⟨idle, -⟩
  · exact .inl nearer
  · exact .inr less
  · rw [drives] at idle
    cases idle

/-- What is left to do does not grow in a run either. -/
theorem load_le_of_run {k : History H} (route : Route h p) (ending : p.Ending)
    (run : Run Pool.tick p k q) : q.Ending ∧ q.load ≤ p.load := by
  let P (k : History H) (q : Pool H) : Prop := Route (h ++ k) q ∧ q.Ending ∧ q.load ≤ p.load
  have start : P [] p := by
    refine ⟨?_, ending, le_rfl⟩
    rw [List.append_nil]
    exact route
  refine (run_induction (P := P) start ?_ run).2
  rintro k q r action notices ⟨route, ending, less⟩ rule
  have later := route.of_rule rule
  rw [List.append_assoc] at later
  exact ⟨later, rule.ending ending, (rule.load_le route ending).trans less⟩

/-! ## Going on -/

/-- What the dispatcher can rely on. -/
structure Wakes (p : Pool H) : Prop where
  /-- it hears that the bus was closed or let go of -/
  told : p.Ending → p.quit = true
  /-- it only waits for a permit if there is none -/
  blocked : ∀ d, p.hand = .waiting d → p.free = 0

theorem Wakes.of_rule (wakes : Wakes p) (rule : Rule p action q notices) : Wakes q where
  told := by
    cases rule with
    | close => exact fun _ => rfl
    | release => exact fun _ => rfl
    | _ => exact wakes.told
  blocked := by
    cases rule with
    | handOut => exact nofun
    | take =>
      intro e hand
      simp only [Pool.take] at hand ⊢
      split at hand
      case isTrue none => rw [none]
      case isFalse => cases hand
    | finish =>
      intro e hand
      replace hand : p.hand.grant = .waiting e := hand
      cases was : p.hand <;> rw [was] at hand <;> cases hand
    | _ => exact wakes.blocked

theorem Wakes.of_run (run : Run Pool.tick (.new config) h p) : Wakes p := by
  refine run_induction (P := fun _ p => Wakes p) ?_ (fun wakes rule => wakes.of_rule rule) run
  refine ⟨?_, nofun⟩
  rintro (closed | released)
  · cases closed
  · cases released

/-- A dispatcher that waits for a permit waits for one of the workers, which have all of them. -/
theorem blocked_of_run (run : Run Pool.tick (.new config) h p) {d : Dispatch}
    (hand : p.hand = .waiting d) : p.free = 0 ∧ p.workers.length = config.workerCount := by
  have permits := (Slots.of_run run).permits
  have none := (Wakes.of_run run).blocked d hand
  rw [hand, none, config_of_run run] at permits
  exact ⟨none, by simpa [Hand.permits] using permits⟩

/-- A bus without workers that has something to do can go on: its dispatcher can. -/
theorem can_dispatch (run : Run Pool.tick (.new config) h p) (positive : 1 ≤ config.workerCount)
    (due : h.unfinished ≠ [] ∨ p.Ending ∧ p.stage ≠ .stopped) (idle : p.workers = []) :
    ∃ after, p.step .dispatch = some after := by
  have closing : Closing p := .of_run run
  show ∃ after, p.dispatch = some after
  rw [dispatch]
  cases hand : p.hand with
  | waiting d =>
    obtain ⟨-, all⟩ := blocked_of_run run hand
    rw [idle, List.length_nil] at all
    omega
  | granted d => exact ⟨_, rfl⟩
  | empty =>
    -- all events that are not done with are in the queue, so without any the bus is about to end
    have ending (queue : p.queue = []) : p.Ending ∧ p.stage ≠ .stopped := by
      refine due.resolve_left fun left => left ?_
      have perm := (Route.of_run run).unfinished_perm
      rw [working, idle, hand, queue] at perm
      exact perm.eq_nil
    show ∃ after, p.dispatchNext = some after
    rw [dispatchNext]
    cases stage : p.stage with
    | running =>
      rcases told : p.quit with _ | _
      · cases ended : p.ended with
        | cons e rest => exact ⟨_, rfl⟩
        | nil =>
          cases queue : p.queue with
          | cons d rest => exact ⟨_, rfl⟩
          | nil =>
            rw [(Wakes.of_run run).told (ending queue).1] at told
            cases told
      · exact ⟨_, rfl⟩
    | draining n => cases p.queue <;> exact ⟨_, rfl⟩
    | joining =>
      cases p.ended with
      | cons e rest => exact ⟨_, rfl⟩
      | nil =>
        rw [idle]
        exact ⟨_, rfl⟩
    | stopped => exact absurd stage (ending (closing.emptied (.inr stage)).2).2

/-- A worker can go on: it starts, or hears how the call that it waits for has ended. -/
theorem can_go_on (run : Run Pool.tick (.new config) h p) {w : Worker H} (hw : w ∈ p.workers) :
    ∃ action after, action.worker? = some w.dispatch.ticket ∧ action.comesBack = w.phase.isAway ∧
      p.step action = some after := by
  have found := (Route.of_run run).worker?_of_mem hw
  by_cases spawned : w.phase = .spawned
  · obtain ⟨d, phase⟩ := w
    obtain rfl : phase = .spawned := spawned
    have starts : ∃ after, p.start d.ticket = some after := by
      rw [start, found]
      exact ⟨_, rfl⟩
    obtain ⟨after, goes⟩ := starts
    exact ⟨.start d.ticket, after, rfl, rfl, goes⟩
  · obtain ⟨call, waits⟩ := w.phase.exists_call w.dispatch.event spawned
    obtain ⟨after, goes⟩ := can_hear found waits
    exact ⟨_, after, rfl, Phase.comesBack_of_call? waits _, goes⟩

/-- A dispatcher that has stopped does not start again. -/
theorem stopped_of_run (closing : Closing p) (stopped : p.stage = .stopped)
    (run : Run Pool.tick p h q) : Closing q ∧ q.stage = .stopped := by
  refine run_induction (P := fun _ q => Closing q ∧ q.stage = .stopped) ⟨closing, stopped⟩ ?_ run
  rintro h q r action notices ⟨closing, stopped⟩ rule
  exact ⟨closing.of_rule rule, closing.stopped_of_rule stopped rule⟩

end Pool

/-! ## Behaviours of a bus -/

/-- Whether the dispatcher or a worker makes a step. -/
def BrokerAction.drives : BrokerAction H → Bool
  | .pool action => action.drives
  | _ => false

theorem Action.drives_of_worker? {action : Action H} {t : Nat} (h : action.worker? = some t) :
    action.drives = true := by
  cases action with
  | start => rfl
  | reply => rfl
  | _ => cases h

namespace Broker

variable [DecidableEq H] {config : PoolConfig} {b c : Broker H} {action : BrokerAction H}
  {deeds : List (Deed H)}

/-- A step of the dispatcher or of a worker concerns the pool only. -/
theorem step_of_drives {action : Action H} (drives : action.drives = true) :
    b.step (.pool action) = b.act action := by
  cases action with
  | dispatch => rfl
  | start => rfl
  | reply => rfl
  | _ => cases drives

theorem can_act {action : Action H} (drives : action.drives = true)
    (can : ∃ after, b.pool.step action = some after) :
    ∃ after, b.step (.pool action) = some after := by
  obtain ⟨after, goes⟩ := can
  rw [step_of_drives drives, act, goes]
  exact ⟨_, rfl⟩

/-- After a step of a bus that was closed or let go of there is no more to do than before, and less
if it is a step of the dispatcher or of a worker. -/
theorem load_of_step {h : History H} (run : Run Pool.tick (.new config) h b.pool)
    (ending : b.pool.Ending) (step : b.step action = some (c, deeds)) :
    c.pool.Ending ∧ c.pool.load ≤ b.pool.load ∧
      (action.drives = true → c.pool.load < b.pool.load) := by
  have route : Pool.Route h b.pool := .of_run run
  obtain ⟨stays, less⟩ := Pool.load_le_of_run route ending (run_step step)
  refine ⟨stays, less, ?_⟩
  intro drives
  cases action with
  | pool action =>
    rw [step_of_drives drives] at step
    obtain ⟨⟨pool, notices⟩, goes, same⟩ := Option.map_eq_some_iff.mp step
    obtain ⟨rfl, -⟩ := Prod.mk.inj same
    exact (Pool.Rule.of_step goes).load_lt route ending drives
  | _ => cases drives

/-- The dispatcher and the workers of a bus have their turns, and what workers wait for comes to an
end. -/
structure Serves (β : Behaviour (Broker.step (H := H))) : Prop where
  /-- a dispatcher that can go on does so sooner or later -/
  dispatcher : β.Fair (.pool .dispatch)
  /-- so does a worker -/
  workers : ∀ n, ∀ w ∈ (β.state n).pool.workers, w.phase.isAway = false →
    ∃ m action, n ≤ m ∧ β.action m = some (.pool action) ∧
      action.worker? = some w.dispatch.ticket
  /-- every call of a handler or of the store returns -/
  returns : ∀ n, ∀ w ∈ (β.state n).pool.workers, w.phase.isAway = true →
    ∃ m action, n ≤ m ∧ β.action m = some (.pool action) ∧
      action.worker? = some w.dispatch.ticket ∧ action.comesBack = true

variable {β : Behaviour (Broker.step (H := H))} {h : History H}

/-- A bus that was closed or let go of stays so at every moment. -/
theorem ending_always (run : Run Pool.tick (.new config) h (β.state 0).pool)
    (ending : (β.state 0).pool.Ending) (n : Nat) :
    (∃ k, Run Pool.tick (.new config) k (β.state n).pool) ∧ (β.state n).pool.Ending := by
  let P (s : Broker H) : Prop := (∃ k, Run Pool.tick (.new config) k s.pool) ∧ s.pool.Ending
  refine Behaviour.always (P := P) ?_ ⟨⟨h, run⟩, ending⟩ n.zero_le
  rintro s t a told ⟨⟨k, run⟩, ending⟩ step
  exact ⟨⟨_, run.trans (run_step step)⟩, (load_of_step run ending step).1⟩

/-- The dispatcher and the workers of a bus that was closed or let go of make only so many steps. -/
theorem drives_finitely (run : Run Pool.tick (.new config) h (β.state 0).pool)
    (ending : (β.state 0).pool.Ending) :
    ∃ n, ∀ m, n ≤ m → ∀ action, β.action m = some action → action.drives = false := by
  have falls (n : Nat) : (β.state (n + 1)).pool.load ≤ (β.state n).pool.load := by
    obtain ⟨⟨k, reach⟩, ending⟩ := ending_always run ending n
    rcases β.next n with same | ⟨action, told, -, step⟩
    · rw [same]
    · exact (load_of_step reach ending step).2.1
  obtain ⟨n, settled⟩ := Behaviour.settles (f := fun n => (β.state n).pool.load) falls
  refine ⟨n, fun m later action does => ?_⟩
  obtain ⟨⟨k, reach⟩, ending⟩ := ending_always run ending m
  obtain ⟨told, step⟩ := β.acts m action does
  refine Bool.eq_false_iff.mpr fun drives => ?_
  exact ((load_of_step reach ending step).2.2 drives).ne (settled m later)

/-- If the dispatcher and the workers have their turns, the dispatcher stops. -/
theorem stops (positive : 1 ≤ config.workerCount)
    (run : Run Pool.tick (.new config) h (β.state 0).pool) (ending : (β.state 0).pool.Ending)
    (serves : Serves β) : ∃ n, ∀ m, n ≤ m → (β.state m).pool.stage = .stopped := by
  obtain ⟨n, still⟩ := drives_finitely run ending
  -- there are no workers from then on, as each of them would make a step
  have idle {m : Nat} (later : n ≤ m) : (β.state m).pool.workers = [] := by
    refine List.eq_nil_iff_forall_not_mem.mpr fun w hw => ?_
    obtain ⟨l, action, after, does, own⟩ : ∃ l action, m ≤ l ∧
        β.action l = some (.pool action) ∧ action.worker? = some w.dispatch.ticket := by
      rcases away : w.phase.isAway with _ | _
      · exact serves.workers m w hw away
      · obtain ⟨l, action, after, does, own, -⟩ := serves.returns m w hw away
        exact ⟨l, action, after, does, own⟩
    have drives : (BrokerAction.pool action).drives = true := Action.drives_of_worker? own
    rw [still l (later.trans after) _ does] at drives
    cases drives
  -- so the dispatcher could go on, and would, if it did not stop
  have stops : ∃ m, n ≤ m ∧ (β.state m).pool.stage = .stopped := by
    by_contra never
    obtain ⟨m, later, does⟩ := serves.dispatcher n fun m later => by
      obtain ⟨⟨k, reach⟩, ending⟩ := ending_always run ending m
      have goesOn : (β.state m).pool.stage ≠ .stopped := fun stopped => never ⟨m, later, stopped⟩
      have can := Pool.can_dispatch reach positive (.inr ⟨ending, goesOn⟩) (idle later)
      obtain ⟨after, step⟩ := can_act rfl can
      rw [step]
      exact nofun
    have drives := still m later _ does
    cases drives
  obtain ⟨m, -, stopped⟩ := stops
  obtain ⟨⟨k, reach⟩, -⟩ := ending_always run ending m
  let P (s : Broker H) : Prop := s.pool.Closing ∧ s.pool.stage = .stopped
  refine ⟨m, fun l later => (Behaviour.always (P := P) ?_ ⟨.of_run reach, stopped⟩ later).2⟩
  rintro s t a told ⟨closing, stopped⟩ step
  exact Pool.stopped_of_run closing stopped (run_step step)

/-- **A bus cannot get stuck, and draining comes to its end.** Take any bus that was built, after
any run. If an event is not done with, or the bus was closed or let go of and its dispatcher has not
stopped, then the dispatcher can go on, or there is a worker that can go on or is inside a call of a
handler or of the store. The dispatcher waits for a permit only while there are as many workers as
the configuration says, one at least. When the bus was closed or let go of it stays so, and what is
left to do becomes less with every step of the dispatcher or of a worker and more with none: so they
make only so many steps, whatever happens from there on. And if they have their turns and all calls
of handlers and of the store return, in whatever way, the dispatcher stops for good. -/
theorem draining_finishes {wanted : PoolConfig} {inRuntime : Bool}
    (built : wanted.build inRuntime = .built config) {log : List (Deed H)}
    (run : Run Broker.step (Broker.new config) log b) :
    (((history log).unfinished ≠ [] ∨ b.pool.Ending ∧ b.pool.stage ≠ .stopped) →
      (∃ after, b.step (.pool .dispatch) = some after) ∨
        ∃ w ∈ b.pool.workers, w.phase.isAway = true ∨
          ∃ action after, action.worker? = some w.dispatch.ticket ∧ action.comesBack = false ∧
            b.step (.pool action) = some after) ∧
      (∀ d, b.pool.hand = .waiting d →
        b.pool.free = 0 ∧ b.pool.workers.length = config.workerCount ∧ 1 ≤ config.workerCount) ∧
      (b.pool.Ending →
        (∀ action c deeds, b.step action = some (c, deeds) →
          c.pool.Ending ∧ c.pool.load ≤ b.pool.load ∧
            (action.drives = true → c.pool.load < b.pool.load)) ∧
        ∀ β : Behaviour (Broker.step (H := H)), β.state 0 = b →
          (∃ n, ∀ m, n ≤ m → ∀ action, β.action m = some action → action.drives = false) ∧
          (Serves β → ∃ n, ∀ m, n ≤ m → (β.state m).pool.stage = .stopped)) := by
  obtain ⟨-, positive⟩ := PoolConfig.positive_of_validate (PoolConfig.validate_of_build built)
  have reach : Run Pool.tick (Pool.new config) (history log) b.pool := run_pool run
  refine ⟨?_, ?_, ?_⟩
  · intro due
    cases workers : b.pool.workers with
    | nil => exact .inl (can_act rfl (Pool.can_dispatch reach positive due workers))
    | cons w rest =>
      have hw : w ∈ b.pool.workers := by
        rw [workers]
        exact List.mem_cons_self
      refine .inr ⟨w, List.mem_cons_self, ?_⟩
      obtain ⟨action, after, own, comes, step⟩ := Pool.can_go_on reach hw
      rcases away : w.phase.isAway with _ | _
      · obtain ⟨after, step⟩ := can_act (Action.drives_of_worker? own) ⟨after, step⟩
        exact .inr ⟨action, after, own, comes.trans away, step⟩
      · exact .inl rfl
  · intro d hand
    obtain ⟨none, all⟩ := Pool.blocked_of_run reach hand
    exact ⟨none, all, positive⟩
  · intro ending
    refine ⟨fun action c deeds step => load_of_step reach ending step, ?_⟩
    rintro β rfl
    exact ⟨drives_finitely reach ending, stops positive reach ending⟩

/-- A bus with one permit that was closed: a worker has the permit and has not started yet, and an
event waits for it in the hand of the dispatcher. -/
def crowded : Broker Unit :=
  { pool :=
    { config := ⟨2, 1, false⟩, closed := true, quit := true, hand := .waiting ⟨1, default, default⟩,
      free := 0, workers := [⟨⟨0, default, default⟩, .spawned⟩], closers := [⟨2, ⟨5, 0⟩⟩],
      tickets := 3 } }

/-- How such a bus comes to its end. The store panics over the second event. -/
def crowdedEnd : List (BrokerAction Unit) :=
  [.pool (.start 0), .pool (.reply 0 (.marked (.returned (.ok ())))), .pool .dispatch,
    .pool (.start 1), .pool (.reply 1 (.marked (.panicked "store"))), .pool .dispatch,
    .pool .dispatch, .pool .dispatch, .pool .dispatch, .pool .dispatch]

theorem draining_finishes_crowded :
    ∃ (log : List (Deed Unit)) (β : Behaviour (Broker.step (H := Unit))),
      (⟨2, 1, false⟩ : PoolConfig).build true = .built ⟨2, 1, false⟩ ∧
      Run Broker.step (Broker.new ⟨2, 1, false⟩) log crowded ∧
      (crowded.pool.free = 0 ∧ crowded.pool.workers.length = 1) ∧ crowded.pool.Ending ∧
      β.state 0 = crowded ∧ Serves β ∧
      ∃ n, ∀ m, n ≤ m → (β.state m).pool.stage = .stopped := by
  let β : Behaviour (Broker.step (H := Unit)) := .ofActions crowded crowdedEnd
  obtain ⟨log, all⟩ : ∃ log, runAll Broker.step (Broker.new ⟨2, 1, false⟩)
      [.pool (.publish default default), .pool (.saved 0 (.ok ())), .pool .dispatch,
        .pool .dispatch, .pool (.publish default default), .pool (.saved 1 (.ok ())),
        .pool .dispatch, .pool (.close ⟨5, 0⟩)] = some (crowded, log) := ⟨_, rfl⟩
  have built : (⟨2, 1, false⟩ : PoolConfig).build true = .built ⟨2, 1, false⟩ := rfl
  have ending : crowded.pool.Ending := .inl rfl
  have serves : Serves β := by
    refine ⟨fun n possible => ?_, fun n w hw here => ?_, fun n w hw away => ?_⟩
    · -- after its last action the bus has come to rest
      exact absurd rfl (possible (n + 10) (Nat.le_add_right n 10))
    · match n, hw with
      | 0, hw =>
        obtain rfl := List.mem_singleton.mp hw
        exact ⟨0, _, Nat.le_refl 0, rfl, rfl⟩
      | 3, hw =>
        obtain rfl := List.mem_singleton.mp hw
        exact ⟨3, _, Nat.le_refl 3, rfl, rfl⟩
      | 1, hw | 4, hw =>
        obtain rfl := List.mem_singleton.mp hw
        cases here
      | 2, hw | 5, hw | 6, hw | 7, hw | 8, hw | 9, hw | n + 10, hw => cases hw
    · match n, hw with
      | 1, hw =>
        obtain rfl := List.mem_singleton.mp hw
        exact ⟨1, _, Nat.le_refl 1, rfl, rfl, rfl⟩
      | 4, hw =>
        obtain rfl := List.mem_singleton.mp hw
        exact ⟨4, _, Nat.le_refl 4, rfl, rfl, rfl⟩
      | 0, hw | 3, hw =>
        obtain rfl := List.mem_singleton.mp hw
        cases away
      | 2, hw | 5, hw | 6, hw | 7, hw | 8, hw | 9, hw | n + 10, hw => cases hw
  obtain ⟨-, blocked, drains⟩ := draining_finishes built (Run.ofActions all)
  obtain ⟨free, workers, -⟩ := blocked _ rfl
  exact ⟨log, β, built, .ofActions all, ⟨free, workers⟩, ending, rfl, serves,
    ((drains ending).2 β rfl).2 serves⟩

end Broker

end DomainEvents.Bus
