import DomainEvents.Bus.Stored
import DomainEvents.Proofs.Bus.Replaying
import DomainEvents.Proofs.Bus.Serial
import DomainEvents.Proofs.Store

/-!
# A bus and its store agree

An event is stored before it comes into the queue, and nothing that is stored gets lost. So whatever
a worker has to do with is stored, the marking at its end cannot fail, and no such failure is ever
reported. What carries this is `Consistent`: it says of each answer of the store what was done for
it, and for how long that is known, as the bus may hear the answer much later.

What happens to the pool when no marking fails is told apart from the store (`Pool.Calm`).
-/

namespace DomainEvents.Bus

variable {H : Type}

/-! ## Markings that do not fail -/

/-- A worker that hears of no failed marking waits for no report of one and reports none, and it
comes to its end by the marking. -/
theorem Phase.calm_of_step {event : Event} {phase : Phase H} {reply : Reply}
    {progress : Progress H} {told : List (WorkerNotice H)}
    (goes : phase.step event reply = some (progress, told))
    (calm : ∀ failure, phase ≠ .reportingMark failure)
    (marks : ∀ outcome, reply = .marked outcome → outcome = .returned (.ok ())) :
    (∀ next, progress = .next next → ∀ failure, next ≠ .reportingMark failure) ∧
      (progress = .finished → reply = .marked (.returned (.ok ()))) ∧
      ∀ failure source, .reported failure ∈ told →
        failure.error ≠ .persistence .markProcessed source := by
  have turning (rest : List (Subscription H)) : (∀ failure, turnTo rest ≠ .reportingMark failure) ∧
      ∀ failure, .reported failure ∉ turnNotices event rest := by
    cases rest <;> simp [turnTo, turnNotices]
  revert goes
  fun_cases Phase.step
  all_goals intro goes; cases goes
  all_goals simp_all [DispatchFailure.of]

namespace Pool

variable {h k : History H} {p q : Pool H} {action : Action H} {notices : List (Notice H)}

/-- An action is not the hearing of a marking that has failed. -/
def MarksWell (action : Action H) : Prop :=
  ∀ t outcome, action = .reply t (.marked outcome) → outcome = .returned (.ok ())

/-- What holds as long as no marking has failed. -/
structure Calm (h : History H) (p : Pool H) : Prop where
  /-- no worker waits for the report of a marking that has failed -/
  workers : ∀ w ∈ p.workers, ∀ failure, w.phase ≠ .reportingMark failure
  /-- no such failure was reported -/
  unreported : ∀ d failure source, .worker d (.reported failure) ∈ h.notices →
    failure.error ≠ .persistence .markProcessed source
  /-- a worker that has ended without being killed has heard of a marking -/
  ended : ∀ d, .ended d false ∈ h.notices →
    ∃ e ∈ h, e.action = .reply d.ticket (.marked (.returned (.ok ())))

namespace Calm

theorem start (config : PoolConfig) : Calm [] (.new config : Pool H) := ⟨nofun, nofun, nofun⟩

theorem snoc (calm : Calm h p)
    (workers : ∀ w ∈ q.workers, ∀ failure, w.phase ≠ .reportingMark failure)
    (unreported : ∀ d failure source, .worker d (.reported failure) ∈ notices →
      failure.error ≠ .persistence .markProcessed source)
    (ended : ∀ d, .ended d false ∈ notices →
      action = .reply d.ticket (.marked (.returned (.ok ())))) :
    Calm (h ++ [⟨action, notices⟩]) q := by
  refine ⟨workers, ?_, ?_⟩
  · intro d failure source told
    rcases History.mem_notices_snoc.mp told with told | told
    · exact calm.unreported d failure source told
    · exact unreported d failure source told
  · intro d told
    rcases History.mem_notices_snoc.mp told with told | told
    · obtain ⟨e, there, acts⟩ := calm.ended d told
      exact ⟨e, List.mem_append_left _ there, acts⟩
    · exact ⟨_, List.mem_append_right _ (List.mem_singleton_self _), ended d told⟩

/-- A worker that goes on waits for no report of a marking that has failed. -/
theorem setPhase (calm : Calm h p) (t : Nat) {phase : Phase H}
    (next : ∀ failure, phase ≠ .reportingMark failure) :
    ∀ w ∈ (p.setPhase t phase).workers, ∀ failure, w.phase ≠ .reportingMark failure := by
  intro w there
  obtain ⟨v, before, rfl⟩ := List.mem_map.mp there
  split
  case isTrue => exact next
  case isFalse => exact calm.workers v before

variable [DecidableEq H]

/-- **A step is calm in which no failed marking is heard of.** -/
theorem of_rule (calm : Calm h p) (rule : Rule p action q notices) (marks : MarksWell action) :
    Calm (h ++ [⟨action, notices⟩]) q := by
  cases rule with
  | handOut =>
    refine calm.snoc ?_ (by simp) (by simp)
    exact List.forall_mem_append.mpr ⟨calm.workers, List.forall_mem_singleton.mpr nofun⟩
  | @start t d worker =>
    refine calm.snoc (calm.setPhase t ?_) ?_ (by simp)
    · cases p.registry.entries <;> exact nofun
    · cases p.registry.entries <;> simp [Phase.turnNotices]
  | @turn t reply w phase told worker goes =>
    obtain ⟨next, -, unreported⟩ := Phase.calm_of_step goes
      (calm.workers w (List.mem_of_find?_eq_some worker)) (fun outcome heard =>
        marks t outcome (heard ▸ rfl))
    refine calm.snoc (calm.setPhase t (next phase rfl)) ?_ (by simp)
    rintro d failure source told
    obtain ⟨n, there, same⟩ := List.mem_map.mp told
    obtain ⟨-, rfl⟩ := Notice.worker.inj same
    exact unreported failure source there
  | @finish t reply w progress told killed worker goes ends =>
    obtain ⟨-, finished, unreported⟩ := Phase.calm_of_step goes
      (calm.workers w (List.mem_of_find?_eq_some worker)) (fun outcome heard =>
        marks t outcome (heard ▸ rfl))
    refine calm.snoc (fun v there => calm.workers v (List.mem_of_mem_eraseP there)) ?_ ?_
    · rintro d failure source told
      rcases List.mem_append.mp told with told | told
      · obtain ⟨n, there, same⟩ := List.mem_map.mp told
        obtain ⟨-, rfl⟩ := Notice.worker.inj same
        exact unreported failure source there
      · cases List.mem_singleton.mp told
    · rintro d told
      rcases List.mem_append.mp told with told | told
      · obtain ⟨n, there, same⟩ := List.mem_map.mp told
        cases same
      · obtain ⟨rfl, rfl⟩ := Notice.ended.inj (List.mem_singleton.mp told)
        have last : progress = .finished := by
          cases progress with
          | finished => rfl
          | _ => cases ends
        rw [finished last, ticket_of_worker? worker]
  | close => exact calm.snoc calm.workers (by cases p.closed <;> simp) (by cases p.closed <;> simp)
  | join =>
    exact calm.snoc calm.workers (by cases p.joinable <;> simp) (by cases p.joinable <;> simp)
  | _ => exact calm.snoc calm.workers (by simp) (by simp)

/-- A run is calm in which no failed marking is heard of. -/
theorem of_run (calm : Calm h p) (run : Run Pool.tick p k q)
    (marks : ∀ e ∈ k, MarksWell e.action) : Calm (h ++ k) q := by
  let P (k : History H) (q : Pool H) : Prop := (∀ e ∈ k, MarksWell e.action) → Calm (h ++ k) q
  refine run_induction (P := P) (fun _ => by simpa using calm) ?_ run marks
  intro k q r action notices before rule marks
  rw [← List.append_assoc]
  have now : MarksWell action := marks ⟨action, notices⟩ (by simp)
  exact (before fun e there => marks e (List.mem_append_left _ there)).of_rule rule now

end Calm

/-- What comes into the queue has waited for the answer of the store. -/
theorem Rule.accepted_cases [DecidableEq H] (rule : Rule p action q notices) {d : Dispatch}
    (accepted : .accepted d ∈ notices) :
    ∃ t, action = .saved t (.ok ()) ∧ p.saving.find? (·.ticket == t) = some d := by
  cases rule with
  | @accept t d' waits =>
    obtain rfl : d = d' := by simpa using accepted
    exact ⟨t, rfl, waits⟩
  | close => cases p.closed <;> simp at accepted
  | join => cases p.joinable <;> simp at accepted
  | _ => simp at accepted

/-- Whoever waits under a number that was given out, waits for this event. -/
def Known (p : Pool H) (d : Dispatch) : Prop :=
  d.ticket < p.tickets ∧ ∀ e ∈ p.saving, e.ticket = d.ticket → e = d

theorem Known.of_run [DecidableEq H] {d : Dispatch} (known : Known p d)
    (run : Run Pool.tick p k q) : Known q d := by
  refine run_induction (P := fun _ q => Known q d) known ?_ run
  rintro k q r action notices ⟨old, mine⟩ rule
  refine ⟨Nat.lt_of_lt_of_le old rule.tickets_le, ?_⟩
  intro e there same
  rcases Route.known_of_rule (h := []) rule (List.mem_append_right _ there) with
    there | ⟨-, -, new, -⟩
  · exact mine e (by simpa using there) same
  · omega

end Pool

/-! ## What the bus does in a move -/

namespace Broker

variable [DecidableEq H] {b c : Broker H} {action : BrokerAction H} {whose : Option Nat}
  {told : List (Deed H)} {call : ReplayCall} {step : ReplayStep}

/-- A replay that has its turn publishes something or does nothing to the pool. -/
theorem Turned.entry_cases (turned : Turned b call step c told) {e : Entry H}
    (there : e ∈ history told) :
    (∃ ctx event, e.action = .publish ctx event) ∧ ∀ d, .accepted d ∉ e.notices := by
  cases turned with
  | answered => cases there
  | asks =>
    obtain rfl : e = ⟨_, _⟩ := List.mem_singleton.mp there
    exact ⟨⟨_, _, rfl⟩, by simp⟩
  | refused =>
    obtain rfl : e = ⟨_, _⟩ := List.mem_singleton.mp there
    exact ⟨⟨_, _, rfl⟩, by simp [Pool.refusal]⟩

/-- What happens to the pool in a step is the action itself, or a replay publishes something. -/
theorem Rule.entry_cases (rule : Rule b action c whose told) {e : Entry H}
    (there : e ∈ history told) :
    (action = .pool e.action ∧ ∃ pool, Pool.Rule b.pool e.action pool e.notices) ∨
      (∃ ctx event, e.action = .publish ctx event) ∧ ∀ d, .accepted d ∉ e.notices := by
  cases rule with
  | act rule =>
    obtain rfl : e = ⟨_, _⟩ := List.mem_singleton.mp there
    exact .inl ⟨rfl, _, rule⟩
  | begins => cases there
  | unloaded => cases there
  | loaded _ turned => exact .inr (turned.entry_cases there)
  | accepted _ _ rule turned =>
    rcases List.mem_cons.mp there with rfl | there
    · exact .inl ⟨rfl, _, rule⟩
    · exact .inr (turned.entry_cases there)
  | refused _ _ rule =>
    obtain rfl : e = ⟨_, _⟩ := List.mem_singleton.mp there
    exact .inl ⟨rfl, _, rule⟩
  | forsaken _ rule =>
    obtain rfl : e = ⟨_, _⟩ := List.mem_singleton.mp there
    exact .inl ⟨rfl, _, rule⟩
  | gone => cases there

/-- What comes into the queue in a step has waited for the answer that is heard. -/
theorem Rule.accepted_cases (rule : Rule b action c whose told) {d : Dispatch}
    (accepted : d ∈ (history told).accepted) :
    ∃ t, action = .pool (.saved t (.ok ())) ∧
      b.pool.saving.find? (·.ticket == t) = some d := by
  obtain ⟨e, there, tells⟩ := List.mem_flatMap.mp (History.mem_accepted.mp accepted)
  rcases rule.entry_cases there with ⟨acts, pool, own⟩ | ⟨-, silent⟩
  · obtain ⟨t, same, waits⟩ := own.accepted_cases tells
    exact ⟨t, same ▸ acts, waits⟩
  · exact absurd tells (silent d)

end Broker

/-! ## What happens to a bus with its store -/

/-- What has happened to the pool, as it was told by a bus with its store. -/
def historyOf (log : List (StoredDeed H)) : History H := history (deedsOf (movesOf log))

@[simp] theorem movesOf_append (log more : List (StoredDeed H)) :
    movesOf (log ++ more) = movesOf log ++ movesOf more :=
  List.filterMap_append

@[simp] theorem historyOf_append (log more : List (StoredDeed H)) :
    historyOf (log ++ more) = historyOf log ++ historyOf more := by
  simp [historyOf, deedsOf]

namespace StoredBus

variable {s t : StoredBus H} {log : List (StoredDeed H)} {deed : StoredDeed H}

/-- If the bus hears of an answer then the store has given it. -/
def Sourced (s : StoredBus H) (action : BrokerAction H) : Prop :=
  action.isAnswer = true → ∃ answer ∈ s.answers, action = answer.action

theorem mem_answered {answer other : StoreAnswer} (given : other ∈ (s.answered answer).answers) :
    other ∈ s.answers ∨ other = answer :=
  (List.mem_append.mp given).imp_right List.mem_singleton.mp

/-- The steps of a bus with its store, each with what is done. The store serves no call twice. -/
inductive Rule [DecidableEq H] (s : StoredBus H) : StoredBus H → StoredDeed H → Prop where
  /-- the bus makes a move, and what it hears of the store is an answer that the store has given -/
  | moves {action : BrokerAction H} {bus : Broker H} {deeds : List (Deed H)}
      (step : s.bus.step action = some (bus, deeds)) (source : s.Sourced action) :
      Rule s { s with bus } (.moved ⟨action, s.bus.turnOf action, deeds⟩)
  /-- the store saves the event of a call of publish -/
  | saves {ticket : Nat} {d : Dispatch} (new : s.answer? (.save ticket) = none)
      (waits : s.bus.pool.saving.find? (·.ticket == ticket) = some d) :
      Rule s (answered { s with store := s.store.save d.event } (.saved d))
        (.saved d.event ((s.bus.publisher? ticket).map (·.1.number)))
  /-- the store loads the events of a replay -/
  | loads {number : Nat} {call : ReplayCall} (new : s.answer? (.load number) = none)
      (waits : s.bus.loader? number = some call) :
      Rule s (s.answered (.loaded number (s.store.eventsSince call.name call.since)))
        (.loaded number (s.store.eventsSince call.name call.since))
  /-- the store marks the event of a worker -/
  | marks {ticket : Nat} {d : Dispatch} {store : MemoryStore} {result : Except StoreError Unit}
      (new : s.answer? (.mark ticket) = none)
      (worker : s.bus.pool.worker? ticket = some ⟨d, .marking⟩)
      (marked : s.store.Marked d.event.id s.now store result) :
      Rule s (answered { s with store } (.marked d result))
        (.marked d.event.id (some d) result)
  /-- somebody else saves an event -/
  | savesElse (event : Event) :
      Rule s { s with store := s.store.save event } (.saved event none)
  /-- somebody else marks an event -/
  | marksElse {id : Uuid} {store : MemoryStore} {result : Except StoreError Unit}
      (marked : s.store.Marked id s.now store result) :
      Rule s { s with store } (.marked id none result)
  /-- the clock is set -/
  | clock (now : Time.Instant) : Rule s { s with now } (.clock now)

/-- What comes of the attempt to mark an event. -/
theorem exists_marked (s : StoredBus H) (id : Uuid) :
    ∃ store result, s.mark id = ({ s with store }, result) ∧
      s.store.Marked id s.now store result :=
  ⟨_, _, rfl, s.store.marked_mark id s.now⟩

section

variable [DecidableEq H]

theorem act_eq_some {action : BrokerAction H} {told : List (StoredDeed H)}
    (acts : s.act action = some (t, told)) :
    ∃ bus deeds, s.bus.step action = some (bus, deeds) ∧ t = { s with bus } ∧
      told = [.moved ⟨action, s.bus.turnOf action, deeds⟩] := by
  obtain ⟨⟨bus, moves⟩, watches, same⟩ := Option.map_eq_some_iff.mp acts
  obtain ⟨rfl, rfl⟩ := Prod.mk.inj same
  obtain ⟨deeds, step, rfl⟩ := Broker.watch_eq_some.mp watches
  exact ⟨bus, deeds, step, rfl, rfl⟩

theorem Rule.of_serve {call : StoreCall} {told : List (StoredDeed H)}
    (new : s.answer? call = none) (h : s.serve call = some (t, told)) :
    ∃ deed, Rule s t deed ∧ told = [deed] := by
  cases call with
  | save ticket =>
    obtain ⟨d, waits, same⟩ := Option.map_eq_some_iff.mp h
    obtain ⟨rfl, rfl⟩ := Prod.mk.inj same
    exact ⟨_, .saves new waits, rfl⟩
  | load number =>
    obtain ⟨call, waits, same⟩ := Option.map_eq_some_iff.mp h
    obtain ⟨rfl, rfl⟩ := Prod.mk.inj same
    exact ⟨_, .loads new waits, rfl⟩
  | mark ticket =>
    rw [serve] at h
    split at h
    case h_1 d worker =>
      obtain ⟨store, result, marks, marked⟩ := s.exists_marked d.event.id
      rw [marks] at h
      obtain ⟨rfl, rfl⟩ := Prod.mk.inj (Option.some.inj h)
      exact ⟨_, .marks new worker marked, rfl⟩
    case h_2 => cases h

/-- **A bus with its store does nothing but follow its rules,** one deed at a time. -/
theorem Rule.of_step {action : StoredAction H} {told : List (StoredDeed H)}
    (h : s.step action = some (t, told)) : ∃ deed, Rule s t deed ∧ told = [deed] := by
  cases action with
  | bus action =>
    rw [step] at h
    split at h
    case isTrue => cases h
    case isFalse own =>
      obtain ⟨bus, deeds, step, rfl, rfl⟩ := act_eq_some h
      exact ⟨_, .moves step fun is => absurd is own, rfl⟩
  | serve call =>
    rw [step] at h
    split at h
    case isTrue => cases h
    case isFalse new => exact Rule.of_serve (Option.not_isSome_iff_eq_none.mp new) h
  | hear call =>
    obtain ⟨answer, found, acts⟩ := Option.bind_eq_some_iff.mp h
    obtain ⟨bus, deeds, step, rfl, rfl⟩ := act_eq_some acts
    exact ⟨_, .moves step fun _ => ⟨answer, List.mem_of_find?_eq_some found, rfl⟩, rfl⟩
  | save event =>
    obtain ⟨rfl, rfl⟩ := Prod.mk.inj (Option.some.inj h)
    exact ⟨_, .savesElse event, rfl⟩
  | mark id =>
    obtain ⟨store, result, marks, marked⟩ := s.exists_marked id
    rw [step, marks] at h
    obtain ⟨rfl, rfl⟩ := Prod.mk.inj (Option.some.inj h)
    exact ⟨_, .marksElse marked, rfl⟩
  | clock now =>
    obtain ⟨rfl, rfl⟩ := Prod.mk.inj (Option.some.inj h)
    exact ⟨_, .clock now, rfl⟩

/-- **Invariants of buses with their stores.** What holds at the start and is kept by every rule
holds after every run. -/
theorem run_induction {P : List (StoredDeed H) → StoredBus H → Prop} (start : P [] s)
    (keep : ∀ {log : List (StoredDeed H)} {t u : StoredBus H} {deed : StoredDeed H},
      P log t → Rule t u deed → P (log ++ [deed]) u)
    (run : Run StoredBus.step s log t) : P log t := by
  refine run.invariant start ?_
  intro log t action u told before step
  obtain ⟨deed, rule, rfl⟩ := Rule.of_step step
  exact keep before rule

/-- The moves of the bus are a run of its own. -/
theorem run_moves (run : Run StoredBus.step s log t) :
    Run Broker.watch s.bus (movesOf log) t.bus := by
  refine run_induction (P := fun log t => Run Broker.watch s.bus (movesOf log) t.bus) .refl ?_ run
  intro log t u deed before rule
  rw [movesOf_append]
  cases rule with
  | moves step => exact before.snoc (Broker.watch_eq_some.mpr ⟨_, step, rfl⟩)
  | _ => exact before.trans .refl

theorem run_pool (run : Run StoredBus.step s log t) :
    Run Pool.tick s.bus.pool (historyOf log) t.bus.pool :=
  Broker.run_pool (Broker.run_of_watch (run_moves run))

end

/-! ## What a bus and its store agree on -/

/-- What is known of a bus and its store when some things were done, and of the store from which
they came. -/
structure Consistent (start : MemoryStore) (log : List (StoredDeed H)) (s : StoredBus H) :
    Prop where
  /-- what has come into the queue is stored -/
  stored : ∀ d ∈ (historyOf log).accepted, s.store.Has d.event.id
  /-- so is what the store has saved, and no other event comes into the queue for it -/
  saved : ∀ d, .saved d ∈ s.answers → s.store.Has d.event.id ∧ s.bus.pool.Known d
  /-- markings do not fail -/
  marked : ∀ d result, .marked d result ∈ s.answers →
    result = .ok () ∧ d ∈ (historyOf log).accepted ∧ .marked d.event.id (some d) (.ok ()) ∈ log
  /-- a worker hears of a marking that was done -/
  heard : ∀ e ∈ historyOf log, ∀ t outcome, e.action = .reply t (.marked outcome) →
    outcome = .returned (.ok ()) ∧ ∃ d ∈ (historyOf log).accepted,
      d.ticket = t ∧ .marked d.event.id (some d) (.ok ()) ∈ log
  /-- what was marked is so for good, and nothing else is -/
  processed : ∀ id, s.store.isProcessed id = true ↔
    start.isProcessed id = true ∨ ∃ worker?, .marked id worker? (.ok ()) ∈ log

/-- A deed marks an event if it is the marking of that event, and has not failed. -/
theorem marks_iff (i : Uuid) (worker? : Option Dispatch) (result : Except StoreError Unit)
    (j : Uuid) :
    (∃ other?, StoredDeed.marked j other? (.ok ()) = .marked (H := H) i worker? result) ↔
      j = i ∧ result = .ok () := by
  constructor
  · rintro ⟨other?, same⟩
    cases same
    exact ⟨rfl, rfl⟩
  · rintro ⟨rfl, rfl⟩
    exact ⟨worker?, rfl⟩

section

variable [DecidableEq H]

theorem Rule.grows (rule : Rule s t deed) : s.store.Grows t.store := by
  cases rule with
  | moves => exact .refl _
  | saves => exact MemoryStore.grows_save ..
  | loads => exact .refl _
  | marks _ _ marked => exact marked.grows
  | savesElse => exact MemoryStore.grows_save ..
  | marksElse marked => exact marked.grows
  | clock => exact .refl _

/-- A store forgets nothing, whatever is done. -/
theorem grows_of_run (run : Run StoredBus.step s log t) : s.store.Grows t.store :=
  run_induction (P := fun _ t => s.store.Grows t.store) (.refl _)
    (fun before rule => before.trans rule.grows) run

/-- What is marked after a step was so before, or was marked in the step. -/
theorem Rule.isProcessed_iff (rule : Rule s t deed) (id : Uuid) :
    t.store.isProcessed id = true ↔
      s.store.isProcessed id = true ∨ ∃ worker?, .marked id worker? (.ok ()) = deed := by
  cases rule with
  | moves => simp
  | saves => simp [answered]
  | loads => simp [answered]
  | marks _ _ marked => exact (marked.isProcessed_iff id).trans (or_congr_right (marks_iff ..).symm)
  | savesElse => simp
  | marksElse marked => exact (marked.isProcessed_iff id).trans (or_congr_right (marks_iff ..).symm)
  | clock => simp

namespace Consistent

variable {start : MemoryStore}

omit [DecidableEq H] in
theorem start_of (config : PoolConfig) (start : MemoryStore) :
    Consistent start [] (.new config start : StoredBus H) where
  stored := nofun
  saved := nofun
  marked := nofun
  heard := nofun
  processed id := by simp [StoredBus.new]

/-- What is known stays known while more is done, if the same is known of that. -/
theorem extend (known : Consistent start log s) (rule : Rule s t deed)
    (ran : Run Pool.tick s.bus.pool (historyOf [deed]) t.bus.pool)
    (stored : ∀ d ∈ (historyOf [deed]).accepted, t.store.Has d.event.id)
    (saved : ∀ d, .saved d ∈ t.answers →
      .saved d ∈ s.answers ∨ t.store.Has d.event.id ∧ s.bus.pool.Known d)
    (marked : ∀ d result, .marked d result ∈ t.answers → .marked d result ∈ s.answers ∨
      result = .ok () ∧ d ∈ (historyOf log).accepted ∧ deed = .marked d.event.id (some d) (.ok ()))
    (heard : ∀ e ∈ historyOf [deed], ∀ t outcome, e.action = .reply t (.marked outcome) →
      ∃ d result, .marked d result ∈ s.answers ∧ d.ticket = t ∧ outcome = .returned result) :
    Consistent start (log ++ [deed]) t := by
  have grows := rule.grows
  have done {d : Dispatch} (before : .marked d.event.id (some d) (.ok ()) ∈ log) :
      .marked d.event.id (some d) (.ok ()) ∈ log ++ [deed] := List.mem_append_left _ before
  have accepted {d : Dispatch} (before : d ∈ (historyOf log).accepted) :
      d ∈ (historyOf (log ++ [deed])).accepted := by
    rw [historyOf_append, History.accepted, History.collect_append]
    exact List.mem_append_left _ before
  refine ⟨?_, ?_, ?_, ?_, ?_⟩
  · intro d there
    rw [historyOf_append, History.accepted, History.collect_append, List.mem_append] at there
    rcases there with before | now
    · exact grows.has _ (known.stored d before)
    · exact stored d now
  · intro d there
    rcases saved d there with before | ⟨there, mine⟩
    · obtain ⟨there, mine⟩ := known.saved d before
      exact ⟨grows.has _ there, mine.of_run ran⟩
    · exact ⟨there, mine.of_run ran⟩
  · intro d result there
    rcases marked d result there with before | ⟨ok, came, now⟩
    · obtain ⟨ok, came, before⟩ := known.marked d result before
      exact ⟨ok, accepted came, done before⟩
    · exact ⟨ok, accepted came, List.mem_append_right _ (by simp [now])⟩
  · intro e there u outcome hears
    rw [historyOf_append, List.mem_append] at there
    rcases there with before | now
    · obtain ⟨ok, d, came, ticket, before⟩ := known.heard e before u outcome hears
      exact ⟨ok, d, accepted came, ticket, done before⟩
    · obtain ⟨d, result, answered, ticket, rfl⟩ := heard e now u outcome hears
      obtain ⟨rfl, came, before⟩ := known.marked d result answered
      exact ⟨rfl, d, accepted came, ticket, done before⟩
  · intro id
    rw [rule.isProcessed_iff, known.processed, or_assoc, ← exists_or]
    simp only [List.mem_append, List.mem_singleton]

/-- A step of the store, or of somebody else, leaves the bus as it is, and nothing is told of the
bus. -/
theorem extend_quiet (known : Consistent start log s) (rule : Rule s t deed)
    (same : t.bus = s.bus) (quiet : historyOf [deed] = [])
    (saved : ∀ d, .saved d ∈ t.answers →
      .saved d ∈ s.answers ∨ t.store.Has d.event.id ∧ s.bus.pool.Known d)
    (marked : ∀ d result, .marked d result ∈ t.answers → .marked d result ∈ s.answers ∨
      result = .ok () ∧ d ∈ (historyOf log).accepted ∧
        deed = .marked d.event.id (some d) (.ok ())) :
    Consistent start (log ++ [deed]) t := by
  refine known.extend rule ?_ ?_ saved marked ?_
  · rw [quiet, same]
    exact .refl
  · rw [quiet]
    exact fun d there => absurd there List.not_mem_nil
  · rw [quiet]
    exact fun e there => absurd there List.not_mem_nil

/-- What the bus hears of the store in a step is an answer that the store has given. -/
theorem hears {action : BrokerAction H} {bus : Broker H} {deeds : List (Deed H)}
    (step : s.bus.step action = some (bus, deeds)) (source : s.Sourced action)
    {e : Entry H} (there : e ∈ history deeds) {u : Nat}
    {outcome : Outcome (Except StoreError Unit)} (about : e.action = .reply u (.marked outcome)) :
    ∃ d result, .marked d result ∈ s.answers ∧ d.ticket = u ∧ outcome = .returned result := by
  rcases (Broker.Rule.of_step step).entry_cases there with ⟨rfl, -⟩ | ⟨⟨ctx, event, own⟩, -⟩
  · rw [about] at source
    obtain ⟨answer, given, same⟩ := source rfl
    cases answer with
    | marked d result =>
      cases same
      exact ⟨d, result, given, rfl, rfl⟩
    | _ => cases same
  · rw [about] at own
    cases own

/-- What comes into the queue in a step was saved, as the store has answered. -/
theorem stored_of_accepted (known : Consistent start log s) {action : BrokerAction H}
    {bus : Broker H} {deeds : List (Deed H)} (step : s.bus.step action = some (bus, deeds))
    (source : s.Sourced action) {d : Dispatch} (accepted : d ∈ (history deeds).accepted) :
    s.store.Has d.event.id := by
  obtain ⟨u, rfl, waits⟩ := (Broker.Rule.of_step step).accepted_cases accepted
  obtain ⟨answer, given, same⟩ := source rfl
  cases answer with
  | saved e =>
    cases same
    obtain ⟨there, -, mine⟩ := known.saved e given
    rw [mine d (List.mem_of_find?_eq_some waits) (Pool.ticket_of_found waits)]
    exact there
  | _ => cases same

/-- **Each step keeps what a bus and its store agree on.** -/
theorem of_rule (known : Consistent start log s) (route : Pool.Route (historyOf log) s.bus.pool)
    (rule : Rule s t deed) : Consistent start (log ++ [deed]) t := by
  have was := rule
  cases rule with
  | @moves action bus deeds step source =>
    have told : historyOf [.moved ⟨action, s.bus.turnOf action, deeds⟩] = history deeds := by
      simp [historyOf, movesOf, deedsOf]
    refine known.extend was ?_ ?_ (fun d => .inl) (fun d result => .inl) ?_
    · rw [told]
      exact Broker.run_step step
    · rw [told]
      exact fun d => known.stored_of_accepted step source
    · rw [told]
      exact fun e there u outcome => hears step source there
  | @saves ticket d new waits =>
    have there := List.mem_of_find?_eq_some waits
    refine known.extend_quiet was rfl rfl ?_ ?_
    · intro e given
      rcases mem_answered given with before | now
      · exact .inl before
      · cases now
        refine .inr ⟨s.store.has_save_self d.event, route.fresh_of_waits there, ?_⟩
        intro e other same
        exact List.inj_on_of_nodup_map route.saving_distinct other there same
    · exact fun e result given => .inl ((mem_answered given).resolve_right (by simp))
  | loads =>
    refine known.extend_quiet was rfl rfl ?_ ?_
    · exact fun d given => .inl ((mem_answered given).resolve_right (by simp))
    · exact fun d result given => .inl ((mem_answered given).resolve_right (by simp))
  | @marks ticket d store result new worker marked =>
    refine known.extend_quiet was rfl rfl ?_ ?_
    · exact fun e given => .inl ((mem_answered given).resolve_right (by simp))
    · intro e answer given
      rcases mem_answered given with before | now
      · exact .inl before
      · obtain ⟨rfl, rfl⟩ := StoreAnswer.marked.inj now
        have handed := route.working_subset_handed (Pool.dispatch_mem_working worker)
        have came := route.handed_prefix.subset handed
        obtain rfl := marked.eq_ok_iff.mpr (known.stored _ came)
        exact .inr ⟨rfl, came, rfl⟩
  | savesElse => exact known.extend_quiet was rfl rfl (fun d => .inl) (fun d result => .inl)
  | marksElse => exact known.extend_quiet was rfl rfl (fun d => .inl) (fun d result => .inl)
  | clock => exact known.extend_quiet was rfl rfl (fun d => .inl) (fun d result => .inl)

theorem of_run {config : PoolConfig} (run : Run StoredBus.step (.new config start) log s) :
    Consistent start log s := by
  induction run with
  | refl => exact .start_of config start
  | snoc init step ih =>
    obtain ⟨deed, rule, rfl⟩ := Rule.of_step step
    exact ih.of_rule (.of_run (run_pool init)) rule

/-- No marking that the bus has heard of has failed. -/
theorem calm {config : PoolConfig} (known : Consistent start log s)
    (run : Run StoredBus.step (.new config start) log s) :
    Pool.Calm (historyOf log) s.bus.pool := by
  refine (Pool.Calm.start config).of_run (run_pool run) ?_
  intro e there u outcome about
  exact (known.heard e there u outcome about).1

end Consistent

/-! ## Markings and their workers -/

omit [DecidableEq H] in
/-- Where a deed is found when something more was done. -/
theorem split_snoc {α : Type} {l before after : List α} {a b : α}
    (split : l ++ [b] = before ++ a :: after) :
    (∃ rest, l = before ++ a :: rest) ∨ before = l ∧ a = b := by
  rcases List.eq_nil_or_concat after with rfl | ⟨rest, c, rfl⟩
  · obtain ⟨rfl, same⟩ := List.append_inj' split rfl
    exact .inr ⟨rfl, (List.singleton_inj.mp same).symm⟩
  · rw [List.concat_eq_append, ← List.cons_append, ← List.append_assoc] at split
    exact .inl ⟨rest, (List.append_inj' split rfl).1⟩

/-- A worker gives notice that its event is marked before it waits for that. -/
theorem told_of_marking {config : PoolConfig} {h : History H} {p : Pool H} {d : Dispatch}
    {u : Nat} (run : Run Pool.tick (.new config) h p)
    (found : p.worker? u = some ⟨d, .marking⟩) :
    .worker d (.marking d.event.id) ∈ h.notices := by
  have route : Pool.Route h p := .of_run run
  have slots : Pool.Slots h p := .of_run run
  have started : d ∈ h.started := slots.started.mem_iff.mpr (List.mem_append_left _
    (List.mem_map_of_mem (List.mem_filter.mpr ⟨List.mem_of_find?_eq_some found, rfl⟩)))
  obtain ⟨_, _, _, _, calls, progress, -, -, account, -⟩ := Pool.account_of_started run started
  rw [← Pool.ticket_of_worker? found] at found
  have stands := account.stands
  cases progress with
  | next phase =>
    obtain ⟨-, rfl⟩ := Worker.mk.inj (Option.some.inj (found.symm.trans stands))
    have told : (d, .marking d.event.id) ∈ h.toldBy d.ticket := by
      rw [account.told]
      exact List.mem_map_of_mem (List.mem_append_right _ (List.mem_singleton_self _))
    obtain ⟨notice, there, same⟩ := History.mem_collect.mp (List.mem_of_mem_filter told)
    cases notice with
    | worker =>
      cases same
      exact there
    | _ => cases same
  | _ =>
    rw [stands.worker?_eq_none route nofun] at found
    cases found

/-- **Only workers mark, each its own event,** and never in vain. Before that they have come to the
end of their handlers. -/
theorem marked_by_worker {config : PoolConfig} {start : MemoryStore}
    (run : Run StoredBus.step (.new config start) log s) {before after : List (StoredDeed H)}
    {id : Uuid} {d : Dispatch} {result : Except StoreError Unit}
    (split : log = before ++ .marked id (some d) result :: after) :
    id = d.event.id ∧ result = .ok () ∧ .worker d (.marking id) ∈ (historyOf before).notices := by
  induction run generalizing after with
  | refl => cases List.append_eq_nil_iff.mp split.symm with | intro _ last => cases last
  | snoc init step ih =>
    obtain ⟨deed, rule, rfl⟩ := Rule.of_step step
    rcases split_snoc split with ⟨rest, earlier⟩ | ⟨rfl, rfl⟩
    · exact ih earlier
    · have route : Pool.Route (historyOf before) _ := .of_run (run_pool init)
      cases rule with
      | marks new worker marked =>
        have handed := route.working_subset_handed (Pool.dispatch_mem_working worker)
        have there := (Consistent.of_run init).stored d (route.handed_prefix.subset handed)
        exact ⟨rfl, marked.eq_ok_iff.mpr there, told_of_marking (run_pool init) worker⟩

/-- **A bus and its store agree.** Whatever happens to a bus and to its store in memory, by the bus
with its calls of publish, replay and close, its workers and handlers, or by others who save and
mark, and in any order: each event in the queue, with the dispatcher or with a worker is stored. A
worker that marks marks its own event, when it is done with the handlers, and this does not fail, so
that no such failure is ever reported. An event is marked if it was so at the start or if somebody
has marked it; so is the event of each worker that has ended and was not killed, by this worker.
And what is marked stays so, whatever is saved, published or replayed later. -/
theorem bus_and_store_agree {config : PoolConfig} {start : MemoryStore}
    (run : Run StoredBus.step (StoredBus.new config start : StoredBus H) log s) :
    (∀ d ∈ s.bus.pool.queue ++ s.bus.pool.hand.toList ++ s.bus.pool.working,
        s.store.Has d.event.id) ∧
      (∀ before id d result after, log = before ++ .marked id (some d) result :: after →
        id = d.event.id ∧ result = .ok () ∧
          .worker d (.marking id) ∈ (historyOf before).notices) ∧
      (∀ d failure source, .worker d (.reported failure) ∈ (historyOf log).notices →
        failure.error ≠ .persistence .markProcessed source) ∧
      (∀ id, s.store.isProcessed id = true ↔
        start.isProcessed id = true ∨ ∃ worker?, .marked id worker? (.ok ()) ∈ log) ∧
      (∀ d, .ended d false ∈ (historyOf log).notices → s.store.isProcessed d.event.id = true ∧
        .marked d.event.id (some d) (.ok ()) ∈ log) ∧
      ∀ later t, Run StoredBus.step s later t →
        ∀ id, s.store.isProcessed id = true → t.store.isProcessed id = true := by
  have known : Consistent start log s := .of_run run
  have route : Pool.Route (historyOf log) s.bus.pool := .of_run (run_pool run)
  have calm := known.calm run
  refine ⟨?_, ?_, calm.unreported, known.processed, ?_, ?_⟩
  · intro d there
    refine known.stored d ?_
    rcases List.mem_append.mp there with waits | works
    · exact (route.not_handed (List.mem_append.mpr (List.mem_append.mp waits).symm)).1
    · exact route.handed_prefix.subset (route.working_subset_handed works)
  · exact fun before id d result after split => marked_by_worker run split
  · intro d told
    obtain ⟨e, there, about⟩ := calm.ended d told
    obtain ⟨-, d', came, ticket, done⟩ := known.heard e there _ _ about
    have ended : d ∈ (historyOf log).ended := History.mem_collect.mpr ⟨_, told, rfl⟩
    have handed := route.work.mem_iff.mpr (List.mem_append_right _ ended)
    obtain rfl := route.eq_of_ticket came (route.handed_prefix.subset handed) ticket
    exact ⟨(known.processed _).mpr (.inr ⟨_, done⟩), done⟩
  · exact fun later t more => (grows_of_run more).processed

end

/-- An event is published and worked on, and published again while the store marks it. The worker
hears of that when the event is in the queue once more. -/
def again : List (StoredAction Unit) :=
  [.bus (.pool (.publish default default)), .serve (.save 0), .hear (.save 0),
    .bus (.pool .dispatch), .bus (.pool .dispatch), .bus (.pool (.start 0)),
    .bus (.pool (.publish default default)), .serve (.mark 0), .serve (.save 1), .hear (.save 1),
    .hear (.mark 0)]

theorem bus_and_store_agree_again :
    ∃ (log : List (StoredDeed Unit)) (s : StoredBus Unit) (d e : Dispatch),
      Run StoredBus.step (.new ⟨2, 1, false⟩ {}) log s ∧
      .ended d false ∈ (historyOf log).notices ∧ s.bus.pool.queue = [e] ∧
      e.event.id = d.event.id ∧ s.store.Has e.event.id ∧
      s.store.isProcessed d.event.id = true := by
  obtain ⟨log, s, d, e, runs, ended, queued, same⟩ :
      ∃ log s d e, runAll StoredBus.step (.new ⟨2, 1, false⟩ {}) again = some (s, log) ∧
        (historyOf log).notices.getLast? = some (.ended d false) ∧ s.bus.pool.queue = [e] ∧
        e.event.id = d.event.id :=
    ⟨_, _, _, _, rfl, rfl, rfl, rfl⟩
  have run := Run.ofActions runs
  obtain ⟨stored, -, -, -, marked, -⟩ := bus_and_store_agree run
  replace ended := List.mem_of_getLast? ended
  refine ⟨log, s, d, e, run, ended, queued, same, stored e ?_, (marked d ended).1⟩
  simp [queued]

end StoredBus

end DomainEvents.Bus
