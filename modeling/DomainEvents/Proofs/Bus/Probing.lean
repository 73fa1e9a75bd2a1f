import DomainEvents.Proofs.Bus.Replaying
import DomainEvents.Proofs.Bus.Worker
import DomainEvents.Proofs.Probe
import Mathlib.Data.List.Perm.Subperm

/-!
# A bus with a probe among its handlers

A worker that calls the probe waits until its call has finished, and then turns to what is next. So
far the bus and the probe are two systems that know nothing of each other; `ProbedBus.step` puts
them together. A call of the probe comes in when a worker runs the probe, takes its steps when it
likes, and the worker hears that the handler has come to its end when the call has finished, and at
no other time. The other handlers, the store and the callers do what they like, and permits are
released at any time.

What a run keeps is `ProbedBus.Tied`: the calls on their way through the probe are calls of workers
that run it, one for each. As there are no more workers than the configuration says, no more calls
than that were ever live, whatever is subscribed how often.
-/

namespace DomainEvents.Bus

open Simulation (Probe ProbeAction ProbeEntry ProbeHistory ProbeStage)

variable {H : Type}

/-- A bus, a probe among its handlers, and the calls of the probe by the workers of the bus. -/
structure ProbedBus (H : Type) where
  bus : Broker H
  probe : Probe := {}
  /-- the calls that have come in and not finished, each as the number of the event whose worker has
  made it, and the number that the call has for the probe -/
  calls : List (Nat × Nat) := []
  /-- the events whose workers have still to hear that their call has finished -/
  ended : List Nat := []

/-- Something that happens to a bus with a probe. -/
inductive ProbedAction (H : Type) where
  /-- something happens to the bus, and the probe has no part in it -/
  | bus (action : BrokerAction H)
  /-- the worker of an event calls the probe -/
  | enter (ticket : Nat)
  /-- the call of the worker of an event takes its next step -/
  | advance (ticket : Nat)
  /-- the worker of an event hears that its call has finished, and goes on -/
  | answer (ticket : Nat)
  /-- permits are released -/
  | release (count : Nat)

/-- What is done in a step of a bus with a probe. -/
inductive ProbedDeed (H : Type) where
  | bus (deed : Deed H)
  | probe (entry : ProbeEntry)

/-- What the bus has done, if it was the bus. -/
def ProbedDeed.bus? : ProbedDeed H → Option (Deed H)
  | .bus deed => some deed
  | .probe _ => none

/-- What has happened to the probe, if it was the probe. -/
def ProbedDeed.probe? : ProbedDeed H → Option ProbeEntry
  | .bus _ => none
  | .probe entry => some entry

/-- Whether a worker waits for the end of a handler of a kind. -/
def Phase.runs (kind : H → Bool) : Phase H → Bool
  | .handling _ entry _ => kind entry.handler
  | _ => false

namespace ProbedBus

/-- A new bus with a new probe. -/
def new (config : PoolConfig) : ProbedBus H := { bus := .new config }

/-- What the bus has done. -/
def busLog (log : List (ProbedDeed H)) : List (Deed H) := log.filterMap ProbedDeed.bus?

/-- What has happened to the probe. -/
def probeLog (log : List (ProbedDeed H)) : ProbeHistory := log.filterMap ProbedDeed.probe?

/-- The call of the probe that the worker of an event waits for. -/
def call? (s : ProbedBus H) (ticket : Nat) : Option Nat :=
  (s.calls.find? (·.1 == ticket)).map (·.2)

/-- The events whose workers have called the probe, and not gone on yet. -/
def callers (s : ProbedBus H) : List Nat := s.calls.map (·.1) ++ s.ended

/-- Whether the worker of an event runs the probe; `probes` says which handlers are the probe. -/
def runs (probes : H → Bool) (s : ProbedBus H) (ticket : Nat) : Bool :=
  (s.bus.pool.worker? ticket).any (·.phase.runs probes)

/-- Whether an action is the end of a handler that is the probe. -/
def endsProbe (probes : H → Bool) (s : ProbedBus H) : BrokerAction H → Bool
  | .pool (.reply ticket (.handled _)) => s.runs probes ticket
  | _ => false

/-- A call of the worker of an event, after the probe has gone on with it. -/
def follow (s : ProbedBus H) (ticket call : Nat) (probe : Probe) : ProbedBus H :=
  if (probe.call? call).isSome then { s with probe }
  else { s with probe, calls := s.calls.eraseP (·.1 == ticket), ended := s.ended ++ [ticket] }

/-- The bus and the probe after something has happened to them, and what was done. -/
def step [DecidableEq H] (probes : H → Bool) (s : ProbedBus H) :
    ProbedAction H → Option (ProbedBus H × List (ProbedDeed H))
  | .bus action =>
    if s.endsProbe probes action then none
    else (s.bus.step action).map fun (bus, deeds) => ({ s with bus }, deeds.map .bus)
  | .enter ticket =>
    if s.runs probes ticket && !s.callers.contains ticket then
      (s.probe.tick .enter).map fun (probe, entries) =>
        ({ s with probe, calls := s.calls ++ [(ticket, s.probe.arrived)] }, entries.map .probe)
    else none
  | .advance ticket => do
    let call ← s.call? ticket
    let (probe, entries) ← s.probe.tick (.advance call)
    return (s.follow ticket call probe, entries.map .probe)
  | .answer ticket =>
    if s.ended.contains ticket then
      (s.bus.step (.pool (.reply ticket (.handled (.returned (.ok ())))))).map fun (bus, deeds) =>
        ({ s with bus, ended := s.ended.erase ticket }, deeds.map .bus)
    else none
  | .release count =>
    (s.probe.tick (.release count)).map fun (probe, entries) =>
      ({ s with probe }, entries.map .probe)

/-! ## Histories -/

theorem busLog_append (log more : List (ProbedDeed H)) :
    busLog (log ++ more) = busLog log ++ busLog more := List.filterMap_append

theorem probeLog_append (log more : List (ProbedDeed H)) :
    probeLog (log ++ more) = probeLog log ++ probeLog more := List.filterMap_append

@[simp] theorem busLog_map_bus (deeds : List (Deed H)) : busLog (deeds.map .bus) = deeds := by
  simp [busLog, List.filterMap_map, Function.comp_def, ProbedDeed.bus?]

@[simp] theorem probeLog_map_bus (deeds : List (Deed H)) : probeLog (deeds.map .bus) = [] := by
  simp [probeLog, ProbedDeed.probe?]

@[simp] theorem busLog_probe (entry : ProbeEntry) (log : List (ProbedDeed H)) :
    busLog (.probe entry :: log) = busLog log := rfl

@[simp] theorem probeLog_probe (entry : ProbeEntry) (log : List (ProbedDeed H)) :
    probeLog (.probe entry :: log) = entry :: probeLog log := rfl

/-! ## The calls of workers -/

section

variable {probes : H → Bool} {s : ProbedBus H} {t : Nat}

theorem find?_of_call? {call : Nat} (waits : s.call? t = some call) :
    s.calls.find? (·.1 == t) = some (t, call) := by
  obtain ⟨⟨u, call⟩, found, rfl⟩ := Option.map_eq_some_iff.mp waits
  obtain rfl : u = t := by simpa using List.find?_some found
  exact found

/-- The calls of workers and those that are on their way through the probe are the same. -/
structure Tied (probes : H → Bool) (s : ProbedBus H) : Prop where
  held : (s.calls.map (·.2)).Perm s.probe.ids
  /-- a worker has made one call -/
  distinct : s.callers.Nodup
  /-- and waits for its end -/
  running : ∀ t ∈ s.callers, s.runs probes t = true

theorem runs_iff : s.runs probes t = true ↔
    ∃ w, s.bus.pool.worker? t = some w ∧ w.phase.runs probes = true :=
  Option.any_eq_true ..

namespace Tied

theorem start (config : PoolConfig) : Tied probes (.new config) :=
  ⟨.nil, .nil, nofun⟩

/-- There are as many workers as calls at least, since each call is of a worker of its own. -/
theorem calls_le (tied : Tied probes s) : s.calls.length ≤ s.bus.pool.workers.length := by
  have there : s.callers ⊆ s.bus.pool.working.map (·.ticket) := by
    intro t calls
    obtain ⟨w, found, -⟩ := runs_iff.mp (tied.running t calls)
    rw [← Pool.ticket_of_worker? found]
    exact List.mem_map_of_mem (Pool.dispatch_mem_working found)
  have few := (List.subperm_of_subset tied.distinct there).length_le
  simp only [callers, Pool.working, List.length_append, List.length_map] at few
  omega

/-- The worker of a call waits for that call. -/
theorem call?_of_mem (tied : Tied probes s) {call : Nat} (there : (t, call) ∈ s.calls) :
    s.call? t = some call := by
  have distinct : (s.calls.map (·.1)).Nodup :=
    tied.distinct.sublist (List.sublist_append_left ..)
  obtain ⟨⟨u, other⟩, found⟩ : ∃ c, s.calls.find? (·.1 == t) = some c :=
    Option.isSome_iff_exists.mp (List.find?_isSome.mpr ⟨_, there, beq_self_eq_true t⟩)
  obtain rfl : u = t := by simpa using List.find?_some found
  have mem := List.mem_of_find?_eq_some found
  obtain ⟨-, rfl⟩ := Prod.mk.inj (List.inj_on_of_nodup_map distinct mem there rfl)
  exact Option.map_eq_some_iff.mpr ⟨_, found, rfl⟩

end Tied

end

end ProbedBus

/-! ## Workers that are left alone -/

variable [DecidableEq H]

/-- A worker that runs a handler hears of nothing but its end. -/
theorem Pool.Rule.handled_of_runs {p q : Pool H} {action : Action H} {notices : List (Notice H)}
    (rule : Pool.Rule p action q notices) {t : Nat} {w : Worker H} {kind : H → Bool}
    (found : p.worker? t = some w) (runs : w.phase.runs kind = true)
    (own : action.worker? = some t) : ∃ outcome, action = .reply t (.handled outcome) := by
  have heard {reply : Reply} {after : Progress H × List (WorkerNotice H)}
      (goes : w.phase.step w.dispatch.event reply = some after) :
      ∃ outcome, reply = .handled outcome := by
    obtain ⟨d, phase⟩ := w
    cases phase with
    | handling =>
      cases reply with
      | handled outcome => exact ⟨outcome, rfl⟩
      | _ => cases goes
    | _ => cases runs
  cases rule with
  | start worker =>
    obtain rfl := Option.some.inj own
    obtain rfl := Option.some.inj (worker.symm.trans found)
    cases runs
  | turn worker goes | finish worker goes =>
    obtain rfl := Option.some.inj own
    obtain rfl := Option.some.inj (worker.symm.trans found)
    obtain ⟨outcome, rfl⟩ := heard goes
    exact ⟨outcome, rfl⟩
  | register _ changes =>
    rw [Action.worker?_of_registration? changes] at own
    cases own
  | _ => cases own

namespace Broker

variable {b c : Broker H} {t : Nat} {w : Worker H}

/-- A replay that has its turn leaves the workers alone. -/
theorem Turned.worker?_eq {call : ReplayCall} {step : ReplayStep} {deeds : List (Deed H)}
    (turned : Turned b call step c deeds) (found : b.pool.worker? t = some w) :
    c.pool.worker? t = some w := by
  cases turned with
  | answered => exact found
  | asks rule => exact (rule.quiet (t := t) nofun).2.2 w found
  | refused rule => exact (rule.quiet (t := t) nofun).2.2 w found

/-- A worker is left alone by all that is not its own. -/
theorem Rule.worker?_eq {action : BrokerAction H} {whose : Option Nat} {deeds : List (Deed H)}
    (rule : Rule b action c whose deeds) (found : b.pool.worker? t = some w)
    (others : ∀ act, action = .pool act → act.worker? ≠ some t) :
    c.pool.worker? t = some w := by
  cases rule with
  | act rule => exact (rule.quiet (others _ rfl)).2.2 w found
  | begins | unloaded | gone => exact found
  | loaded _ turned => exact turned.worker?_eq found
  | accepted _ _ rule turned =>
    exact turned.worker?_eq ((rule.quiet (others _ rfl)).2.2 w found)
  | refused _ _ rule => exact (rule.quiet (others _ rfl)).2.2 w found
  | forsaken _ rule => exact (rule.quiet (others _ rfl)).2.2 w found

/-- An action of a worker is a step of the pool by itself. -/
theorem Rule.act_of_worker {act : Action H} {whose : Option Nat} {deeds : List (Deed H)}
    (rule : Rule b (.pool act) c whose deeds) (own : act.worker? = some t) :
    ∃ notices, Pool.Rule b.pool act c.pool notices := by
  cases rule with
  | act rule => exact ⟨_, rule⟩
  | _ => cases own

end Broker

namespace ProbedBus

variable {probes : H → Bool} {s s' : ProbedBus H} {action : ProbedAction H}
  {told : List (ProbedDeed H)} {t : Nat}

/-! ## Steps -/

/-- The steps of a bus with a probe, each with what it takes and what it does. -/
inductive Rule (probes : H → Bool) (s : ProbedBus H) :
    ProbedAction H → ProbedBus H → List (ProbedDeed H) → Prop where
  /-- the bus goes on without the probe -/
  | bus {action : BrokerAction H} {bus : Broker H} {deeds : List (Deed H)}
      (apart : s.endsProbe probes action = false) (goes : s.bus.step action = some (bus, deeds)) :
      Rule probes s (.bus action) { s with bus } (deeds.map .bus)
  /-- a worker that runs the probe, and has not called it yet, calls it -/
  | enter {t : Nat} {probe : Probe} (runs : s.runs probes t = true) (fresh : t ∉ s.callers)
      (goes : s.probe.step .enter = some probe) :
      Rule probes s (.enter t) { s with probe, calls := s.calls ++ [(t, s.probe.arrived)] }
        [.probe ⟨.enter, probe⟩]
  /-- a call goes on -/
  | advance {t call : Nat} {probe : Probe} (found : s.calls.find? (·.1 == t) = some (t, call))
      (goes : s.probe.step (.advance call) = some probe) :
      Rule probes s (.advance t) (s.follow t call probe) [.probe ⟨.advance call, probe⟩]
  /-- a worker goes on, as its call has finished -/
  | answer {t : Nat} {bus : Broker H} {deeds : List (Deed H)} (there : t ∈ s.ended)
      (goes : s.bus.step (.pool (.reply t (.handled (.returned (.ok ()))))) = some (bus, deeds)) :
      Rule probes s (.answer t) { s with bus, ended := s.ended.erase t } (deeds.map .bus)
  /-- permits are released -/
  | release {count : Nat} {probe : Probe} (goes : s.probe.step (.release count) = some probe) :
      Rule probes s (.release count) { s with probe } [.probe ⟨.release count, probe⟩]

/-- **A bus with a probe does nothing but follow its rules.** -/
theorem Rule.of_step (goes : s.step probes action = some (s', told)) :
    Rule probes s action s' told := by
  cases action with
  | bus action =>
    rw [step] at goes
    split at goes
    case isTrue => cases goes
    case isFalse apart =>
      obtain ⟨⟨bus, deeds⟩, steps, same⟩ := Option.map_eq_some_iff.mp goes
      obtain ⟨rfl, rfl⟩ := Prod.mk.inj same
      exact .bus (Bool.eq_false_iff.mpr apart) steps
  | enter t =>
    rw [step] at goes
    split at goes
    case isTrue here =>
      obtain ⟨runs, fresh⟩ := Bool.and_eq_true_iff.mp here
      obtain ⟨⟨probe, entries⟩, ticks, same⟩ := Option.map_eq_some_iff.mp goes
      obtain ⟨rfl, rfl⟩ := Prod.mk.inj same
      obtain ⟨enters, rfl⟩ := Probe.tick_eq_some.mp ticks
      exact .enter runs (by simpa using fresh) enters
    case isFalse => cases goes
  | advance t =>
    obtain ⟨call, waits, goes⟩ := Option.bind_eq_some_iff.mp goes
    obtain ⟨⟨probe, entries⟩, ticks, goes⟩ := Option.bind_eq_some_iff.mp goes
    obtain ⟨rfl, rfl⟩ := Prod.mk.inj (Option.some.inj goes)
    obtain ⟨advances, rfl⟩ := Probe.tick_eq_some.mp ticks
    exact .advance (find?_of_call? waits) advances
  | answer t =>
    rw [step] at goes
    split at goes
    case isTrue there =>
      obtain ⟨⟨bus, deeds⟩, steps, same⟩ := Option.map_eq_some_iff.mp goes
      obtain ⟨rfl, rfl⟩ := Prod.mk.inj same
      exact .answer (by simpa using there) steps
    case isFalse => cases goes
  | release count =>
    rw [step] at goes
    obtain ⟨⟨probe, entries⟩, ticks, same⟩ := Option.map_eq_some_iff.mp goes
    obtain ⟨rfl, rfl⟩ := Prod.mk.inj same
    obtain ⟨releases, rfl⟩ := Probe.tick_eq_some.mp ticks
    exact .release releases

/-- A call goes on when the probe lets it. -/
theorem step_advance {call : Nat} {probe : Probe} (waits : s.call? t = some call)
    (goes : s.probe.step (.advance call) = some probe) :
    s.step probes (.advance t) = some
      (s.follow t call probe, [.probe ⟨.advance call, probe⟩]) := by
  rw [step, waits]
  simp only [bind, Option.bind_some, Probe.tick_eq_some.mpr ⟨goes, rfl⟩]
  rfl

/-! ## The calls stay tied -/

/-- A worker that runs the probe still runs it when something else has happened. -/
theorem runs_of_rule {act : BrokerAction H} {bus : Broker H} {deeds : List (Deed H)}
    (goes : s.bus.step act = some (bus, deeds)) (running : s.runs probes t = true)
    (others : ∀ outcome, act ≠ .pool (.reply t (.handled outcome))) :
    runs probes { s with bus } t = true := by
  obtain ⟨w, found, kind⟩ := runs_iff.mp running
  have rule := Broker.Rule.of_step goes
  refine runs_iff.mpr ⟨w, rule.worker?_eq found ?_, kind⟩
  rintro own rfl same
  obtain ⟨notices, rule⟩ := rule.act_of_worker same
  obtain ⟨outcome, rfl⟩ := rule.handled_of_runs found kind same
  exact others outcome rfl

namespace Tied

omit [DecidableEq H] in
/-- A call that has gone on is still on its way, or has ended. -/
theorem of_follow (tied : Tied probes s) {call : Nat} {probe : Probe}
    (found : s.calls.find? (·.1 == t) = some (t, call))
    (goes : s.probe.step (.advance call) = some probe) (distinct : s.probe.ids.Nodup) :
    Tied probes (s.follow t call probe) := by
  have held := (Probe.Rule.of_step goes).ids_perm distinct
  rw [if_neg nofun, List.append_nil] at held
  rw [follow]
  split
  case isTrue on =>
    simp only [ProbeEntry.left?, on, if_true, Option.toList_none, List.nil_append] at held
    exact ⟨tied.held.trans held.symm, tied.distinct, tied.running⟩
  case isFalse off =>
    simp only [ProbeEntry.left?, off, Bool.false_eq_true, if_false, Option.toList_some,
      List.singleton_append] at held
    have moved : s.calls.Perm ((t, call) :: s.calls.eraseP (·.1 == t)) := perm_of_find? found
    have both : (call :: (s.calls.eraseP (·.1 == t)).map (·.2)).Perm (call :: probe.ids) :=
      (moved.map Prod.snd).symm.trans (tied.held.trans held.symm)
    have callers : ((s.calls.eraseP (·.1 == t)).map (·.1) ++ (s.ended ++ [t])).Perm s.callers := by
      rw [← List.append_assoc]
      exact List.perm_append_comm.trans (((moved.map Prod.fst).append_right s.ended).symm)
    refine ⟨both.cons_inv, callers.nodup_iff.mpr tied.distinct, ?_⟩
    intro u there
    exact tied.running u (callers.mem_iff.mp there)

/-- **Every rule ties the calls.** -/
theorem of_rule (tied : Tied probes s) (distinct : s.probe.ids.Nodup)
    (rule : Rule probes s action s' told) : Tied probes s' := by
  cases rule with
  | @bus act bus deeds apart goes =>
    refine ⟨tied.held, tied.distinct, fun t there => ?_⟩
    have running := tied.running t there
    apply runs_of_rule goes running
    rintro outcome rfl
    rw [endsProbe, running] at apart
    cases apart
  | @enter t probe runs fresh goes =>
    have callers : ((s.calls ++ [(t, s.probe.arrived)]).map (·.1) ++ s.ended).Perm
        (t :: s.callers) := by
      rw [List.map_append, List.append_assoc]
      exact List.perm_middle
    refine ⟨?_, callers.nodup_iff.mpr (List.nodup_cons.mpr ⟨fresh, tied.distinct⟩), ?_⟩
    · have held := (Probe.Rule.of_step goes).ids_perm distinct
      rw [List.map_append]
      exact (tied.held.append_right _).trans held.symm
    · intro u there
      rcases List.mem_cons.mp (callers.mem_iff.mp there) with rfl | old
      · exact runs
      · exact tied.running u old
  | advance found goes => exact tied.of_follow found goes distinct
  | @answer t bus deeds there goes =>
    have callers : s.callers.Perm (t :: (s.calls.map (·.1) ++ s.ended.erase t)) :=
      ((List.perm_cons_erase there).append_left _).trans List.perm_middle
    obtain ⟨apart, others⟩ := List.nodup_cons.mp (callers.nodup_iff.mp tied.distinct)
    refine ⟨tied.held, others, fun u still => ?_⟩
    apply runs_of_rule goes (tied.running u (callers.mem_iff.mpr (List.mem_cons_of_mem _ still)))
    rintro outcome same
    cases same
    exact apart still
  | @release count probe goes =>
    have held := (Probe.Rule.of_step goes).ids_perm distinct
    rw [if_neg nofun, List.append_nil] at held
    exact ⟨tied.held.trans held.symm, tied.distinct, tied.running⟩

/-- A call that can go on does so with a worker. -/
theorem can_advance (tied : Tied probes s) {call : Nat} {probe : Probe}
    (goes : s.probe.advance? call = some probe) :
    ∃ t after, s.step probes (.advance t) = some after := by
  obtain ⟨c, found, -⟩ := Option.bind_eq_some_iff.mp goes
  have there : call ∈ s.probe.ids := Probe.isSome_call?.mp (by rw [found]; rfl)
  obtain ⟨⟨t, call⟩, mem, rfl⟩ := List.mem_map.mp (tied.held.mem_iff.mpr there)
  exact ⟨t, _, step_advance (tied.call?_of_mem mem) goes⟩

end Tied

/-! ## Runs -/

/-- The bus takes a step, or is left alone. -/
theorem Rule.bus_step (rule : Rule probes s action s' told) :
    (∃ act, s.bus.step act = some (s'.bus, busLog told)) ∨ s'.bus = s.bus ∧ busLog told = [] := by
  cases rule with
  | bus _ goes | answer _ goes => exact .inl ⟨_, by simpa using goes⟩
  | enter | release => exact .inr ⟨rfl, rfl⟩
  | advance =>
    refine .inr ⟨?_, rfl⟩
    rw [follow]
    split <;> rfl

/-- The probe takes a step, or is left alone. -/
theorem Rule.probe_step (rule : Rule probes s action s' told) :
    (∃ act, s.probe.step act = some s'.probe ∧ probeLog told = [⟨act, s'.probe⟩]) ∨
      s'.probe = s.probe ∧ probeLog told = [] := by
  cases rule with
  | bus | answer => exact .inr ⟨rfl, probeLog_map_bus _⟩
  | enter _ _ goes | release goes => exact .inl ⟨_, goes, rfl⟩
  | @advance t call probe _ goes =>
    have same : (s.follow t call probe).probe = probe := by
      rw [follow]
      split <;> rfl
    rw [same]
    exact .inl ⟨_, goes, rfl⟩

variable {config : PoolConfig} {log : List (ProbedDeed H)}

/-- What happens to the bus with its probe is a run of the bus. -/
theorem run_bus (run : Run (step probes) (new config) log s) :
    Run Broker.step (Broker.new config) (busLog log) s.bus := by
  induction run with
  | refl => exact .refl
  | snoc _ goes ih =>
    rw [busLog_append]
    rcases (Rule.of_step goes).bus_step with ⟨act, steps⟩ | ⟨same, nothing⟩
    · exact ih.snoc steps
    · rw [same, nothing, List.append_nil]
      exact ih

/-- What happens to the probe is a run of the probe. -/
theorem run_probe (run : Run (step probes) (new config) log s) :
    Run Probe.tick {} (probeLog log) s.probe := by
  induction run with
  | refl => exact .refl
  | snoc _ goes ih =>
    rw [probeLog_append]
    rcases (Rule.of_step goes).probe_step with ⟨act, ticks⟩ | ⟨same, nothing⟩
    · exact ih.snoc (Probe.tick_eq_some.mpr ticks)
    · rw [same, nothing, List.append_nil]
      exact ih

theorem Tied.of_run (run : Run (step probes) (new config) log s) : Tied probes s := by
  induction run with
  | refl => exact .start config
  | snoc before goes ih =>
    exact ih.of_rule (Probe.Kept.of_run (run_probe before)).distinct (.of_step goes)

/-- No more calls are live than there may be workers. -/
theorem live_le (run : Run (step probes) (new config) log s) :
    s.probe.live ≤ config.workerCount := by
  have tied := Tied.of_run run
  have ran := Broker.run_pool (run_bus run)
  have permits := (Pool.Slots.of_run ran).permits
  rw [Pool.config_of_run ran] at permits
  have live := (Probe.Kept.of_run (run_probe run)).live
  have held := tied.held.length_eq
  rw [List.length_map, Probe.ids, List.length_map] at held
  calc
    s.probe.live = s.probe.count ProbeStage.isLive := live
    _ ≤ s.probe.calls.length := List.countP_le_length
    _ = s.calls.length := held.symm
    _ ≤ s.bus.pool.workers.length := tied.calls_le
    _ ≤ config.workerCount := by omega

/-- No more were live before. -/
theorem lives_le (run : Run (step probes) (new config) log s) :
    ∀ n ∈ (probeLog log).lives, n ≤ config.workerCount := by
  induction run with
  | refl =>
    intro n there
    rw [List.mem_singleton.mp there]
    exact Nat.zero_le _
  | snoc before goes ih =>
    have within := live_le (before.snoc goes)
    rw [probeLog_append]
    rcases (Rule.of_step goes).probe_step with ⟨act, -, told⟩ | ⟨-, nothing⟩
    · rw [told, ProbeHistory.lives_concat]
      exact List.forall_mem_append.mpr ⟨ih, List.forall_mem_singleton.mpr within⟩
    · rw [nothing, List.append_nil]
      exact ih

/-- When no worker can go on with its call, as many calls have finished as there were both calls and
permits for. -/
theorem finished_of_quiet (run : Run (step probes) (new config) log s)
    (quiet : ∀ t, s.step probes (.advance t) = none) :
    s.probe.finished = min s.probe.started (probeLog log).released := by
  refine ((Probe.Kept.of_run (run_probe run)).quiet fun call => ?_).2
  cases goes : s.probe.advance? call with
  | none => rfl
  | some probe =>
    obtain ⟨t, after, steps⟩ := (Tied.of_run run).can_advance goes
    rw [quiet t] at steps
    cases steps

/-- **A probe counts what it says it counts, when no call is between its updates.** Take whatever
happens to a probe: calls come in and take their steps, each of which updates one counter or is
about one permit, and permits are released, in any order. The calls that are live and those that
have finished are as many as have started, but for the calls that have told one of these counters
and not yet the next one; the count of live calls is never lowered below none. No call finishes
without a permit; each permit is left over, with a call, or used up by one call; and when no call
can go on, as many have finished as there were both calls and permits for, no matter which came
first. The mark of the most live calls is a count that there was, and there was no higher one,
unless a call has yet to raise it.

If its calls are those of the workers of a bus, the bus and the probe each go their way, each call
on its way through the probe is of a worker of its own that runs it, and neither the count of live
calls nor the mark was ever higher than the number of workers that the bus may have, however often
and by whatever handlers it is subscribed. -/
theorem calls_are_counted :
    (∀ {log : ProbeHistory} {p : Probe}, Run Probe.tick {} log p → p.Measures log) ∧
    ∀ {probes : H → Bool} {config : PoolConfig} {log : List (ProbedDeed H)} {s : ProbedBus H},
      Run (step probes) (new config) log s →
        Run Broker.step (Broker.new config) (busLog log) s.bus ∧
        Run Probe.tick {} (probeLog log) s.probe ∧
        Tied probes s ∧
        (∀ n ∈ (probeLog log).lives, n ≤ config.workerCount) ∧
        s.probe.maxLive ≤ config.workerCount ∧
        ((∀ t, s.step probes (.advance t) = none) →
          s.probe.finished = min s.probe.started (probeLog log).released) := by
  refine ⟨fun run => (Probe.Kept.of_run run).measures, ?_⟩
  intro probes config log s run
  have lives := lives_le run
  have mark := (Probe.Kept.of_run (run_probe run)).mark_mem
  exact ⟨run_bus run, run_probe run, .of_run run, lives, lives _ mark, finished_of_quiet run⟩

/-- A worker runs the probe for a subscription, and calls it. -/
private def entering (t : Nat) : List (ProbedAction H) :=
  [.bus (.pool (.reply t (.named (.returned "probe")))),
    .bus (.pool (.reply t (.asked (.returned true)))), .enter t]

/-- A call with a permit goes on to its end, and its worker with it. -/
private def leaving (t : Nat) : List (ProbedAction H) := [.advance t, .advance t, .answer t]

/-- A probe that is subscribed twice to a bus with two workers. Both workers call it before either
call has raised the mark, and three permits are released before either call asks for one. The third
permit is for the next call of the worker of the first event, and none is left for the last call. -/
theorem calls_are_counted_subscribed_twice :
    ∃ (log : List (ProbedDeed Unit)) (s : ProbedBus Unit),
      Run (step fun _ => true) (new ⟨2, 2, false⟩) log s ∧
      Probe.Measures s.probe (probeLog log) ∧ Tied (fun _ => true) s ∧
      s.probe.maxLive = 2 ∧ s.calls = [(1, 3)] ∧ s.probe.started = 4 ∧
      (probeLog log).released = 3 ∧ s.probe.finished = 3 ∧
      (probeLog log).lives =
        [0, 1, 2, 2, 2, 2, 2, 2, 2, 2, 1, 1, 2, 2, 2, 2, 1, 1, 0, 0, 1, 1, 1, 1] := by
  obtain ⟨log, s, goes, waits, stays, calls, started, released, lives⟩ :
      ∃ log s, runAll (step fun _ => true) (new (H := Unit) ⟨2, 2, false⟩)
        ([.bus (.pool (.subscribe ⟨1⟩ ())), .bus (.pool (.subscribe ⟨2⟩ ())),
          .bus (.pool (.publish default default)), .bus (.pool (.saved 0 (.ok ()))),
          .bus (.pool (.publish default default)), .bus (.pool (.saved 1 (.ok ()))),
          .bus (.pool .dispatch), .bus (.pool .dispatch), .bus (.pool .dispatch),
          .bus (.pool .dispatch), .bus (.pool (.start 0)), .bus (.pool (.start 1))] ++
          entering 0 ++ entering 1 ++
          [.advance 1, .advance 0, .advance 0, .advance 1, .release 3, .advance 1, .advance 0] ++
          leaving 0 ++ entering 0 ++ [.advance 0, .advance 0, .advance 0] ++ leaving 0 ++
          leaving 1 ++ entering 1 ++ [.advance 1, .advance 1, .advance 1]) = some (s, log) ∧
        s.probe.calls = [⟨3, .waiting⟩] ∧ s.probe.advance? 3 = none ∧ s.calls = [(1, 3)] ∧
        s.probe.started = 4 ∧ (probeLog log).released = 3 ∧
        (probeLog log).lives =
          [0, 1, 2, 2, 2, 2, 2, 2, 2, 2, 1, 1, 2, 2, 2, 2, 1, 1, 0, 0, 1, 1, 1, 1] :=
    ⟨_, _, rfl, rfl, rfl, rfl, rfl, rfl, rfl⟩
  have run := Run.ofActions goes
  obtain ⟨counts, onBus⟩ := calls_are_counted (H := Unit)
  obtain ⟨-, probed, tied, -, -, finished⟩ := onBus run
  have quiet : ∀ t, s.step (fun _ => true) (.advance t) = none := by
    intro t
    apply Option.eq_none_iff_forall_ne_some.mpr
    rintro ⟨after, told⟩ steps
    cases Rule.of_step steps with
    | advance found advances =>
      have last := List.mem_of_find?_eq_some found
      rw [calls] at last
      obtain ⟨-, rfl⟩ := Prod.mk.inj (List.mem_singleton.mp last)
      cases stays.symm.trans advances
  have all := finished quiet
  rw [started, released] at all
  have mark := (counts probed).mark fun id seen there => by
    rw [waits] at there
    cases List.mem_singleton.mp there
  rw [lives] at mark
  exact ⟨log, s, run, counts probed, tied, (Option.some.inj mark).symm, calls, started, released,
    all, lives⟩

/-- **Between its updates a call shows**: one that has just come in is counted as live, and neither
as started nor by the mark. -/
theorem counters_disagree_between_updates :
    ∃ (log : ProbeHistory) (p : Probe), Run Probe.tick {} log p ∧
      log.lives = [0, 1] ∧ p.live = 1 ∧ p.started = 0 ∧ p.finished = 0 ∧ p.maxLive = 0 :=
  ⟨[⟨.enter, _⟩], _, .single (Probe.tick_eq_some.mpr ⟨rfl, rfl⟩), rfl, rfl, rfl, rfl, rfl⟩

end ProbedBus

end DomainEvents.Bus
