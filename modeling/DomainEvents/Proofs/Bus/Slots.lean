import DomainEvents.Proofs.Bus.Route

/-!
# The slots of workers

A bus has so many permits as its configuration says. Each of them is free, in the hand of the
dispatcher, or with a worker that has not ended; and the bus counts the workers that have started
and not ended. `Slots` says so, and every rule keeps it: a worker takes a permit when it comes to be
and is counted when it starts, and gives both back when it ends, whether it comes to its end or a
panic kills it.
-/

namespace DomainEvents.Bus

variable {H : Type}

/-! ## Phases -/

/-- Whether a worker has started. -/
def Phase.isStarted : Phase H → Bool
  | .spawned => false
  | _ => true

/-- Whether a worker waits for the end of a handler. -/
def Phase.isCalling : Phase H → Bool
  | .handling _ _ _ => true
  | _ => false

/-- Whether a worker waits for the end of a handler when it goes on. -/
def Progress.isCalling : Progress H → Bool
  | .next phase => phase.isCalling
  | _ => false

/-- Whether a handler is called. -/
def WorkerNotice.isCall : WorkerNotice H → Bool
  | .called _ => true
  | _ => false

/-- Whether a handler has come to its end. -/
def Reply.isReturn : Reply → Bool
  | .handled _ => true
  | _ => false

namespace Phase

variable {event : Event} {phase next : Phase H} {reply : Reply} {progress : Progress H}
  {told : List (WorkerNotice H)}

theorem isStarted_turnTo (entries : List (Subscription H)) : (turnTo entries).isStarted = true := by
  cases entries <;> rfl

theorem isCalling_turnTo (entries : List (Subscription H)) :
    (turnTo entries).isCalling = false := by
  cases entries <;> rfl

theorem isCall_turnNotices (event : Event) (entries : List (Subscription H)) :
    (turnNotices event entries).filter (·.isCall) = [] := by
  cases entries <;> rfl

/-- Only a worker that has started goes on. -/
theorem isStarted_of_step (h : phase.step event reply = some (progress, told)) :
    phase.isStarted = true := by
  cases phase with
  | spawned => cases reply <;> cases h
  | _ => rfl

/-- A worker that goes on has started. -/
theorem isStarted_of_next (h : phase.step event reply = some (.next next, told)) :
    next.isStarted = true := by
  revert h
  fun_cases Phase.step
  all_goals intro h; cases h
  all_goals first | rfl | exact isStarted_turnTo _

/-- A step of a worker calls one handler, or is the end of one, or has nothing to do with calls. -/
theorem calls_of_step (h : phase.step event reply = some (progress, told)) :
    (phase.isCalling = reply.isReturn ∧ progress.isCalling = false ∧ told.filter (·.isCall) = []) ∨
      phase.isCalling = false ∧ reply.isReturn = false ∧ progress.isCalling = true ∧
        ∃ entry, told = [.called entry] := by
  revert h
  fun_cases Phase.step
  all_goals intro h; cases h
  case case3 entry _ => exact .inr ⟨rfl, rfl, rfl, entry, rfl⟩
  all_goals left
  all_goals first | exact ⟨rfl, rfl, rfl⟩ | exact ⟨rfl, isCalling_turnTo _, isCall_turnNotices _ _⟩

end Phase

namespace Pool

/-! ## Workers in a phase -/

/-- The events of the workers in a phase of a kind. -/
abbrev having (f : Phase H → Bool) (p : Pool H) : List Dispatch :=
  (p.workers.filter fun w => f w.phase).map (·.dispatch)

/-- The events of the workers that have started and not ended. -/
abbrev running (p : Pool H) : List Dispatch := p.having Phase.isStarted

/-- The events for which a handler is running. -/
abbrev calling (p : Pool H) : List Dispatch := p.having Phase.isCalling

/-- An event, if it counts. -/
def one (counts : Bool) (d : Dispatch) : List Dispatch := if counts then [d] else []

@[simp] theorem one_true (d : Dispatch) : one true d = [d] := rfl

@[simp] theorem one_false (d : Dispatch) : one false d = [] := rfl

theorem having_sublist (f : Phase H → Bool) (p : Pool H) : (p.having f).Sublist p.working :=
  List.filter_sublist.map _

/-- A worker that goes on or ends is one of many, and the others stay as they are. -/
theorem workers_split {p : Pool H} {t : Nat} {w : Worker H}
    (distinct : (p.working.map (·.ticket)).Nodup) (found : p.worker? t = some w) :
    ∃ l₁ l₂, p.workers = l₁ ++ w :: l₂ ∧
      (∀ phase, (p.setPhase t phase).workers = l₁ ++ { w with phase } :: l₂) ∧
      ∀ killed, (p.endWorker w.dispatch killed).1.workers = l₁ ++ l₂ := by
  have ticket := ticket_of_worker? found
  obtain ⟨l₁, l₂, split, erased⟩ := split_of_find? found
  -- `setPhase` goes through all workers, so it takes the numbers to see that it changes one only
  have others : ∀ v ∈ l₁ ++ l₂, v.dispatch.ticket ≠ t := by
    have tickets : ((w :: (l₁ ++ l₂)).map (·.dispatch.ticket)).Nodup := by
      rw [List.map_map, split] at distinct
      exact (List.perm_middle.map _).nodup_iff.mp distinct
    intro v hv same
    exact (List.nodup_cons.mp tickets).1 (List.mem_map.mpr ⟨v, hv, same.trans ticket.symm⟩)
  refine ⟨l₁, l₂, split, ?_, ?_⟩
  · intro phase
    have untouched (l : List (Worker H)) (hl : ∀ v ∈ l, v.dispatch.ticket ≠ t) :
        (l.map fun v => if v.dispatch.ticket == t then { v with phase } else v) = l := by
      refine (List.map_congr_left ?_).trans l.map_id
      intro v hv
      simp [hl v hv]
    rw [setPhase, split, List.map_append, List.map_cons,
      untouched l₁ (fun v hv => others v (List.mem_append_left _ hv)),
      untouched l₂ (fun v hv => others v (List.mem_append_right _ hv))]
    simp [ticket]
  · intro killed
    rw [← ticket] at erased
    exact erased

/-- Of the events in a phase of a kind, the steps of a worker only concern its own. -/
theorem having_split {p : Pool H} {t : Nat} {w : Worker H}
    (distinct : (p.working.map (·.ticket)).Nodup) (found : p.worker? t = some w)
    (f : Phase H → Bool) :
    ∃ rest, (p.having f).Perm (one (f w.phase) w.dispatch ++ rest) ∧
      (∀ phase, ((p.setPhase t phase).having f).Perm (one (f phase) w.dispatch ++ rest)) ∧
      ∀ killed, (p.endWorker w.dispatch killed).1.having f = rest := by
  obtain ⟨l₁, l₂, split, set, ended⟩ := workers_split distinct found
  let rest := (l₁ ++ l₂).filter fun v => f v.phase
  have middle (v : Worker H) :
      (((l₁ ++ v :: l₂).filter fun v => f v.phase).map (·.dispatch)).Perm
        (one (f v.phase) v.dispatch ++ rest.map (·.dispatch)) := by
    refine ((List.perm_middle.filter _).map _).trans ?_
    cases counts : f v.phase <;> simp [counts, one, rest]
  refine ⟨rest.map (·.dispatch), ?_, ?_, ?_⟩
  · rw [having, split]
    exact middle w
  · intro phase
    rw [having, set]
    exact middle { w with phase }
  · intro killed
    rw [having, ended]

/-! ## Slots -/

/-- Who has the permits of a pool, and what it counts, as its history tells it. -/
structure Slots (h : History H) (p : Pool H) : Prop where
  /-- every permit is free, in the hand, or with a worker -/
  permits : p.free + p.hand.permits + p.workers.length = p.config.workerCount
  /-- the count is the one of the workers that are running -/
  counted : p.inFlight = p.running.length
  /-- these are the ones that have started and not ended -/
  started : h.started.Perm (p.running ++ h.ended)
  /-- a handler that was called is running or has come to its end -/
  called : (h.called.map (·.ticket)).Perm (p.calling.map (·.ticket) ++ h.returned)

/-- The calls of handlers that a worker gives notice of. -/
theorem called_told (d : Dispatch) (told : List (WorkerNotice H)) :
    told.filterMap (Notice.called? ∘ .worker d) = (told.filter (·.isCall)).map fun _ => d := by
  induction told with
  | nil => rfl
  | cons n told ih =>
    rw [List.filterMap_cons, ih]
    cases n <;> rfl

theorem returned?_reply (t : Nat) (reply : Reply) :
    (Action.reply t reply : Action H).returned?.toList = if reply.isReturn then [t] else [] := by
  cases reply <;> rfl

/-- An event for which a handler has come to its end goes from one list to another. -/
theorem returned_perm {d : Dispatch} {counts : Bool} {called returned : List Nat}
    {calling rest : List Dispatch} (before : calling.Perm (one counts d ++ rest))
    (h : called.Perm (calling.map (·.ticket) ++ returned)) :
    called.Perm (rest.map (·.ticket) ++ (returned ++ if counts then [d.ticket] else [])) := by
  have h := h.trans ((before.map (·.ticket)).append_right _)
  cases counts with
  | false => simpa using h
  | true =>
    refine h.trans ?_
    rw [← List.append_assoc]
    exact (List.perm_append_singleton ..).symm

/-- The dispatcher takes an event off the queue with a permit if there is one. -/
theorem permits_take (p : Pool H) (d : Dispatch) (rest : List Dispatch) :
    (p.take d rest).free + (p.take d rest).hand.permits = p.free := by
  rw [Pool.take]
  by_cases none : p.free = 0
  · simp [none, Hand.permits]
  · simp [none, Hand.permits]
    omega

/-- A worker that ends gives back a permit. -/
theorem permits_endWorker (p : Pool H) (d : Dispatch) (killed : Bool) :
    (p.endWorker d killed).1.free + (p.endWorker d killed).1.hand.permits =
      p.free + p.hand.permits + 1 := by
  rw [endWorker, giveBack]
  cases p.hand <;> simp [Hand.grant, Hand.permits]

variable [DecidableEq H]

namespace Slots

variable {h : History H} {p q : Pool H} {action : Action H} {notices : List (Notice H)}

omit [DecidableEq H] in
theorem start (config : PoolConfig) : Slots [] (.new config : Pool H) where
  permits := by simp [new, Hand.permits]
  counted := rfl
  started := .nil
  called := .nil

theorem permits_of_rule (slots : Slots h p) (rule : Rule p action q notices) :
    q.free + q.hand.permits + q.workers.length = q.config.workerCount := by
  have permits := slots.permits
  cases rule with
  | handOut hand =>
    rw [hand, Hand.permits] at permits
    simpa [Hand.permits, Nat.add_assoc, Nat.add_comm 1] using permits
  | @take d rest hand =>
    rw [hand, Hand.permits] at permits
    rw [permits_take]
    exact permits
  | start => simpa [setPhase] using permits
  | turn => simpa [setPhase] using permits
  | @finish t reply w progress told killed worker =>
    have gone := (working_endWorker worker killed).length_eq
    rw [List.length_cons, working, working, List.length_map, List.length_map] at gone
    rw [permits_endWorker, Nat.add_right_comm, Nat.add_assoc, ← gone]
    exact permits
  | _ => exact permits

/-- The count of a pool is the number of the workers that are running. -/
theorem counted_of_rule (route : Route h p) (slots : Slots h p) (rule : Rule p action q notices) :
    q.inFlight = q.running.length := by
  have counted := slots.counted
  cases rule with
  | handOut => simpa [running, having, Phase.isStarted] using counted
  | start worker =>
    obtain ⟨rest, before, after, -⟩ := having_split route.working_distinct worker Phase.isStarted
    have before : p.running.length = rest.length := before.length_eq
    have after := (after (Phase.turnTo p.registry.entries)).length_eq
    rw [Phase.isStarted_turnTo, one_true, List.singleton_append, List.length_cons, ← before,
      ← counted] at after
    exact after.symm
  | @turn t reply w phase told worker goes =>
    obtain ⟨rest, before, after, -⟩ := having_split route.working_distinct worker Phase.isStarted
    have before := before.length_eq
    have after := (after phase).length_eq
    rw [Phase.isStarted_of_step goes] at before
    rw [Phase.isStarted_of_next goes] at after
    exact counted.trans (before.trans after.symm)
  | @finish t reply w progress told killed worker goes =>
    obtain ⟨rest, before, -, after⟩ := having_split route.working_distinct worker Phase.isStarted
    have before := before.length_eq
    rw [Phase.isStarted_of_step goes, one_true, List.singleton_append, List.length_cons,
      ← counted] at before
    -- the count is not zero, as the worker that ends was counted
    have fewer : p.inFlight - 1 = rest.length := by omega
    rw [running, after]
    exact fewer
  | _ => exact counted

/-- A worker that starts is running, and one that ends is no more. -/
theorem started_of_rule (route : Route h p) (slots : Slots h p) (rule : Rule p action q notices) :
    (h ++ [⟨action, notices⟩] : History H).started.Perm
      (q.running ++ (h ++ [⟨action, notices⟩] : History H).ended) := by
  have started := slots.started
  cases rule with
  | handOut => simpa [List.filterMap_cons, running, having, Phase.isStarted] using started
  | @start t d worker =>
    obtain ⟨rest, before, after, -⟩ := having_split route.working_distinct worker Phase.isStarted
    have after := after (Phase.turnTo p.registry.entries)
    rw [Phase.isStarted_turnTo] at after
    have moved : (h.started ++ [d]).Perm (d :: rest ++ h.ended) :=
      calc
        (h.started ++ [d]).Perm (d :: h.started) := List.perm_append_singleton ..
        (d :: h.started).Perm (d :: (rest ++ h.ended)) :=
          (started.trans (before.append_right _)).cons d
    simpa [List.filterMap_cons] using moved.trans (after.symm.append_right _)
  | @turn t reply w phase told worker goes =>
    obtain ⟨rest, before, after, -⟩ := having_split route.working_distinct worker Phase.isStarted
    have after := after phase
    rw [Phase.isStarted_of_step goes] at before
    rw [Phase.isStarted_of_next goes] at after
    have same := before.trans after.symm
    simpa using started.trans (same.append_right _)
  | @finish t reply w progress told killed worker goes =>
    obtain ⟨rest, before, -, after⟩ := having_split route.working_distinct worker Phase.isStarted
    rw [Phase.isStarted_of_step goes] at before
    have moved : h.started.Perm (rest ++ (h.ended ++ [w.dispatch])) :=
      calc
        h.started.Perm (w.dispatch :: (rest ++ h.ended)) := started.trans (before.append_right _)
        (w.dispatch :: (rest ++ h.ended)).Perm (rest ++ h.ended ++ [w.dispatch]) :=
          (List.perm_append_singleton ..).symm
        _ = rest ++ (h.ended ++ [w.dispatch]) := List.append_assoc ..
    simpa [List.filterMap_cons, running, after] using moved
  | close => cases p.closed <;> simpa [List.filterMap_cons] using started
  | join => cases p.joinable <;> simpa [List.filterMap_cons] using started
  | _ => simpa [List.filterMap_cons, Pool.take] using started

/-- A handler that is called runs until it comes to its end. -/
theorem called_of_rule (route : Route h p) (slots : Slots h p) (rule : Rule p action q notices) :
    ((h ++ [⟨action, notices⟩] : History H).called.map (·.ticket)).Perm
      (q.calling.map (·.ticket) ++ (h ++ [⟨action, notices⟩] : History H).returned) := by
  have called := slots.called
  cases rule with
  | handOut =>
    simpa [List.filterMap_cons, Action.returned?, calling, having, Phase.isCalling] using called
  | start worker =>
    obtain ⟨rest, before, after, -⟩ := having_split route.working_distinct worker Phase.isCalling
    have after := after (Phase.turnTo p.registry.entries)
    rw [Phase.isCalling_turnTo] at after
    have same := (before.trans after.symm).map (·.ticket)
    simpa [List.filterMap_cons, Action.returned?, called_told, Phase.isCall_turnNotices] using
      called.trans (same.append_right _)
  | @turn t reply w phase told worker goes =>
    obtain ⟨rest, before, after, -⟩ := having_split route.working_distinct worker Phase.isCalling
    have after := after phase
    have ticket := ticket_of_worker? worker
    -- either the step may be the end of a handler, or it is a call of one
    rcases Phase.calls_of_step goes with ⟨returns, quiet, told⟩ | ⟨idle, stays, calls, _, rfl⟩
    · replace quiet : phase.isCalling = false := quiet
      rw [returns] at before
      rw [quiet] at after
      have moved := (returned_perm before called).trans ((after.symm.map (·.ticket)).append_right _)
      simpa [called_told, told, returned?_reply, ticket] using moved
    · replace calls : phase.isCalling = true := calls
      rw [idle] at before
      rw [calls] at after
      have before := (before.map (·.ticket)).append_right h.returned
      have after := (after.symm.map (·.ticket)).append_right h.returned
      have moved : (h.called.map (·.ticket) ++ [w.dispatch.ticket]).Perm _ :=
        (List.perm_append_singleton ..).trans (((called.trans before).cons _).trans after)
      simpa [List.filterMap_cons, returned?_reply, stays] using moved
  | @finish t reply w progress told killed worker goes ends =>
    obtain ⟨rest, before, -, after⟩ := having_split route.working_distinct worker Phase.isCalling
    have ticket := ticket_of_worker? worker
    -- a worker that calls a handler does not come to its end in this step
    rcases Phase.calls_of_step goes with ⟨returns, -, told⟩ | ⟨-, -, calls, -⟩
    · rw [returns] at before
      have moved := returned_perm before called
      rw [← after killed] at moved
      simpa [List.filterMap_cons, called_told, told, returned?_reply, ticket] using moved
    · cases progress <;> cases ends <;> cases calls
  | close => cases p.closed <;> simpa [List.filterMap_cons, Action.returned?] using called
  | join => cases p.joinable <;> simpa [List.filterMap_cons, Action.returned?] using called
  | register held changes =>
    simpa [Action.returned?_of_registration? changes] using called
  | _ => simpa [List.filterMap_cons, Action.returned?, Pool.take] using called

/-- **Every rule keeps the slots.** -/
theorem of_rule (route : Route h p) (slots : Slots h p) (rule : Rule p action q notices) :
    Slots (h ++ [⟨action, notices⟩]) q where
  permits := slots.permits_of_rule rule
  counted := slots.counted_of_rule route rule
  started := slots.started_of_rule route rule
  called := slots.called_of_rule route rule

/-- The slots are kept by every run. -/
theorem of_run {config : PoolConfig} (run : Run Pool.tick (.new config) h p) : Slots h p := by
  refine (run_induction (P := fun h p => Route h p ∧ Slots h p) ?_ ?_ run).2
  · exact ⟨.start config, .start config⟩
  · rintro h p q action notices ⟨route, slots⟩ rule
    exact ⟨route.of_rule rule, slots.of_rule route rule⟩

end Slots

/-- The configuration of a pool never changes. -/
theorem config_of_run {config : PoolConfig} {h : History H} {p : Pool H}
    (run : Run Pool.tick (.new config) h p) : p.config = config := by
  refine run_induction (P := fun _ p => p.config = config) rfl ?_ run
  rintro h p q action notices rfl rule
  cases rule <;> rfl

end Pool

end DomainEvents.Bus
