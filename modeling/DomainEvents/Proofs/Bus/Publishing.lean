import DomainEvents.Proofs.Bus.Closing

/-!
# The outcome of a call of publish

A call of publish looks at the bus twice: when it comes in, and when the store has given its answer.
In between anything may happen. The file follows one call through a run. Before it comes in there is
no notice of it, as its number is new; while it waits for the store there is none either; and after
its answer there is nothing more of it to come. So what there is notice of is what its two steps
tell, and `Fate` lists what that can be.
-/

namespace DomainEvents.Bus

variable {H : Type}

namespace Pool

variable {p q r : Pool H} {h k : History H} {action : Action H} {notices : List (Notice H)}

/-! ## Calls that wait -/

/-- No two calls that wait have the same number. -/
theorem eq_of_waits (route : Route h p) {d e : Dispatch} (waits : d ∈ p.saving)
    (found : p.saving.find? (·.ticket == d.ticket) = some e) : e = d :=
  List.inj_on_of_nodup_map route.saving_distinct (List.mem_of_find?_eq_some found) waits
    (ticket_of_found found)

/-- An old call that does not wait, and so will not wait again. -/
def Done (t : Nat) (p : Pool H) : Prop := t < p.tickets ∧ ∀ d ∈ p.saving, d.ticket ≠ t

theorem done_of_found (route : Route h p) {t : Nat} {d : Dispatch}
    (found : p.saving.find? (·.ticket == t) = some d) : Done t (p.unsave t) := by
  have ticket := ticket_of_found found
  refine ⟨?_, ?_⟩
  · rw [← ticket]
    exact route.fresh_of_waits (List.mem_of_find?_eq_some found)
  · have saving := ((perm_of_find? found).map (·.ticket)).nodup_iff.mp route.saving_distinct
    intro e he same
    exact (List.nodup_cons.mp saving).1 (List.mem_map.mpr ⟨e, he, same.trans ticket.symm⟩)

/-- When the queue has come to its end while somebody waits, the bus was closed. -/
theorem closed_of_ended (closing : Closing p) (ended : p.accepting = false) (held : p.held = true) :
    p.closed = true := by
  have stage : p.stage ≠ .running := by
    intro running
    rw [closing.open_iff.mpr running] at ended
    cases ended
  rcases closing.signalled (closing.told stage) with closed | lost
  · exact closed
  · rw [held] at lost
    cases lost

theorem check_eq_ok {event : Event} (check : p.check event = .ok ())
    (on : p.config.validateEvents = true) : Event.isName event.name = true := by
  rw [Pool.check, if_pos on] at check
  exact (Event.checkName_eq_ok_iff _).mp check

theorem check_eq_error {event : Event} {invalid : ValidationError}
    (check : p.check event = .error invalid) :
    p.config.validateEvents = true ∧ Event.isName event.name = false ∧
      event.validate = .error invalid := by
  rw [Pool.check] at check
  split at check
  case isTrue on =>
    refine ⟨on, Bool.eq_false_iff.mpr ?_, check⟩
    intro name
    rw [Event.validate, (Event.checkName_eq_ok_iff _).mpr name] at check
    cases check
  case isFalse => cases check

/-! ## Fates -/

/-- How a call of publish can come out. -/
inductive Fate where
  /-- the bus was closed before -/
  | closed
  /-- the event was malformed -/
  | malformed (invalid : ValidationError)
  /-- the store has failed -/
  | unsaved (source : StoreError)
  /-- the queue has come to its end while the store was saving -/
  | late
  /-- there was no room in the queue -/
  | full
  /-- the event has come into the queue -/
  | queued
  /-- the call waits for the store -/
  | waiting
  /-- the caller has gone away, or the store has panicked -/
  | forsaken

/-- What a refusal tells. -/
def refusal (d : Dispatch) (error : BusError) : List (Notice H) :=
  [.refused d error, .answered d (.error error)]

/-- All that there is notice of about a call that came out in a way, where `capacity` is how many
events may wait. -/
def Fate.told (capacity : Nat) (d : Dispatch) : Fate → List (Notice H)
  | .closed => refusal d .shuttingDown
  | .malformed invalid => refusal d (.validation invalid)
  | .unsaved source => .saving d :: refusal d (.persistence .save source)
  | .late => .saving d :: refusal d .shuttingDown
  | .full => .saving d :: refusal d (.queueFull capacity)
  | .queued => [.saving d, .accepted d, .answered d (.ok ())]
  | .waiting | .forsaken => [.saving d]

/-- All of it is about the call. -/
theorem Fate.filter_told (capacity : Nat) (d : Dispatch) (fate : Fate) :
    (fate.told capacity d : List (Notice H)).filter (·.call? == some d.ticket) =
      fate.told capacity d := by
  cases fate <;> simp [told, refusal, Notice.call?]

/-- What there is notice of tells how a call came out, unless it has no answer. -/
theorem Fate.eq_of_told {capacity : Nat} {d : Dispatch} {fate other : Fate}
    (same : (fate.told capacity d : List (Notice H)) = other.told capacity d)
    (left : ¬(fate = .waiting ∧ other = .forsaken))
    (right : ¬(fate = .forsaken ∧ other = .waiting)) :
    fate = other := by
  cases fate <;> cases other <;> simp_all [told, refusal]

theorem Fate.queued_of_accepted {capacity : Nat} {d e : Dispatch} {fate : Fate}
    (told : (.accepted e : Notice H) ∈ fate.told capacity d) : fate = .queued := by
  cases fate with
  | queued => rfl
  | _ => simp [Fate.told, refusal] at told

/-! ## Before, during and after a call -/

/-- A step that is not one of a call gives no notice of it. -/
theorem about_eq_nil {t : Nat} (none : ∀ n ∈ notices, n.call? ≠ some t) :
    History.about t [⟨action, notices⟩] = [] := by
  refine List.eq_nil_iff_forall_not_mem.mpr ?_
  intro n hn
  obtain ⟨hn, about⟩ := History.mem_about.mp hn
  exact none n (by simpa using hn) about

variable [DecidableEq H]

/-- There is only notice of a call when it comes in and when the store has given its answer. -/
theorem Rule.call_cases (rule : Rule p action q notices) {n : Notice H} (hn : n ∈ notices) {t : Nat}
    (about : n.call? = some t) :
    (t = p.tickets ∧ ∃ ctx event, action = .publish ctx event) ∨
      ∃ result, action = .saved t result ∧ ∃ d ∈ p.saving, d.ticket = t := by
  have silent (none : ∀ n ∈ notices, n.call? = none) (goal : Prop) : goal := by
    rw [none n hn] at about
    cases about
  have one {t' : Nat} (all : ∀ n ∈ notices, n.call? = some t') : t = t' := by
    rw [all n hn] at about
    exact (Option.some.inj about).symm
  have waiting {t' : Nat} {d : Dispatch} (waits : p.saving.find? (·.ticket == t') = some d)
      (same : t = d.ticket) : t' = t ∧ ∃ d ∈ p.saving, d.ticket = t := by
    have ticket := ticket_of_found waits
    exact ⟨(same.trans ticket).symm, d, List.mem_of_find?_eq_some waits, same.symm⟩
  cases rule with
  | refuse => exact .inl ⟨one (by simp [Notice.call?]), _, _, rfl⟩
  | ask => exact .inl ⟨one (by simp [Notice.call?]), _, _, rfl⟩
  | refuseLate waits =>
    obtain ⟨rfl, known⟩ := waiting waits (one (by simp [Notice.call?]))
    exact .inr ⟨_, rfl, known⟩
  | accept waits =>
    obtain ⟨rfl, known⟩ := waiting waits (one (by simp [Notice.call?]))
    exact .inr ⟨_, rfl, known⟩
  | finish =>
    refine silent ?_ _
    intro n hn
    rcases List.mem_append.mp hn with hn | hn
    · obtain ⟨_, _, rfl⟩ := List.mem_map.mp hn
      rfl
    · obtain rfl := List.mem_singleton.mp hn
      rfl
  | close => exact silent (by cases p.closed <;> simp [Notice.call?]) _
  | join => exact silent (by cases p.joinable <;> simp [Notice.call?]) _
  | _ => exact silent (by simp [Notice.call?]) _

/-- There is no notice of calls to come. -/
theorem about_new {config : PoolConfig} (run : Run Pool.tick (.new config) h p) {t : Nat}
    (new : p.tickets ≤ t) : h.about t = [] := by
  let P (h : History H) (p : Pool H) : Prop := Route h p ∧ ∀ t, p.tickets ≤ t → h.about t = []
  refine (run_induction (P := P) ⟨.start config, fun _ _ => rfl⟩ ?_ run).2 t new
  rintro h p q action notices ⟨route, quiet⟩ rule
  refine ⟨route.of_rule rule, ?_⟩
  intro t new
  rw [History.about_append, quiet t (Nat.le_trans rule.tickets_le new), List.nil_append]
  refine about_eq_nil ?_
  intro n hn about
  rcases rule.call_cases hn about with ⟨rfl, ctx, event, rfl⟩ | ⟨result, -, d, waits, rfl⟩
  · cases rule with
    | refuse => exact Nat.lt_irrefl _ new
    | ask => exact Nat.lt_irrefl _ new
    | register _ changes => cases changes
  · have old := route.fresh_of_waits waits
    have := rule.tickets_le
    omega

theorem Done.of_rule {t : Nat} (done : Done t p) (rule : Rule p action q notices) :
    Done t q ∧ History.about t [⟨action, notices⟩] = [] := by
  obtain ⟨old, gone⟩ := done
  refine ⟨⟨Nat.lt_of_lt_of_le old rule.tickets_le, ?_⟩, about_eq_nil ?_⟩
  · intro d hd
    rcases Route.known_of_rule (h := []) rule (List.mem_append_right _ hd) with hd | ⟨-, -, new, -⟩
    · exact gone d (by simpa using hd)
    · omega
  · intro n hn about
    rcases rule.call_cases hn about with ⟨rfl, -⟩ | ⟨_, -, d, waits, ticket⟩
    · exact Nat.lt_irrefl _ old
    · exact gone d waits ticket

/-- When a call is done there is no more notice of it. -/
theorem Done.of_run {t : Nat} (done : Done t p) (run : Run Pool.tick p h q) :
    Done t q ∧ h.about t = [] := by
  refine run_induction (P := fun h q => Done t q ∧ h.about t = []) ⟨done, rfl⟩ ?_ run
  rintro h q r action notices ⟨done, quiet⟩ rule
  obtain ⟨done, more⟩ := done.of_rule rule
  refine ⟨done, ?_⟩
  rw [History.about_append, quiet, more, List.append_nil]

/-- A call waits until the store answers, or its caller goes away. -/
theorem waits_of_rule (route : Route h p) {d : Dispatch} (waits : d ∈ p.saving)
    (rule : Rule p action q notices) (unanswered : ∀ result, action ≠ .saved d.ticket result)
    (held : action ≠ .forsake d.ticket) :
    d ∈ q.saving ∧ History.about d.ticket [⟨action, notices⟩] = [] := by
  have old := route.fresh_of_waits waits
  refine ⟨?_, about_eq_nil ?_⟩
  · have other {t : Nat} (ne : t ≠ d.ticket) : d ∈ (p.unsave t).saving :=
      (List.mem_eraseP_of_neg (by simpa using ne.symm)).mpr waits
    cases rule with
    | ask => exact List.mem_append_left _ waits
    | refuseLate => exact other (by rintro rfl; exact unanswered _ rfl)
    | accept => exact other (by rintro rfl; exact unanswered _ rfl)
    | forsake => exact other (by rintro rfl; exact held rfl)
    | _ => exact waits
  · intro n hn about
    rcases rule.call_cases hn about with ⟨new, -⟩ | ⟨result, rfl, -⟩
    · omega
    · exact unanswered result rfl

/-- The course of a call that waited for the store in the pool `p`, on the way to the pool `r`. -/
inductive Course (p : Pool H) (d : Dispatch) (r : Pool H) : History H → Prop where
  /-- it still waits, and there was no notice of it -/
  | waiting {k : History H} (waits : d ∈ r.saving) (quiet : k.about d.ticket = []) : Course p d r k
  /-- the store has answered, or its caller has gone away, and there was no other notice of it -/
  | ended {k l : History H} {m after : Pool H} {action : Action H} {notices : List (Notice H)}
      (before : Run Pool.tick p k m) (waits : d ∈ m.saving) (quiet : k.about d.ticket = [])
      (step : m.step action = some (after, notices))
      (about : action = .forsake d.ticket ∨ ∃ result, action = .saved d.ticket result)
      (done : Done d.ticket r) (silent : l.about d.ticket = []) :
      Course p d r (k ++ ⟨action, notices⟩ :: l)

/-- The step that ends the waiting of a call is the last one about it. -/
theorem done_of_rule (route : Route h p) {d : Dispatch} (rule : Rule p action q notices)
    (about : action = .forsake d.ticket ∨ ∃ result, action = .saved d.ticket result) :
    Done d.ticket q := by
  rcases about with rfl | ⟨result, rfl⟩
  · cases rule with
    | forsake waits => exact done_of_found route waits
    | register _ changes => cases changes
  · cases rule with
    | refuseLate waits => exact done_of_found route waits
    | accept waits => exact done_of_found route waits
    | register _ changes => cases changes

/-- **A call that waits for the store takes one step more at most.** -/
theorem Course.of_run (route : Route h p) {d : Dispatch} (waits : d ∈ p.saving)
    (run : Run Pool.tick p k r) : Course p d r k := by
  -- while the call waits every step is another's or its last, and after that `Done` keeps it quiet
  induction run with
  | refl => exact .waiting waits rfl
  | @snoc k told m r action before ticks ih =>
    obtain ⟨notices, step, rfl⟩ := tick_eq_some.mp ticks
    have rule := Rule.of_step step
    cases ih with
    | waiting waits quiet =>
      by_cases about : action = .forsake d.ticket ∨ ∃ result, action = .saved d.ticket result
      · have done := done_of_rule (route.trans before) rule about
        exact .ended before waits quiet step about done rfl
      · have unanswered (result) : action ≠ .saved d.ticket result := fun same =>
          about (.inr ⟨result, same⟩)
        have held : action ≠ .forsake d.ticket := fun same => about (.inl same)
        obtain ⟨waits, more⟩ := waits_of_rule (route.trans before) waits rule unanswered held
        refine .waiting waits ?_
        rw [History.about_append, quiet, more, List.append_nil]
    | ended first waits quiet answer about done silent =>
      obtain ⟨done, more⟩ := done.of_rule rule
      rw [List.append_assoc, List.cons_append]
      refine .ended first waits quiet answer about done ?_
      rw [History.about_append, silent, more, List.append_nil]

/-! ## Reasons -/

/-- The pool can take a step, tells this of it, and has this in its queue after it. -/
def Queues (p : Pool H) (action : Action H) (notices : List (Notice H)) (queue : List Dispatch) :
    Prop :=
  ∃ q, p.step action = some (q, notices) ∧ q.queue = queue

/-- A call that came to the pool `p` was let in, `k` has happened since, and the pool is `m` now. -/
structure LetIn (p : Pool H) (d : Dispatch) (k : History H) (m : Pool H) : Prop where
  opened : p.closed = false
  valid : p.config.validateEvents = true → Event.isName d.event.name = true
  /-- the queue is left as it was while the store is asked -/
  asked : p.Queues (.publish d.ctx d.event) [.saving d] p.queue
  run : Run Pool.tick p (⟨.publish d.ctx d.event, [.saving d]⟩ :: k) m

/-- Why a call came out as it did, and what its last step has done to the queue: the pool was `p`
when it came in, the history tells what has happened from then on, and the pool is `r` now. The
steps of the call itself are told in full. -/
inductive Reason (p : Pool H) (d : Dispatch) (r : Pool H) : History H → Fate → Prop where
  | closed {k : History H} (closed : p.closed = true)
      (queues : p.Queues (.publish d.ctx d.event) (refusal d .shuttingDown) p.queue) :
      Reason p d r (⟨.publish d.ctx d.event, refusal d .shuttingDown⟩ :: k) .closed
  | malformed {k : History H} {invalid : ValidationError} (opened : p.closed = false)
      (on : p.config.validateEvents = true) (name : Event.isName d.event.name = false)
      (check : d.event.validate = .error invalid)
      (queues : p.Queues (.publish d.ctx d.event) (refusal d (.validation invalid)) p.queue) :
      Reason p d r (⟨.publish d.ctx d.event, refusal d (.validation invalid)⟩ :: k)
        (.malformed invalid)
  | unsaved {k l : History H} {m : Pool H} {source : StoreError} (letIn : LetIn p d k m)
      (queues : m.Queues (.saved d.ticket (.error source)) (refusal d (.persistence .save source))
        m.queue) :
      Reason p d r (⟨.publish d.ctx d.event, [.saving d]⟩ :: (k ++
        ⟨.saved d.ticket (.error source), refusal d (.persistence .save source)⟩ :: l))
        (.unsaved source)
  | late {k l : History H} {m : Pool H} (letIn : LetIn p d k m) (ended : m.accepting = false)
      (closed : ∃ timeout, .close timeout ∈ k.map (·.action))
      (queues : m.Queues (.saved d.ticket (.ok ())) (refusal d .shuttingDown) m.queue) :
      Reason p d r (⟨.publish d.ctx d.event, [.saving d]⟩ :: (k ++
        ⟨.saved d.ticket (.ok ()), refusal d .shuttingDown⟩ :: l)) .late
  | full {k l : History H} {m : Pool H} (letIn : LetIn p d k m) (accepting : m.accepting = true)
      (full : m.queued = p.config.queueSize)
      (queues : m.Queues (.saved d.ticket (.ok ())) (refusal d (.queueFull p.config.queueSize))
        m.queue) :
      Reason p d r (⟨.publish d.ctx d.event, [.saving d]⟩ :: (k ++
        ⟨.saved d.ticket (.ok ()), refusal d (.queueFull p.config.queueSize)⟩ :: l)) .full
  /-- the event is the last in the queue now, behind those that were there -/
  | queued {k l : History H} {m : Pool H} (letIn : LetIn p d k m) (accepting : m.accepting = true)
      (room : m.queued < p.config.queueSize)
      (queues : m.Queues (.saved d.ticket (.ok ())) [.accepted d, .answered d (.ok ())]
        (m.queue ++ [d])) :
      Reason p d r (⟨.publish d.ctx d.event, [.saving d]⟩ :: (k ++
        ⟨.saved d.ticket (.ok ()), [.accepted d, .answered d (.ok ())]⟩ :: l)) .queued
  | waiting {k : History H} (letIn : LetIn p d k r) (waits : d ∈ r.saving) :
      Reason p d r (⟨.publish d.ctx d.event, [.saving d]⟩ :: k) .waiting
  | forsaken {k l : History H} {m : Pool H} (letIn : LetIn p d k m) (gone : d ∉ r.saving)
      (queues : m.Queues (.forsake d.ticket) [] m.queue) :
      Reason p d r (⟨.publish d.ctx d.event, [.saving d]⟩ :: (k ++ ⟨.forsake d.ticket, []⟩ :: l))
        .forsaken

/-! ## The flag of a closed bus -/

theorem Rule.closed_iff (rule : Rule p action q notices) :
    q.closed = true ↔ p.closed = true ∨ ∃ timeout, action = .close timeout := by
  cases rule with
  | close => simp
  | register held changes =>
    refine ⟨.inl, ?_⟩
    rintro (closed | ⟨timeout, rfl⟩)
    · exact closed
    · cases changes
  | _ => simp [Pool.take, setPhase, endWorker, giveBack]

/-- A bus is closed from its first call of close on. -/
theorem closed_iff_of_run (run : Run Pool.tick p h q) :
    q.closed = true ↔ p.closed = true ∨ ∃ timeout, .close timeout ∈ h.map (·.action) := by
  let P (h : History H) (q : Pool H) : Prop :=
    q.closed = true ↔ p.closed = true ∨ ∃ timeout, .close timeout ∈ h.map (·.action)
  refine run_induction (P := P) (by simp [P]) ?_ run
  intro h q r action notices closed rule
  replace closed : q.closed = true ↔ _ := closed
  show r.closed = true ↔ _
  rw [rule.closed_iff, closed, or_assoc, List.map_append]
  constructor
  · rintro (closed | ⟨timeout, there⟩ | ⟨timeout, rfl⟩)
    · exact .inl closed
    · exact .inr ⟨timeout, List.mem_append_left _ there⟩
    · exact .inr ⟨timeout, List.mem_append_right _ (List.mem_singleton_self _)⟩
  · rintro (closed | ⟨timeout, there⟩)
    · exact .inl closed
    · rcases List.mem_append.mp there with there | there
      · exact .inr (.inl ⟨timeout, there⟩)
      · exact .inr (.inr ⟨timeout, (List.mem_singleton.mp there).symm⟩)

/-! ## Every call has a fate -/

/-- What a step about a call does to it. -/
theorem Reason.of_answer {config : PoolConfig} {before k l : History H} {m after : Pool H}
    {d : Dispatch} (reach : Run Pool.tick (.new config) before p) (letIn : LetIn p d k m)
    (waits : d ∈ m.saving) (step : m.step action = some (after, notices))
    (about : action = .forsake d.ticket ∨ ∃ result, action = .saved d.ticket result)
    (gone : d ∉ r.saving) :
    ∃ fate, Reason p d r (⟨.publish d.ctx d.event, [.saving d]⟩ :: (k ++ ⟨action, notices⟩ :: l))
        fate ∧ .saving d :: notices = fate.told config.queueSize d := by
  have reached := reach.trans letIn.run
  have route : Route _ m := .of_run reached
  have closing : Closing m := .of_run reached
  have configured : p.config = config := config_of_run reach
  have same : m.config = config := config_of_run reached
  have rule := Rule.of_step step
  rcases about with rfl | ⟨result, rfl⟩
  · cases rule with
    | forsake => exact ⟨.forsaken, .forsaken letIn gone ⟨_, step, rfl⟩, rfl⟩
    | register _ changes => cases changes
  · cases rule with
    | refuseLate found why =>
      obtain rfl := eq_of_waits route waits found
      cases why with
      | unsaved => exact ⟨.unsaved _, .unsaved letIn ⟨_, step, rfl⟩, rfl⟩
      | late ended =>
        -- the caller still holds the bus, so it was a close that told the dispatcher to quit, and
        -- it came after the call, which had found the bus open
        have held : m.held = true := closing.awaited (.inl (List.ne_nil_of_mem waits))
        have closed := (closed_iff_of_run letIn.run).mp (closed_of_ended closing ended held)
        refine ⟨.late, .late letIn ended ?_ ⟨_, step, rfl⟩, rfl⟩
        rcases closed with closed | ⟨timeout, there⟩
        · rw [letIn.opened] at closed
          cases closed
        · exact ⟨timeout, by simpa using there⟩
      | full accepting full =>
        have size : m.queued = p.config.queueSize := by
          rw [configured, ← same]
          exact Nat.le_antisymm closing.room full
        rw [same, ← configured] at step ⊢
        exact ⟨.full, .full letIn accepting size ⟨_, step, rfl⟩, rfl⟩
    | accept found accepting room =>
      obtain rfl := eq_of_waits route waits found
      rw [same, ← configured] at room
      exact ⟨.queued, .queued letIn accepting room ⟨_, step, rfl⟩, rfl⟩
    | register _ changes => cases changes

/-- Every call has a fate, and there is notice of nothing else about it. -/
theorem exists_fate {config : PoolConfig} {before after : History H} {ctx : Context}
    {event : Event} (reach : Run Pool.tick (.new config) before p)
    (run : Run Pool.tick p (⟨.publish ctx event, notices⟩ :: after) r) :
    ∃ fate, Reason p ⟨p.tickets, ctx, event⟩ r (⟨.publish ctx event, notices⟩ :: after) fate ∧
      History.about p.tickets (before ++ ⟨.publish ctx event, notices⟩ :: after) =
        fate.told config.queueSize ⟨p.tickets, ctx, event⟩ := by
  -- nothing is told before the call comes in, and what is told after that is up to its course
  obtain ⟨q, step, later⟩ := run_cons run
  have quiet := about_new reach (Nat.le_refl p.tickets)
  have route : Route before p := .of_run reach
  rw [History.about_append, History.about_cons, quiet, List.nil_append]
  cases Rule.of_step step with
  | refuse held why =>
    have done : Done p.tickets { p with tickets := p.tickets + 1 } := by
      refine ⟨Nat.lt_succ_self _, ?_⟩
      intro d hd
      exact Nat.ne_of_lt (route.fresh_of_waits hd)
    rw [(done.of_run later).2]
    cases why with
    | closed closed =>
      exact ⟨.closed, .closed closed ⟨_, step, rfl⟩, by simp [Fate.told, refusal, Notice.call?]⟩
    | malformed opened check =>
      obtain ⟨on, name, check⟩ := check_eq_error check
      exact ⟨.malformed _, .malformed opened on name check ⟨_, step, rfl⟩,
        by simp [Fate.told, refusal, Notice.call?]⟩
  | ask held opened check =>
    have letIn {k : History H} {m : Pool H} (run : Run Pool.tick _ k m) :
        LetIn p ⟨p.tickets, ctx, event⟩ k m :=
      ⟨opened, check_eq_ok check, ⟨_, step, rfl⟩, (run_step step).trans run⟩
    have waits : (⟨p.tickets, ctx, event⟩ : Dispatch) ∈ p.saving ++ [⟨p.tickets, ctx, event⟩] :=
      List.mem_append_right _ (List.mem_singleton_self _)
    have asked := route.of_rule (Rule.of_step step)
    cases Course.of_run asked waits later with
    | waiting waits quiet =>
      refine ⟨.waiting, .waiting (letIn later) waits, ?_⟩
      rw [quiet]
      simp [Fate.told, Notice.call?]
    | @ended k l m next action told first waits quiet answer about done silent =>
      have gone : (⟨p.tickets, ctx, event⟩ : Dispatch) ∉ r.saving := fun there =>
        done.2 _ there rfl
      obtain ⟨fate, reason, tells⟩ :=
        Reason.of_answer (l := l) reach (letIn first) waits answer about gone
      refine ⟨fate, reason, ?_⟩
      rw [History.about_append, quiet, History.about_cons, silent, List.nil_append, List.append_nil,
        ← List.filter_append, ← fate.filter_told, ← tells]
      rfl
  | register _ changes => cases changes

theorem Reason.waits {d : Dispatch} (reason : Reason p d r k .waiting) : d ∈ r.saving := by
  generalize same : Fate.waiting = fate at reason
  cases reason with
  | waiting _ waits => exact waits
  | _ => cases same

theorem Reason.gone {d : Dispatch} (reason : Reason p d r k .forsaken) : d ∉ r.saving := by
  generalize same : Fate.forsaken = fate at reason
  cases reason with
  | forsaken _ gone => exact gone
  | _ => cases same

/-! ## Calls can be made and answered -/

/-- Whoever holds the bus can publish. -/
theorem can_publish (held : p.held = true) (ctx : Context) (event : Event) :
    ∃ q notices, p.step (.publish ctx event) = some (q, notices) := by
  show ∃ q notices, p.publish ctx event = some (q, notices)
  rw [publish, if_pos held]
  by_cases closed : p.closed = true
  · simp only [closed, if_true]
    exact ⟨_, _, rfl⟩
  · simp only [closed]
    cases Pool.check _ event <;> exact ⟨_, _, rfl⟩

theorem Rule.held_of_saved {t : Nat} {result : Except StoreError Unit}
    (rule : Rule p (.saved t result) q notices) : q.held = p.held := by
  cases rule <;> rfl

/-- The store can answer whoever waits for it, and nobody lets go of the bus by that. -/
theorem can_answer {d : Dispatch} (waits : d ∈ p.saving) (result : Except StoreError Unit) :
    ∃ q notices, p.step (.saved d.ticket result) = some (q, notices) ∧ q.held = p.held := by
  have known : p.saving.any (·.ticket == d.ticket) = true :=
    List.any_eq_true.mpr ⟨d, waits, beq_self_eq_true d.ticket⟩
  obtain ⟨e, found⟩ := find?_of_any known
  have possible : ∃ after, p.step (.saved d.ticket result) = some after := by
    show ∃ after, p.saved d.ticket result = some after
    rw [saved, found]
    cases result <;> exact ⟨_, rfl⟩
  obtain ⟨⟨q, notices⟩, step⟩ := possible
  exact ⟨q, notices, step, (Rule.of_step step).held_of_saved⟩

end Pool

namespace Broker

variable [DecidableEq H] {b : Broker H}

theorem can_publish (held : b.pool.held = true) (ctx : Context) (event : Event) :
    ∃ c deeds, b.step (.pool (.publish ctx event)) = some (c, deeds) := by
  obtain ⟨pool, notices, step⟩ := Pool.can_publish held ctx event
  show ∃ c deeds, b.act (.publish ctx event) = some (c, deeds)
  rw [act, step]
  exact ⟨_, _, rfl⟩

/-- A replay goes on as long as somebody holds the bus. -/
theorem can_turn (held : b.pool.held = true) (call : ReplayCall) (step : ReplayStep) :
    ∃ c deeds, b.turn call step = some (c, deeds) := by
  cases step with
  | answered result => exact ⟨_, _, rfl⟩
  | publish event replay =>
    obtain ⟨pool, notices, step⟩ := Pool.can_publish held call.ctx event
    rw [turn, step]
    cases refused : notices.findSome? Notice.refusal? <;> simp [refused]

/-- The store can answer whoever waits for it, be it a replay, which goes on at once. -/
theorem can_answer {d : Dispatch} (waits : d ∈ b.pool.saving) (held : b.pool.held = true)
    (result : Except StoreError Unit) :
    ∃ c deeds, b.step (.pool (.saved d.ticket result)) = some (c, deeds) := by
  obtain ⟨pool, notices, step, same⟩ := Pool.can_answer waits result
  show ∃ c deeds, b.saved d.ticket result = some (c, deeds)
  rw [saved, step]
  rcases b.publisher? d.ticket with _ | ⟨call, replay⟩
  · exact ⟨_, _, rfl⟩
  · obtain ⟨c, deeds, turn⟩ := can_turn (b := { b with pool }) (same.trans held) call replay.next
    cases refused : notices.findSome? Notice.refusal? with
    | none => simp [refused, turn]
    | some error => simp [refused]

end Broker

namespace Pool

variable [DecidableEq H]

/-- **A call of publish has one outcome.** After every run of a bus: whoever holds the bus can
publish, and the store can give any answer to a call that waits for it; a bus that is closed stays
so. And each call of publish that came in, of a replay or not, came to a pool `p` that was reached
by what had happened before, and has one fate, for the reason that `Reason` gives. There is notice
of the call exactly as `Fate.told` lists it, in that order: the store was asked to save the event
once before the event came into the queue, or once, or not at all. The event is the last in the
queue after the step that accepts it, and every other step of a call leaves the queue as it was. If
the event has not come into the queue it was never handed to a worker. -/
theorem publish_has_one_fate {config : PoolConfig} {log : List (Deed H)} {b : Broker H}
    (run : Run Broker.step (Broker.new config) log b) :
    (b.pool.held = true → ∀ ctx event,
        ∃ c deeds, b.step (.pool (.publish ctx event)) = some (c, deeds)) ∧
      (∀ d ∈ b.pool.saving, ∀ result,
        ∃ c deeds, b.step (.pool (.saved d.ticket result)) = some (c, deeds)) ∧
      (b.pool.closed = true → ∀ more c, Run Broker.step b more c → c.pool.closed = true) ∧
      ∀ before ctx event notices after,
        history log = before ++ ⟨.publish ctx event, notices⟩ :: after →
        ∃ p, Run Pool.tick (.new config) before p ∧ p.config = config ∧
          (p.closed = true ↔ ∃ timeout, .close timeout ∈ before.map (·.action)) ∧
          ∃! fate, Reason p ⟨p.tickets, ctx, event⟩ b.pool (⟨.publish ctx event, notices⟩ :: after)
              fate ∧
            (history log).about p.tickets = fate.told config.queueSize ⟨p.tickets, ctx, event⟩ ∧
            (fate ≠ .queued → ∀ e ∈ (history log).handed, e.ticket ≠ p.tickets) := by
  have ran := Broker.run_pool run
  have closing : Closing b.pool := .of_run ran
  refine ⟨Broker.can_publish, ?_, ?_, ?_⟩
  · intro d waits
    exact Broker.can_answer waits (closing.awaited (.inl (List.ne_nil_of_mem waits)))
  · intro closed more c later
    exact (closed_iff_of_run (Broker.run_pool later)).mpr (.inl closed)
  · intro before ctx event notices after split
    rw [split] at ran
    obtain ⟨p, reach, rest⟩ := run_append ran
    have flag : p.closed = true ↔ ∃ timeout, .close timeout ∈ before.map (·.action) := by
      simpa [new, Broker.new] using closed_iff_of_run reach
    obtain ⟨fate, reason, told⟩ := exists_fate reach rest
    rw [split]
    refine ⟨p, reach, config_of_run reach, flag, fate, ⟨reason, told, ?_⟩, ?_⟩
    · intro unqueued e handed same
      have route : Route _ b.pool := .of_run ran
      have accepted := History.mem_accepted.mp (route.handed_prefix.subset handed)
      have there := History.mem_about.mpr ⟨accepted, congrArg some same⟩
      rw [told] at there
      exact unqueued (Fate.queued_of_accepted there)
    · -- two fates tell the same only without an answer, and differ then in whether the call waits
      rintro other ⟨otherReason, otherTold, -⟩
      refine Fate.eq_of_told (otherTold.symm.trans told) ?_ ?_
      · rintro ⟨rfl, rfl⟩
        exact reason.gone otherReason.waits
      · rintro ⟨rfl, rfl⟩
        exact otherReason.gone reason.waits

/-- Two calls: the first event is accepted and is the last in the queue then; the second is saved
while the bus is closed, and the store has its answer when the queue takes no more events. -/
theorem publish_has_one_fate_late :
    ∃ (log : List (Deed Unit)) (b : Broker Unit) (before after : History Unit) (p : Pool Unit),
      Run Broker.step (Broker.new ⟨2, 1, false⟩) log b ∧ history log = before ++ after ∧
      Run Pool.tick (.new ⟨2, 1, false⟩) before p ∧
      Reason (.new ⟨2, 1, false⟩) ⟨0, default, default⟩ b.pool (history log) .queued ∧
      Reason p ⟨1, default, default⟩ b.pool after .late ∧
      (history log).about 0 = Fate.told 2 ⟨0, default, default⟩ .queued ∧
      (history log).about 1 = Fate.told 2 ⟨1, default, default⟩ .late := by
  obtain ⟨log, b, before, p, first, rest, second, after, all, earlier, old, cuts, accepted, late⟩ :
      ∃ log b before p first rest second after,
        runAll Broker.step (Broker.new (H := Unit) ⟨2, 1, false⟩)
          [.pool (.publish default default), .pool (.saved 0 (.ok ())),
            .pool (.publish default default), .pool (.close ⟨5, 0⟩), .pool .dispatch,
            .pool (.saved 1 (.ok ()))] = some (b, log) ∧
        runAll Pool.tick (Pool.new (H := Unit) ⟨2, 1, false⟩)
          [.publish default default, .saved 0 (.ok ())] = some (p, before) ∧ p.tickets = 1 ∧
        (history log = [] ++ ⟨.publish default default, first⟩ :: rest ∧
          history log = before ++ ⟨.publish default default, second⟩ :: after) ∧
        (history log).about 0 = Fate.told 2 ⟨0, default, default⟩ .queued ∧
        (history log).about 1 = Fate.told 2 ⟨1, default, default⟩ .late :=
    ⟨_, _, _, _, _, _, _, _, rfl, rfl, rfl, ⟨rfl, rfl⟩, rfl, rfl⟩
  have run := Run.ofActions all
  have reach := Run.ofActions earlier
  obtain ⟨-, -, -, calls⟩ := publish_has_one_fate run
  obtain ⟨n, nothing, -, -, fate, ⟨one, told, -⟩, -⟩ := calls _ _ _ _ _ cuts.1
  obtain ⟨q, other, -, -, fate', ⟨two, told', -⟩, -⟩ := calls _ _ _ _ _ cuts.2
  obtain rfl := eq_of_run_nil nothing
  obtain rfl := run_unique reach other
  rw [old] at two told'
  obtain rfl : fate = .queued := Fate.eq_of_told (told.symm.trans accepted) (by simp) (by simp)
  obtain rfl : fate' = .late := Fate.eq_of_told (told'.symm.trans late) (by simp) (by simp)
  refine ⟨log, b, before, _, p, run, cuts.2, reach, ?_, two, accepted, late⟩
  rw [cuts.1]
  exact one

end Pool

end DomainEvents.Bus
