import DomainEvents.Proofs.Bus.Calls

/-!
# The work on one event

A worker has its event to itself. What it does depends on the subscriptions that there were when it
started and on what it hears, and on nothing else that happens to the bus: a step that is not its
own leaves it as it is (`Pool.Rule.quiet`). `Account` says what a worker has called and heard, what
there was notice of, and where it stands now; it holds when the worker has started and is kept by
every rule, the worker's own and all others.
-/

namespace DomainEvents.Bus

variable {H : Type}

/-! ## What a worker hears and tells -/

/-- The number of the event whose worker acts, if one does. -/
def Action.worker? : Action H → Option Nat
  | .start t | .reply t _ => some t
  | _ => none

/-- What the worker of an event hears, if it hears something. -/
def Action.heard? (t : Nat) : Action H → Option Reply
  | .reply u answer => if u = t then some answer else none
  | _ => none

/-- What a worker has done, if the notice is of that, and its event. -/
def Notice.worker? : Notice H → Option (Dispatch × WorkerNotice H)
  | .worker d n => some (d, n)
  | _ => none

theorem Action.heard?_eq_none {t : Nat} {action : Action H} (other : action.worker? ≠ some t) :
    action.heard? t = none := by
  cases action with
  | reply u =>
    rw [heard?, if_neg]
    rintro rfl
    exact other rfl
  | _ => rfl

/-- An action about subscriptions is not one of a worker. -/
theorem Action.worker?_of_registration? [DecidableEq H] {action : Action H}
    {change : Registry H → Registry H} (h : action.registration? = some change) :
    action.worker? = none := by
  cases action with
  | start => cases h
  | reply => cases h
  | _ => rfl

@[simp] theorem Notice.filterMap_worker? (d : Dispatch) (told : List (WorkerNotice H)) :
    (told.map (Notice.worker d)).filterMap Notice.worker? = told.map (d, ·) := by
  rw [List.filterMap_map]
  exact congrFun (List.filterMap_eq_map' (f := (d, ·))) told

/-- The event whose worker was killed, if the notice says so. -/
def Notice.killed? : Notice H → Option Dispatch
  | .ended d true => some d
  | _ => none

namespace History

variable {t : Nat} {h : History H}

/-- Where there is no notice of it no worker was killed. -/
theorem not_killed (unharmed : h.collect Notice.killed? = []) (d : Dispatch) :
    .ended d true ∉ h.notices := by
  intro killed
  have there : d ∈ h.collect Notice.killed? := mem_collect.mpr ⟨_, killed, rfl⟩
  rw [unharmed] at there
  cases there

/-- What the worker of an event has heard. -/
def heard (t : Nat) (h : History H) : List Reply := h.filterMap (·.action.heard? t)

/-- What the worker of an event has given notice of. -/
def toldBy (t : Nat) (h : History H) : List (Dispatch × WorkerNotice H) :=
  (h.collect Notice.worker?).filter (·.1.ticket == t)

theorem heard_snoc (t : Nat) (h : History H) (action : Action H) (notices : List (Notice H)) :
    (h ++ [⟨action, notices⟩] : History H).heard t = h.heard t ++ (action.heard? t).toList := by
  rw [heard, List.filterMap_append, List.filterMap_cons]
  cases action.heard? t <;> rfl

theorem toldBy_snoc (t : Nat) (h : History H) (action : Action H) (notices : List (Notice H)) :
    (h ++ [⟨action, notices⟩] : History H).toldBy t =
      h.toldBy t ++ History.toldBy t [⟨action, notices⟩] := by
  rw [toldBy, collect_append, List.filter_append]
  rfl

theorem toldBy_eq_nil {action : Action H} {notices : List (Notice H)}
    (none : ∀ d n, .worker d n ∈ notices → d.ticket ≠ t) :
    History.toldBy t [⟨action, notices⟩] = [] := by
  refine List.filter_eq_nil_iff.mpr ?_
  rintro ⟨d, n⟩ hd
  obtain ⟨notice, hn, same⟩ := mem_collect.mp hd
  cases notice with
  | worker =>
    cases same
    simpa using none d n (by simpa using hn)
  | _ => cases same

/-- What a worker tells in a step of its own. -/
theorem toldBy_own (d : Dispatch) (action : Action H) {notices : List (Notice H)}
    {told : List (WorkerNotice H)} (own : notices.filterMap Notice.worker? = told.map (d, ·)) :
    History.toldBy d.ticket [⟨action, notices⟩] = told.map (d, ·) := by
  rw [toldBy, collect_cons, collect_nil, List.append_nil, own]
  refine List.filter_eq_self.mpr ?_
  intro e he
  obtain ⟨n, -, rfl⟩ := List.mem_map.mp he
  exact beq_self_eq_true _

end History

namespace Pool

/-! ## Workers by their numbers -/

variable {h : History H} {p q : Pool H} {t : Nat} {w : Worker H}

/-- A worker is found by the number of its event. -/
theorem Route.worker?_of_mem (route : Route h p) (hw : w ∈ p.workers) :
    p.worker? w.dispatch.ticket = some w := by
  have distinct := route.working_distinct
  rw [working, List.map_map] at distinct
  obtain ⟨v, found⟩ := find?_of_any (l := p.workers) (f := (·.dispatch.ticket == w.dispatch.ticket))
    (List.any_eq_true.mpr ⟨w, hw, beq_self_eq_true _⟩)
  have same : v = w := List.inj_on_of_nodup_map distinct (List.mem_of_find?_eq_some found) hw
    (by simpa using List.find?_some found)
  rw [← same] at found ⊢
  exact found

/-- An event whose worker has ended has no other worker. -/
theorem Route.worker?_of_ended (route : Route h p) {d : Dispatch} (ended : d ∈ h.ended) :
    p.worker? d.ticket = none := by
  have handed := route.accepted_distinct.sublist (route.handed_prefix.sublist.map (·.ticket))
  have all := (route.work.map (·.ticket)).nodup_iff.mp handed
  rw [List.map_append] at all
  obtain ⟨-, -, apart⟩ := List.nodup_append.mp all
  refine List.find?_eq_none.mpr ?_
  intro v hv same
  exact apart _ (List.mem_map_of_mem (List.mem_map_of_mem hv)) _ (List.mem_map_of_mem ended)
    (by simpa using same)

/-- A worker that starts has not started before. -/
theorem unstarted_of_spawned (route : Route h p) (slots : Slots h p) {d : Dispatch}
    (found : p.worker? t = some ⟨d, .spawned⟩) : t ∉ h.started.map (·.ticket) := by
  intro there
  obtain ⟨e, he, rfl⟩ := List.mem_map.mp there
  rcases List.mem_append.mp (slots.started.mem_iff.mp he) with running | ended
  · obtain ⟨w, hw, rfl⟩ := List.mem_map.mp running
    obtain ⟨hw, started⟩ := List.mem_filter.mp hw
    rw [route.worker?_of_mem hw] at found
    obtain rfl := Option.some.inj found
    cases started
  · rw [route.worker?_of_ended ended] at found
    cases found

/-- A worker that waits for something else is still there, and no other has changed. -/
theorem worker?_setPhase (p : Pool H) (u : Nat) (phase : Phase H) (t : Nat) :
    (p.setPhase u phase).worker? t =
      (p.worker? t).map fun w => if w.dispatch.ticket == u then { w with phase } else w := by
  rw [worker?, setPhase, List.find?_map]
  refine congrArg (Option.map _) (congrArg (List.find? · _) (funext fun w => ?_))
  simp only [Function.comp_apply]
  split <;> rfl

theorem worker?_setPhase_self (found : p.worker? t = some w) (phase : Phase H) :
    (p.setPhase t phase).worker? t = some { w with phase } := by
  rw [worker?_setPhase, found, Option.map_some, if_pos (by simpa using ticket_of_worker? found)]

theorem worker?_setPhase_of_ne (found : p.worker? t = some w) {u : Nat} (other : u ≠ t)
    (phase : Phase H) : (p.setPhase u phase).worker? t = some w := by
  have ticket := ticket_of_worker? found
  rw [worker?_setPhase, found, Option.map_some, if_neg (by simpa [ticket] using other.symm)]

/-- A worker that ends takes no other along. -/
theorem worker?_endWorker_of_ne {v : Worker H} (ends : p.worker? v.dispatch.ticket = some v)
    (found : p.worker? t = some w) (other : v.dispatch.ticket ≠ t) (killed : Bool) :
    (p.endWorker v.dispatch killed).1.worker? t = some w := by
  obtain ⟨l₁, l₂, split, erased⟩ := split_of_find? ends
  rw [worker?, split, List.find?_append, List.find?_cons_of_neg (by simpa using other),
    ← List.find?_append] at found
  show List.find? _ (p.workers.eraseP _) = some w
  rw [erased]
  exact found

/-! ## Other steps -/

variable [DecidableEq H] {action : Action H} {notices : List (Notice H)}

/-- A worker gives notice of something in steps of its own. -/
theorem Rule.worker_of_told (rule : Rule p action q notices) {d : Dispatch} {n : WorkerNotice H}
    (told : .worker d n ∈ notices) : action.worker? = some d.ticket := by
  cases rule with
  | start worker =>
    obtain ⟨_, rfl⟩ : _ ∧ _ = d := by simpa using told
    exact congrArg some (ticket_of_worker? worker).symm
  | turn worker =>
    obtain ⟨_, rfl⟩ : _ ∧ _ = d := by simpa using told
    exact congrArg some (ticket_of_worker? worker).symm
  | finish worker =>
    obtain ⟨_, rfl⟩ : _ ∧ _ = d := by simpa using told
    exact congrArg some (ticket_of_worker? worker).symm
  | close => cases p.closed <;> simp at told
  | join => cases p.joinable <;> simp at told
  | _ => simp at told

/-- **A worker is left alone.** In a step that is not its own it hears and tells nothing, and waits
for the same as before. -/
theorem Rule.quiet (rule : Rule p action q notices) (other : action.worker? ≠ some t) :
    History.heard t [⟨action, notices⟩] = [] ∧ History.toldBy t [⟨action, notices⟩] = [] ∧
      ∀ w, p.worker? t = some w → q.worker? t = some w := by
  refine ⟨?_, History.toldBy_eq_nil ?_, ?_⟩
  · rw [History.heard, List.filterMap_cons, Action.heard?_eq_none other, List.filterMap_nil]
  · rintro d n told rfl
    exact other (rule.worker_of_told told)
  · intro w found
    cases rule with
    | handOut =>
      show List.find? _ (p.workers ++ _) = some w
      rw [List.find?_append, show List.find? _ p.workers = some w from found, Option.some_or]
    | start => exact worker?_setPhase_of_ne found (fun same => other (congrArg some same)) _
    | turn => exact worker?_setPhase_of_ne found (fun same => other (congrArg some same)) _
    | finish worker =>
      have ticket := ticket_of_worker? worker
      rw [← ticket] at worker
      refine worker?_endWorker_of_ne worker found ?_ _
      rw [ticket]
      exact fun same => other (congrArg some same)
    | _ => exact found

/-! ## The account of a worker -/

/-- Where a worker stands: it waits for something, or there was notice of its end. -/
def Stands (h : History H) (p : Pool H) (d : Dispatch) : Progress H → Prop
  | .next phase => p.worker? d.ticket = some ⟨d, phase⟩
  | .finished => .ended d false ∈ h.notices
  | .killed => .ended d true ∈ h.notices

/-- The worker of an event waits for the end of a call. -/
def Waits (p : Pool H) (d : Dispatch) (call : Call H) : Prop :=
  ∃ phase, p.worker? d.ticket = some ⟨d, phase⟩ ∧ phase.call? d.event call.reply = some call

/-- What a worker of the given subscriptions has called, and what is known of that. -/
structure Account (entries : List (Subscription H)) (d : Dispatch) (calls : List (Call H))
    (progress : Progress H) (h : History H) (p : Pool H) : Prop where
  /-- the calls lead to where it stands -/
  soFar : SoFar d.event entries calls progress
  /-- it has heard how each of them has ended -/
  heard : h.heard d.ticket = calls.map Call.reply
  /-- there was notice of them, and of the one that it waits for -/
  told : h.toldBy d.ticket = (calls.flatMap Call.told ++ progress.opened d.event).map (d, ·)
  stands : Stands h p d progress

/-- Nothing was heard or told by workers that have not started. -/
theorem silent_of_run {config : PoolConfig} (run : Run Pool.tick (.new config) h p)
    (unstarted : t ∉ h.started.map (·.ticket)) : h.heard t = [] ∧ h.toldBy t = [] := by
  let P (h : History H) (p : Pool H) : Prop :=
    (Route h p ∧ Slots h p) ∧
      ∀ t, t ∉ h.started.map (·.ticket) → h.heard t = [] ∧ h.toldBy t = []
  refine (run_induction (P := P) ⟨⟨.start config, .start config⟩, fun _ _ => ⟨rfl, rfl⟩⟩ ?_
    run).2 t unstarted
  rintro h p q action notices ⟨⟨route, slots⟩, silent⟩ rule
  refine ⟨⟨route.of_rule rule, slots.of_rule route rule⟩, ?_⟩
  intro t unstarted
  rw [History.started, History.collect_append, List.map_append, List.mem_append,
    not_or] at unstarted
  obtain ⟨before, now⟩ := unstarted
  -- the worker has not started before, so it is not one that goes on, and it does not start now
  have other : action.worker? ≠ some t := by
    intro acts
    have running {w : Worker H} (found : p.worker? t = some w) (goes : w.phase.isStarted = true) :
        t ∈ h.started.map (·.ticket) := by
      have there : w.dispatch ∈ p.running :=
        List.mem_map_of_mem (List.mem_filter.mpr ⟨List.mem_of_find?_eq_some found, goes⟩)
      have ticket := ticket_of_worker? found
      exact List.mem_map.mpr
        ⟨_, slots.started.mem_iff.mpr (List.mem_append_left _ there), ticket⟩
    cases rule with
    | @start u d worker =>
      obtain rfl : u = t := Option.some.inj acts
      have ticket : d.ticket = u := ticket_of_worker? worker
      refine now ?_
      simp [ticket]
    | turn worker goes =>
      obtain rfl := Option.some.inj acts
      exact before (running worker (Phase.isStarted_of_step goes))
    | finish worker goes =>
      obtain rfl := Option.some.inj acts
      exact before (running worker (Phase.isStarted_of_step goes))
    | register _ changes =>
      rw [Action.worker?_of_registration? changes] at acts
      cases acts
    | _ => cases acts
  obtain ⟨heard, told, -⟩ := rule.quiet other
  rw [History.heard, List.filterMap_append, History.toldBy_snoc, told, List.append_nil]
  refine ⟨?_, (silent t before).2⟩
  exact List.append_eq_nil_iff.mpr ⟨(silent t before).1, heard⟩

theorem Account.start {config : PoolConfig} (run : Run Pool.tick (.new config) h p) {d : Dispatch}
    (found : p.worker? t = some ⟨d, .spawned⟩) (rule : Rule p (.start t) q notices) :
    Account p.registry.entries d [] (.next (Phase.turnTo p.registry.entries))
      (h ++ [⟨.start t, notices⟩]) q := by
  have unstarted := unstarted_of_spawned (.of_run run) (.of_run run) found
  obtain ⟨heard, told⟩ := silent_of_run run unstarted
  obtain rfl : d.ticket = t := ticket_of_worker? found
  cases rule with
  | @start _ e worker =>
    rw [found] at worker
    obtain rfl : d = e := congrArg Worker.dispatch (Option.some.inj worker)
    refine ⟨.start _ _, ?_, ?_, worker?_setPhase_self found _⟩
    · rw [History.heard_snoc, heard]
      rfl
    · have own : (Notice.started d ::
          (Phase.turnNotices d.event p.registry.entries).map (.worker d)).filterMap Notice.worker? =
            (Phase.turnNotices d.event p.registry.entries).map (d, ·) :=
        Notice.filterMap_worker? d _
      rw [History.toldBy_snoc, told, History.toldBy_own d _ own, Progress.opened,
        Phase.opened_turnTo]
      rfl
  | register _ changes => cases changes

omit [DecidableEq H] in
/-- A worker that goes on has made one call more. -/
theorem Account.snoc {entries : List (Subscription H)} {d : Dispatch} {calls : List (Call H)}
    {phase : Phase H} {progress : Progress H} {reply : Reply} {told : List (WorkerNotice H)}
    (account : Account entries d calls (.next phase) h p)
    (goes : phase.step d.event reply = some (progress, told)) (more : List (Notice H))
    (nothing : more.filterMap Notice.worker? = [])
    (stands : Stands (h ++ [⟨.reply d.ticket reply, told.map (.worker d) ++ more⟩]) q d progress) :
    ∃ call, phase.call? d.event reply = some call ∧ Account entries d (calls ++ [call]) progress
      (h ++ [⟨.reply d.ticket reply, told.map (.worker d) ++ more⟩]) q := by
  obtain ⟨call, waits, tells, -⟩ := Phase.call_of_step goes
  obtain rfl := Phase.reply_of_call? waits
  refine ⟨call, waits, account.soFar.snoc waits goes, ?_, ?_, stands⟩
  · rw [History.heard_snoc, account.heard, List.map_append, Action.heard?, if_pos rfl]
    rfl
  · have own : (told.map (Notice.worker d) ++ more).filterMap Notice.worker? = told.map (d, ·) := by
      rw [List.filterMap_append, Notice.filterMap_worker?, nothing, List.append_nil]
    rw [History.toldBy_snoc, History.toldBy_own d _ own, account.told, ← List.map_append,
      List.append_assoc, Progress.opened, tells, List.flatMap_append, List.append_assoc,
      List.flatMap_singleton]

omit [DecidableEq H] in
/-- A worker that has ended is not there any more. -/
theorem Stands.worker?_eq_none (route : Route h p) {d : Dispatch} {progress : Progress H}
    (stands : Stands h p d progress) (ended : progress.end? ≠ none) :
    p.worker? d.ticket = none := by
  have known {killed : Bool} (told : .ended d killed ∈ h.notices) : p.worker? d.ticket = none :=
    route.worker?_of_ended (History.mem_collect.mpr ⟨_, told, rfl⟩)
  cases progress with
  | next => exact absurd rfl ended
  | finished => exact known stands
  | killed => exact known stands

/-- **Every rule keeps the account of a worker,** and adds to it if the step is the worker's own. -/
theorem Account.of_rule {entries : List (Subscription H)} {d : Dispatch} {calls : List (Call H)}
    {progress : Progress H} (account : Account entries d calls progress h p) (route : Route h p)
    (rule : Rule p action q notices) :
    ∃ more progress, Account entries d (calls ++ more) progress (h ++ [⟨action, notices⟩]) q ∧
      ∀ call ∈ more, action = .reply d.ticket call.reply ∧ p.Waits d call := by
  by_cases own : action.worker? = some d.ticket
  · -- the worker is there and has started, so it goes on from where it stands
    have goesOn {w : Worker H} (found : p.worker? d.ticket = some w) :
        progress = .next w.phase ∧ w.dispatch = d := by
      cases progress with
      | next phase =>
        have same : p.worker? d.ticket = some ⟨d, phase⟩ := account.stands
        rw [found] at same
        obtain rfl := Option.some.inj same
        exact ⟨rfl, rfl⟩
      | _ =>
        rw [account.stands.worker?_eq_none route nofun] at found
        cases found
    have heardNow {w : Worker H} {answer : Reply} {call : Call H}
        (found : p.worker? w.dispatch.ticket = some w)
        (waits : w.phase.call? w.dispatch.event answer = some call) :
        ∀ made ∈ [call], Action.reply w.dispatch.ticket answer =
          .reply (H := H) w.dispatch.ticket made.reply ∧ p.Waits w.dispatch made := by
      intro made there
      obtain rfl := List.mem_singleton.mp there
      rw [Phase.reply_of_call? waits]
      exact ⟨rfl, w.phase, found, by rw [Phase.reply_of_call? waits, waits]⟩
    cases rule with
    | start worker =>
      obtain rfl := Option.some.inj own
      obtain ⟨rfl, -⟩ := goesOn worker
      exact absurd rfl account.soFar.started
    | @turn t reply w phase told worker goes =>
      obtain rfl := Option.some.inj own
      obtain ⟨rfl, rfl⟩ := goesOn worker
      have stands := worker?_setPhase_self worker phase
      obtain ⟨call, waits, longer⟩ := account.snoc goes [] rfl stands
      rw [List.append_nil] at longer
      exact ⟨[call], _, longer, heardNow worker waits⟩
    | @finish t reply w progress told killed worker goes ends =>
      obtain rfl := Option.some.inj own
      obtain ⟨rfl, rfl⟩ := goesOn worker
      let last : Entry H := ⟨.reply w.dispatch.ticket reply,
        told.map (.worker w.dispatch) ++ [.ended w.dispatch killed]⟩
      have told : .ended w.dispatch killed ∈ History.notices (h ++ [last]) :=
        History.mem_notices_snoc.mpr (.inr (by simp))
      have stands : Stands (h ++ [last]) (p.endWorker w.dispatch killed).1 w.dispatch progress := by
        cases progress <;> cases ends <;> exact told
      obtain ⟨call, waits, longer⟩ := account.snoc goes [.ended w.dispatch killed] rfl stands
      exact ⟨[call], _, longer, heardNow worker waits⟩
    | register _ changes =>
      rw [Action.worker?_of_registration? changes] at own
      cases own
    | _ => cases own
  · obtain ⟨heard, told, stays⟩ := rule.quiet own
    refine ⟨[], progress, ?_, nofun⟩
    rw [List.append_nil]
    refine ⟨account.soFar, ?_, ?_, ?_⟩
    · rw [← account.heard, History.heard, List.filterMap_append]
      exact (congrArg _ heard).trans (List.append_nil _)
    · rw [← account.told, History.toldBy_snoc, told, List.append_nil]
    · have stands := account.stands
      cases progress with
      | next => exact stays _ stands
      | finished => exact History.mem_notices_snoc.mpr (.inl stands)
      | killed => exact History.mem_notices_snoc.mpr (.inl stands)

/-- In a run from `p` with the history `k` the worker of the event has made a call, and has heard of
its end. -/
def Made (p : Pool H) (k : History H) (d : Dispatch) (call : Call H) : Prop :=
  ∃ before notices after m, k = before ++ ⟨.reply d.ticket call.reply, notices⟩ :: after ∧
    Run Pool.tick p before m ∧ m.Waits d call

/-- What a worker calls in a run comes to its account. -/
theorem Account.of_run_made {entries : List (Subscription H)} {d : Dispatch}
    {calls : List (Call H)} {progress : Progress H} {k : History H}
    (account : Account entries d calls progress h p) (route : Route h p)
    (run : Run Pool.tick p k q) :
    ∃ more progress, Account entries d (calls ++ more) progress (h ++ k) q ∧
      ∀ call ∈ more, Made p k d call := by
  induction run with
  | refl =>
    refine ⟨[], progress, ?_, nofun⟩
    rw [List.append_nil, List.append_nil]
    exact account
  | @snoc k _ q r _ init ticks ih =>
    obtain ⟨notices, step, rfl⟩ := tick_eq_some.mp ticks
    obtain ⟨more, progress, account, made⟩ := ih
    obtain ⟨next, progress, account, now⟩ :=
      account.of_rule (route.trans init) (Rule.of_step step)
    rw [List.append_assoc, List.append_assoc] at account
    refine ⟨more ++ next, progress, account, ?_⟩
    intro call there
    rcases List.mem_append.mp there with there | there
    · obtain ⟨before, notices, after, m, rfl, reach, waits⟩ := made call there
      exact ⟨before, notices, after ++ _, m, by rw [List.append_assoc]; rfl, reach, waits⟩
    · obtain ⟨rfl, waits⟩ := now call there
      exact ⟨k, notices, [], q, rfl, init, waits⟩

/-- The account of a worker is kept by every run. -/
theorem Account.of_run {entries : List (Subscription H)} {d : Dispatch} {calls : List (Call H)}
    {progress : Progress H} {k : History H} (account : Account entries d calls progress h p)
    (route : Route h p) (run : Run Pool.tick p k q) :
    ∃ calls progress, Account entries d calls progress (h ++ k) q := by
  obtain ⟨more, progress, account, -⟩ := account.of_run_made route run
  exact ⟨_, progress, account⟩

theorem Made.after {d : Dispatch} {call : Call H} {k : History H} (reach : Run Pool.tick p h q)
    (made : Made q k d call) : Made p (h ++ k) d call := by
  obtain ⟨before, notices, after, m, rfl, run, waits⟩ := made
  exact ⟨h ++ before, notices, after, m, (List.append_assoc ..).symm, reach.trans run, waits⟩

omit [DecidableEq H] in
/-- A worker that waits for something has an event that has come into the queue. -/
theorem Waits.accepted {d : Dispatch} {call : Call H} (route : Route h p) (waits : p.Waits d call) :
    d ∈ h.accepted := by
  obtain ⟨phase, found, -⟩ := waits
  exact route.handed_prefix.subset (route.working_subset_handed (dispatch_mem_working found))

/-- Of what a worker has called, its event has come into the queue, and it has heard the end. -/
theorem Made.known {config : PoolConfig} {d : Dispatch} {call : Call H}
    (made : Made (.new config) h d call) :
    d ∈ h.accepted ∧ call.reply ∈ h.heard d.ticket := by
  obtain ⟨before, notices, after, m, rfl, reach, waits⟩ := made
  refine ⟨?_, ?_⟩
  · rw [History.accepted, History.collect_append]
    exact List.mem_append_left _ (waits.accepted (.of_run reach))
  · refine List.mem_filterMap.mpr ⟨⟨.reply d.ticket call.reply, notices⟩, by simp, ?_⟩
    exact if_pos rfl

/-- The account of a worker that has started, as a history tells it. -/
theorem account_of_start {config : PoolConfig} {before after : History H}
    (run : Run Pool.tick (.new config) (before ++ ⟨.start t, notices⟩ :: after) p) :
    ∃ m d calls progress, Run Pool.tick (.new config) before m ∧
      m.worker? t = some ⟨d, .spawned⟩ ∧
      Account m.registry.entries d calls progress (before ++ ⟨.start t, notices⟩ :: after) p ∧
      ∀ call ∈ calls, Made (.new config) (before ++ ⟨.start t, notices⟩ :: after) d call := by
  obtain ⟨m, q, reach, step, later⟩ := run_cut run
  have rule := Rule.of_step step
  obtain ⟨d, found⟩ : ∃ d, m.worker? t = some ⟨d, .spawned⟩ := by
    cases rule with
    | start worker => exact ⟨_, worker⟩
    | register _ changes => cases changes
  obtain ⟨calls, progress, account, made⟩ :=
    (Account.start reach found rule).of_run_made ((Route.of_run reach).of_rule rule) later
  rw [List.append_assoc, List.singleton_append] at account
  refine ⟨m, d, calls, progress, reach, found, account, ?_⟩
  intro call there
  have longer := (made call there).after (reach.trans (run_step step))
  rw [List.append_assoc] at longer
  exact longer

/-- Whatever the end of the call that a worker waits for, the worker can hear of it. -/
theorem can_hear (found : p.worker? t = some w) {call : Call H}
    (waits : w.phase.call? w.dispatch.event call.reply = some call) :
    ∃ after, p.step (.reply t call.reply) = some after := by
  obtain ⟨⟨progress, told⟩, goes⟩ := Phase.step_of_call? waits
  show ∃ after, p.reply t call.reply = some after
  rw [reply, found]
  simp only [goes]
  cases progress <;> exact ⟨_, rfl⟩

/-- **A worker runs every interested handler in turn, reports every failure, and marks the event.**
Take any run of a bus in which the worker of an event starts, and let `entries` be the subscriptions
that there are then. All that the worker has heard is how its calls have ended, and all that there
was notice of from it is about these calls and its own event. If it has come to its end its calls
are those of an itinerary with one turn for each of the subscriptions, in their order: that is so
whenever no panic of a handler's name, of the error callback or of the store has killed it. If one
has, that was the last call, in place of one of an itinerary, and the worker has ended with it.
Until it ends it waits for the next call of an itinerary, and can hear of any end of that call. -/
theorem worker_follows_itinerary {config : PoolConfig} {log : List (Deed H)} {b : Broker H}
    (run : Run Broker.step (Broker.new config) log b) {before after : History H}
    {notices : List (Notice H)}
    (starts : history log = before ++ ⟨.start t, notices⟩ :: after) :
    ∃ (m : Pool H) (d : Dispatch) (entries : List (Subscription H)) (calls : List (Call H))
      (progress : Progress H), Run Pool.tick (.new config) before m ∧
      m.worker? t = some ⟨d, .spawned⟩ ∧ m.registry.entries = entries ∧
      (history log).heard t = calls.map Call.reply ∧
      (history log).toldBy t = (calls.flatMap Call.told ++ progress.opened d.event).map (d, ·) ∧
      (progress = .killed ↔ ∃ call ∈ calls, call.kills = true) ∧
      (progress = .finished → .ended d false ∈ (history log).notices ∧
        ∃ turns mark, turns.map (·.entry) = entries ∧ calls = itinerary d.event turns mark) ∧
      (progress = .killed → .ended d true ∈ (history log).notices ∧
        ∃ first call next turns mark, calls = first ++ [call] ∧ call.kills = true ∧
          call.Alike next ∧ turns.map (·.entry) = entries ∧
          first ++ [next] <+: itinerary d.event turns mark) ∧
      ∀ phase, progress = .next phase → b.pool.worker? t = some ⟨d, phase⟩ ∧
        (∃ call turns mark, phase.call? d.event call.reply = some call ∧
          turns.map (·.entry) = entries ∧ calls ++ [call] <+: itinerary d.event turns mark) ∧
        ∀ call, phase.call? d.event call.reply = some call →
          ∃ after, b.pool.step (.reply t call.reply) = some after := by
  have ran := Broker.run_pool run
  rw [starts] at ran ⊢
  obtain ⟨m, q, reach, step, later⟩ := run_cut ran
  have rule := Rule.of_step step
  obtain ⟨d, found⟩ : ∃ d, m.worker? t = some ⟨d, .spawned⟩ := by
    cases rule with
    | start worker => exact ⟨_, worker⟩
    | register _ changes => cases changes
  obtain ⟨calls, progress, account⟩ :=
    (Account.start reach found rule).of_run ((Route.of_run reach).of_rule rule) later
  rw [List.append_assoc, List.singleton_append] at account
  have ticket : d.ticket = t := ticket_of_worker? found
  have heard := account.heard
  have told := account.told
  rw [ticket] at heard told
  refine ⟨m, d, _, calls, progress, reach, found, rfl, heard, told, account.soFar.killed_iff, ?_,
    ?_, ?_⟩
  · rintro rfl
    refine ⟨account.stands, ?_⟩
    cases account.soFar with
    | finished all => exact ⟨_, _, all, rfl⟩
  · rintro rfl
    refine ⟨account.stands, ?_⟩
    cases account.soFar with
    | killed so waits kills =>
      obtain ⟨next, turns, mark, known, all, begins⟩ := so.next_call
      exact ⟨_, _, next, turns, mark, rfl, kills, ⟨_, _, waits, known⟩, all, begins⟩
  · rintro phase rfl
    have there : b.pool.worker? d.ticket = some ⟨d, phase⟩ := account.stands
    rw [ticket] at there
    exact ⟨there, account.soFar.next_call, fun call waits => can_hear there waits⟩

/-- The worker of an event on a bus with two subscriptions. The first handler fails, and the
interest check of the second one panics; meanwhile one subscription is added and another is removed.
In the end the store cannot mark the event. -/
theorem worker_follows_itinerary_troubled :
    ∃ (log : List (Deed Unit)) (b : Broker Unit) (d : Dispatch) (turns : List (Turn Unit))
      (mark : Except StoreError Unit),
      Run Broker.step (Broker.new ⟨2, 1, false⟩) log b ∧
      .ended d false ∈ (history log).notices ∧
      turns.map (·.entry) = [⟨⟨1⟩, ()⟩, ⟨⟨2⟩, ()⟩] ∧
      (history log).heard 0 = (itinerary d.event turns mark).map Call.reply ∧
      (history log).heard 0 =
        [.named (.returned "audit"), .asked (.returned true),
          .handled (.returned (.error .cancelled)), .reported (.returned ()),
          .named (.returned "mail"), .asked (.panicked "filter"), .reported (.returned ()),
          .marked (.returned (.error (.backend "full"))), .reported (.returned ())] := by
  obtain ⟨prior, m, q, notices, more, b, log, first, starts, rest, entries, gone, all, heard⟩ :
      ∃ prior m q notices more b log,
        runAll Broker.step (Broker.new (H := Unit) ⟨2, 1, false⟩)
          [.pool (.subscribe ⟨1⟩ ()), .pool (.subscribe ⟨2⟩ ()), .pool (.publish default default),
            .pool (.saved 0 (.ok ())), .pool .dispatch, .pool .dispatch] = some (m, prior) ∧
        m.step (.pool (.start 0)) = some (q, [.pool ⟨.start 0, notices⟩]) ∧
        runAll Broker.step q
          [.pool (.reply 0 (.named (.returned "audit"))),
            .pool (.reply 0 (.asked (.returned true))), .pool (.subscribe ⟨3⟩ ()),
            .pool (.reply 0 (.handled (.returned (.error .cancelled)))),
            .pool (.reply 0 (.reported (.returned ()))), .pool (.off ⟨2⟩),
            .pool (.reply 0 (.named (.returned "mail"))),
            .pool (.reply 0 (.asked (.panicked "filter"))),
            .pool (.reply 0 (.reported (.returned ()))),
            .pool (.reply 0 (.marked (.returned (.error (.backend "full"))))),
            .pool (.reply 0 (.reported (.returned ())))] = some (b, more) ∧
        m.pool.registry.entries = [⟨⟨1⟩, ()⟩, ⟨⟨2⟩, ()⟩] ∧ b.pool.worker? 0 = none ∧
        prior ++ ([.pool ⟨.start 0, notices⟩] ++ more) = log ∧
        (history log).heard 0 =
          [.named (.returned "audit"), .asked (.returned true),
            .handled (.returned (.error .cancelled)), .reported (.returned ()),
            .named (.returned "mail"), .asked (.panicked "filter"), .reported (.returned ()),
            .marked (.returned (.error (.backend "full"))), .reported (.returned ())] :=
    ⟨_, _, _, _, _, _, _, rfl, rfl, rfl, rfl, rfl, rfl, rfl⟩
  have before := Run.ofActions first
  have run := before.trans ((Run.single starts).trans (Run.ofActions rest))
  have cut : history log = history prior ++ ⟨.start 0, notices⟩ :: history more := by
    rw [← all, history_append]
    rfl
  rw [all] at run
  obtain ⟨n, d, _, calls, progress, reach, -, rfl, replies, -, kills, finished, -, waits⟩ :=
    worker_follows_itinerary run cut
  obtain rfl := run_unique reach (Broker.run_pool before)
  rw [entries] at finished
  refine ⟨log, b, d, ?_⟩
  cases progress with
  | finished =>
    obtain ⟨ended, turns, mark, all, rfl⟩ := finished rfl
    exact ⟨turns, mark, run, ended, all, replies, heard⟩
  | next phase =>
    obtain ⟨there, -⟩ := waits phase rfl
    rw [gone] at there
    cases there
  | killed =>
    -- of the replies that were heard none is the end of a call that kills
    obtain ⟨call, made, kill⟩ := kills.mp rfl
    have told : call.reply ∈ (history log).heard 0 := by
      rw [replies]
      exact List.mem_map_of_mem made
    rw [heard] at told
    cases call with
    | name _ outcome => cases outcome <;> simp [Call.kills, Call.reply] at kill told
    | report _ outcome => cases outcome <;> simp [Call.kills, Call.reply] at kill told
    | mark _ outcome => cases outcome <;> simp [Call.kills, Call.reply] at kill told
    | _ => cases kill

end Pool

end DomainEvents.Bus
