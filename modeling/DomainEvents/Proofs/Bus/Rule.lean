import DomainEvents.Bus.History

/-!
# The rules of a pool

`Pool.step` is written the way a bus goes about its work. Here its steps are told as rules: what a
pool is like when the step is possible, what the pool is like after it, and what there is to tell.
`Pool.Rule.of_step` says that a pool does nothing else.

Whatever is kept by all rules holds for ever. The files after this one go through the rules, and not
through the functions of which the steps are made, so that a change to one of those is a change to
one rule.
-/

namespace DomainEvents.Bus

variable {H : Type}

/-- The change that an action makes to the subscriptions, if it is about them. -/
def Action.registration? [DecidableEq H] : Action H → Option (Registry H → Registry H)
  | .subscribe id handler => some (·.subscribe id handler)
  | .unsubscribe handler => some (·.unsubscribe handler)
  | .off id => some (·.off id)
  | _ => none

/-- An action about subscriptions is nothing else. -/
theorem Action.returned?_of_registration? [DecidableEq H] {action : Action H}
    {change : Registry H → Registry H} (h : action.registration? = some change) :
    action.returned? = none := by
  cases action with
  | reply => cases h
  | _ => rfl

/-- How a worker ends, if it does: whether a panic has killed it. -/
def Progress.end? : Progress H → Option Bool
  | .next _ => none
  | .finished => some false
  | .killed => some true

namespace Pool

/-! ## Refusals -/

/-- Why a pool refuses an event without asking the store. -/
inductive RefusedAtOnce (p : Pool H) (event : Event) : BusError → Prop where
  | closed (closed : p.closed = true) : RefusedAtOnce p event .shuttingDown
  | malformed {invalid : ValidationError} (opened : p.closed = false)
      (check : p.check event = .error invalid) : RefusedAtOnce p event (.validation invalid)

/-- Why a pool refuses an event when the store has given its answer. -/
inductive RefusedLate (p : Pool H) : Except StoreError Unit → BusError → Prop where
  | unsaved {source : StoreError} : RefusedLate p (.error source) (.persistence .save source)
  | late (ended : p.accepting = false) : RefusedLate p (.ok ()) .shuttingDown
  | full (accepting : p.accepting = true) (full : p.config.queueSize ≤ p.queued) :
      RefusedLate p (.ok ()) (.queueFull p.config.queueSize)

/-! ## Rules -/

/-- The steps of a pool, each with what it takes and what it does. -/
inductive Rule [DecidableEq H] (p : Pool H) : Action H → Pool H → List (Notice H) → Prop where
  /-- an event is refused at once -/
  | refuse {ctx : Context} {event : Event} {error : BusError} (held : p.held = true)
      (why : p.RefusedAtOnce event error) :
      Rule p (.publish ctx event) { p with tickets := p.tickets + 1 }
        [.refused ⟨p.tickets, ctx, event⟩ error, .answered ⟨p.tickets, ctx, event⟩ (.error error)]
  /-- the store is asked to save an event -/
  | ask {ctx : Context} {event : Event} (held : p.held = true) (opened : p.closed = false)
      (check : p.check event = .ok ()) :
      Rule p (.publish ctx event)
        { p with tickets := p.tickets + 1, saving := p.saving ++ [⟨p.tickets, ctx, event⟩] }
        [.saving ⟨p.tickets, ctx, event⟩]
  /-- an event is refused after the answer of the store -/
  | refuseLate {t : Nat} {result : Except StoreError Unit} {d : Dispatch} {error : BusError}
      (waits : p.saving.find? (·.ticket == t) = some d) (why : p.RefusedLate result error) :
      Rule p (.saved t result) (p.unsave t) [.refused d error, .answered d (.error error)]
  /-- a saved event comes into the queue -/
  | accept {t : Nat} {d : Dispatch} (waits : p.saving.find? (·.ticket == t) = some d)
      (accepting : p.accepting = true) (room : p.queued < p.config.queueSize) :
      Rule p (.saved t (.ok ())) { p.unsave t with queue := p.queue ++ [d] }
        [.accepted d, .answered d (.ok ())]
  /-- a call of publish ends without an answer -/
  | forsake {t : Nat} {d : Dispatch} (waits : p.saving.find? (·.ticket == t) = some d) :
      Rule p (.forsake t) (p.unsave t) []
  /-- the event in the hand is handed to a worker of its own -/
  | handOut {d : Dispatch} (hand : p.hand = .granted d) :
      Rule p .dispatch
        { p with hand := .empty, stage := p.stage.counted, workers := p.workers ++ [⟨d, .spawned⟩] }
        [.handed d]
  /-- the dispatcher hears that it is to stop, and the queue takes no more events -/
  | quit (hand : p.hand = .empty) (stage : p.stage = .running) (told : p.quit = true) :
      Rule p .dispatch { p with stage := .draining 0, accepting := false } []
  /-- the dispatcher looks at a worker that has ended -/
  | reap {e : Ended} {rest : List Ended} (hand : p.hand = .empty)
      (stage : p.stage = .running ∨ p.stage = .joining) (ended : p.ended = e :: rest) :
      Rule p .dispatch { p with ended := rest } [.reaped e.killed]
  /-- the dispatcher takes an event off the queue -/
  | take {d : Dispatch} {rest : List Dispatch} (hand : p.hand = .empty)
      (stage : p.stage = .running ∨ ∃ n, p.stage = .draining n) (queue : p.queue = d :: rest) :
      Rule p .dispatch (p.take d rest) []
  /-- the queue has come to its end -/
  | drain {n : Nat} (hand : p.hand = .empty) (stage : p.stage = .draining n)
      (queue : p.queue = []) :
      Rule p .dispatch { p with stage := .joining } [.drained n]
  /-- the last worker has ended and the dispatcher stops -/
  | stop (hand : p.hand = .empty) (stage : p.stage = .joining) (ended : p.ended = [])
      (workers : p.workers = []) :
      Rule p .dispatch { p with stage := .stopped } [.stopped]
  /-- a worker starts -/
  | start {t : Nat} {d : Dispatch} (worker : p.worker? t = some ⟨d, .spawned⟩) :
      Rule p (.start t)
        { p.setPhase t (Phase.turnTo p.registry.entries) with inFlight := p.inFlight + 1 }
        (.started d :: (Phase.turnNotices d.event p.registry.entries).map (.worker d))
  /-- a worker goes on -/
  | turn {t : Nat} {reply : Reply} {w : Worker H} {phase : Phase H} {told : List (WorkerNotice H)}
      (worker : p.worker? t = some w)
      (goes : w.phase.step w.dispatch.event reply = some (.next phase, told)) :
      Rule p (.reply t reply) (p.setPhase t phase) (told.map (.worker w.dispatch))
  /-- a worker comes to its end -/
  | finish {t : Nat} {reply : Reply} {w : Worker H} {progress : Progress H}
      {told : List (WorkerNotice H)} {killed : Bool} (worker : p.worker? t = some w)
      (goes : w.phase.step w.dispatch.event reply = some (progress, told))
      (ends : progress.end? = some killed) :
      Rule p (.reply t reply) (p.endWorker w.dispatch killed).1
        (told.map (.worker w.dispatch) ++ [.ended w.dispatch killed])
  /-- the bus is closed -/
  | close {timeout : Time.Span} (held : p.held = true) :
      Rule p (.close timeout)
        { p with closed := true, quit := true, tickets := p.tickets + 1,
                 closers := p.closers ++ [⟨p.tickets, timeout⟩] }
        (if p.closed then [] else [.closing p.queued p.inFlight])
  /-- a call of close sees that the dispatcher has stopped -/
  | join {t : Nat} {c : Closer} (waits : p.closers.find? (·.ticket == t) = some c)
      (sees : p.canJoin t = true) :
      Rule p (.join t) { p.removeCloser t with joinable := false }
        ((if p.joinable then [.closed] else []) ++ [.closeAnswered c (.ok ())])
  /-- the time of a call of close has run out -/
  | expire {t : Nat} {c : Closer} (waits : p.closers.find? (·.ticket == t) = some c)
      (misses : p.canJoin t = false) :
      Rule p (.expire t) (p.removeCloser t)
        [.overdue c.timeout p.queued p.inFlight,
          .closeAnswered c (.error (.timeout c.timeout))]
  /-- the caller of a close has gone away -/
  | abandon {t : Nat} {c : Closer} (waits : p.closers.find? (·.ticket == t) = some c) :
      Rule p (.abandon t) (p.removeCloser t) []
  /-- the last holder lets go of the bus -/
  | release (held : p.held = true) (saving : p.saving = []) (closers : p.closers = []) :
      Rule p .release { p with held := false, quit := true } []
  /-- a subscription is made or removed -/
  | register {action : Action H} {change : Registry H → Registry H} (held : p.held = true)
      (changes : action.registration? = some change) :
      Rule p action { p with registry := change p.registry } []

/-! ## Every step is by a rule -/

variable [DecidableEq H] {p q : Pool H} {notices : List (Notice H)}

theorem Rule.of_publish {ctx : Context} {event : Event}
    (h : p.publish ctx event = some (q, notices)) : Rule p (.publish ctx event) q notices := by
  rw [Pool.publish] at h
  split at h
  case isFalse => cases h
  case isTrue held =>
    -- the pool with the next number differs from `p` in nothing that is looked at here
    by_cases closed : p.closed = true
    · rw [if_pos closed] at h
      obtain ⟨rfl, rfl⟩ := Prod.mk.inj (Option.some.inj h)
      exact .refuse held (.closed closed)
    · have opened : p.closed = false := Bool.eq_false_iff.mpr closed
      rw [if_neg closed] at h
      rcases check : p.check event with invalid | ⟨⟩
      · simp only [Pool.check] at h check
        rw [check] at h
        obtain ⟨rfl, rfl⟩ := Prod.mk.inj (Option.some.inj h)
        exact .refuse held (.malformed opened check)
      · simp only [Pool.check] at h check
        rw [check] at h
        obtain ⟨rfl, rfl⟩ := Prod.mk.inj (Option.some.inj h)
        exact .ask held opened check

theorem Rule.of_saved {t : Nat} {result : Except StoreError Unit}
    (h : p.saved t result = some (q, notices)) : Rule p (.saved t result) q notices := by
  rw [Pool.saved] at h
  rcases waits : p.saving.find? (·.ticket == t) with _ | d
  · rw [waits] at h
    cases h
  · rw [waits] at h
    rcases result with source | ⟨⟩
    · obtain ⟨rfl, rfl⟩ := Prod.mk.inj (Option.some.inj h)
      exact .refuseLate waits .unsaved
    · have same : ((p.unsave t).enqueue d) = (q, notices) := Option.some.inj h
      rw [Pool.enqueue] at same
      split at same
      case isTrue ended =>
        obtain ⟨rfl, rfl⟩ := Prod.mk.inj same
        exact .refuseLate waits (.late (by simpa using ended))
      case isFalse accepting =>
        have accepting : p.accepting = true := by simpa using accepting
        split at same
        case isTrue full =>
          obtain ⟨rfl, rfl⟩ := Prod.mk.inj same
          exact .refuseLate waits (.full accepting full)
        case isFalse room =>
          obtain ⟨rfl, rfl⟩ := Prod.mk.inj same
          exact .accept waits accepting (Nat.lt_of_not_le room)

theorem Rule.of_dispatchNext (hand : p.hand = .empty) (h : p.dispatchNext = some (q, notices)) :
    Rule p .dispatch q notices := by
  rw [Pool.dispatchNext] at h
  split at h
  case h_1 stage =>
    split at h
    case isTrue told =>
      obtain ⟨rfl, rfl⟩ := Prod.mk.inj (Option.some.inj h)
      exact .quit hand stage told
    case isFalse =>
      split at h
      case h_1 e rest _ ended =>
        obtain ⟨rfl, rfl⟩ := Prod.mk.inj (Option.some.inj h)
        exact .reap hand (.inl stage) ended
      case h_2 d rest _ queue =>
        obtain ⟨rfl, rfl⟩ := Prod.mk.inj (Option.some.inj h)
        exact .take hand (.inl stage) queue
      case h_3 => cases h
  case h_2 n stage =>
    split at h
    case h_1 d rest queue =>
      obtain ⟨rfl, rfl⟩ := Prod.mk.inj (Option.some.inj h)
      exact .take hand (.inr ⟨n, stage⟩) queue
    case h_2 queue =>
      obtain ⟨rfl, rfl⟩ := Prod.mk.inj (Option.some.inj h)
      exact .drain hand stage queue
  case h_3 stage =>
    split at h
    case h_1 e rest ended =>
      obtain ⟨rfl, rfl⟩ := Prod.mk.inj (Option.some.inj h)
      exact .reap hand (.inr stage) ended
    case h_2 ended =>
      split at h
      case isTrue idle =>
        obtain ⟨rfl, rfl⟩ := Prod.mk.inj (Option.some.inj h)
        exact .stop hand stage ended (List.isEmpty_iff.mp idle)
      case isFalse => cases h
  case h_4 => cases h

theorem Rule.of_dispatch (h : p.dispatch = some (q, notices)) : Rule p .dispatch q notices := by
  rw [Pool.dispatch] at h
  split at h
  case h_1 => cases h
  case h_2 d hand =>
    obtain ⟨rfl, rfl⟩ := Prod.mk.inj (Option.some.inj h)
    exact .handOut hand
  case h_3 hand => exact .of_dispatchNext hand h

theorem Rule.of_start {t : Nat} (h : p.start t = some (q, notices)) :
    Rule p (.start t) q notices := by
  rw [Pool.start] at h
  split at h
  case h_1 d worker =>
    obtain ⟨rfl, rfl⟩ := Prod.mk.inj (Option.some.inj h)
    exact .start worker
  case h_2 => cases h

theorem Rule.of_reply {t : Nat} {reply : Reply} (h : p.reply t reply = some (q, notices)) :
    Rule p (.reply t reply) q notices := by
  rw [Pool.reply] at h
  rcases worker : p.worker? t with _ | w
  · rw [worker] at h
    cases h
  · rw [worker] at h
    rcases goes : w.phase.step w.dispatch.event reply with _ | ⟨progress, told⟩
    · simp [goes] at h
    · cases progress with
      | next phase =>
        obtain ⟨rfl, rfl⟩ : p.setPhase t phase = q ∧ told.map (.worker w.dispatch) = notices := by
          simpa [goes] using h
        exact .turn worker goes
      | finished =>
        obtain ⟨rfl, rfl⟩ : (p.endWorker w.dispatch false).1 = q ∧
            told.map (.worker w.dispatch) ++ [.ended w.dispatch false] = notices := by
          simpa [goes, endWorker] using h
        exact .finish worker goes rfl
      | killed =>
        obtain ⟨rfl, rfl⟩ : (p.endWorker w.dispatch true).1 = q ∧
            told.map (.worker w.dispatch) ++ [.ended w.dispatch true] = notices := by
          simpa [goes, endWorker] using h
        exact .finish worker goes rfl

theorem Rule.of_close {timeout : Time.Span} (h : p.close timeout = some (q, notices)) :
    Rule p (.close timeout) q notices := by
  rw [Pool.close] at h
  split at h
  case isTrue held =>
    obtain ⟨rfl, rfl⟩ := Prod.mk.inj (Option.some.inj h)
    exact .close held
  case isFalse => cases h

theorem Rule.of_join {t : Nat} (h : p.join t = some (q, notices)) : Rule p (.join t) q notices := by
  rw [Pool.join] at h
  rcases waits : p.closers.find? (·.ticket == t) with _ | c
  · rw [waits] at h
    cases h
  · by_cases sees : p.canJoin t = true
    · obtain ⟨rfl, rfl⟩ : { p.removeCloser t with joinable := false } = q ∧
          (if p.joinable then [.closed] else []) ++ [.closeAnswered c (.ok ())] = notices := by
        simpa [waits, sees] using h
      exact .join waits sees
    · simp [waits, sees] at h

theorem Rule.of_expire {t : Nat} (h : p.expire t = some (q, notices)) :
    Rule p (.expire t) q notices := by
  rw [Pool.expire] at h
  rcases waits : p.closers.find? (·.ticket == t) with _ | c
  · rw [waits] at h
    cases h
  · by_cases sees : p.canJoin t = true
    · simp [waits, sees] at h
    · have misses : p.canJoin t = false := Bool.eq_false_iff.mpr sees
      obtain ⟨rfl, rfl⟩ : p.removeCloser t = q ∧
          [.overdue c.timeout p.queued p.inFlight,
            .closeAnswered c (.error (.timeout c.timeout))] = notices := by
        simpa [waits, misses] using h
      exact .expire waits misses

theorem Rule.of_release (h : p.release = some (q, notices)) : Rule p .release q notices := by
  rw [Pool.release] at h
  split at h
  case isTrue free =>
    obtain ⟨⟨held, saving⟩, closers⟩ : (p.held = true ∧ p.saving = []) ∧ p.closers = [] := by
      simpa using free
    obtain ⟨rfl, rfl⟩ := Prod.mk.inj (Option.some.inj h)
    exact .release held saving closers
  case isFalse => cases h

/-- An action about subscriptions does to a pool what it does to them, as long as somebody holds the
bus. -/
theorem step_of_registration {action : Action H} {change : Registry H → Registry H}
    (changes : action.registration? = some change) :
    p.step action =
      if p.held then some ({ p with registry := change p.registry }, []) else none := by
  cases action <;> cases changes <;> rfl

theorem Rule.of_registration {action : Action H} {change : Registry H → Registry H}
    (changes : action.registration? = some change) (h : p.step action = some (q, notices)) :
    Rule p action q notices := by
  rw [step_of_registration changes] at h
  split at h
  case isTrue held =>
    obtain ⟨rfl, rfl⟩ := Prod.mk.inj (Option.some.inj h)
    exact .register held changes
  case isFalse => cases h

/-- A call is found by its number if there is one of that number. -/
theorem find?_of_any {α : Type} {f : α → Bool} {l : List α} (h : l.any f = true) :
    ∃ a, l.find? f = some a := by
  rw [← Option.isSome_iff_exists, List.find?_isSome]
  simpa using h

/-- **A pool does nothing but follow its rules.** -/
theorem Rule.of_step {action : Action H} (h : p.step action = some (q, notices)) :
    Rule p action q notices := by
  cases action with
  | publish ctx event => exact .of_publish h
  | saved t result => exact .of_saved h
  | forsake t =>
    rw [Pool.step] at h
    split at h
    case isTrue waits =>
      obtain ⟨d, found⟩ := find?_of_any waits
      obtain ⟨rfl, rfl⟩ := Prod.mk.inj (Option.some.inj h)
      exact .forsake found
    case isFalse => cases h
  | dispatch => exact .of_dispatch h
  | start t => exact .of_start h
  | reply t reply => exact .of_reply h
  | close timeout => exact .of_close h
  | join t => exact .of_join h
  | expire t => exact .of_expire h
  | abandon t =>
    rw [Pool.step] at h
    split at h
    case isTrue waits =>
      obtain ⟨c, found⟩ := find?_of_any waits
      obtain ⟨rfl, rfl⟩ := Prod.mk.inj (Option.some.inj h)
      exact .abandon found
    case isFalse => cases h
  | release => exact .of_release h
  | subscribe id handler => exact .of_registration rfl h
  | unsubscribe handler => exact .of_registration rfl h
  | off id => exact .of_registration rfl h

end Pool

end DomainEvents.Bus
