import DomainEvents.Proofs.Bus.Closing

/-!
# The line of those who close

Calls of close wait in a line. The first one has the lock of the place where the handle of the
dispatcher is kept, the others wait for the lock. A handle gives the result of the dispatcher once
and must not be asked again; whoever has got the result leaves the place empty, and whoever comes
after that has nothing to wait for.

A call looks when it comes in, when something wakes it, and once more when its time has run out.
`Pool.look` says what it finds then, so that a handle that is never asked again is one that no call
in any later state can find. A call that leaves the line before it has its answer takes nothing but
itself out of the pool: `Line` and `Gone` say what the numbers of the calls have to do with that,
and `KeptWaiting` compares what happens after it with what would have happened with the call still
in the line.
-/

namespace DomainEvents.Bus

variable {H : Type}

/-! ## Looks -/

/-- What a call of close finds when it looks. -/
inductive Look where
  /-- another call has the lock -/
  | locked
  /-- it has the lock, asks the handle, and the dispatcher has not stopped -/
  | pending
  /-- it has the lock, asks the handle, and gets the result of the dispatcher -/
  | result
  /-- it has the lock, and the place of the handle is empty -/
  | empty
deriving DecidableEq

/-- Whether the handle is asked in such a look. -/
def Look.asks : Look → Bool
  | .pending | .result => true
  | .locked | .empty => false

/-- Whether a call has its answer after such a look. -/
def Look.ends : Look → Bool
  | .result | .empty => true
  | .locked | .pending => false

namespace Pool

/-- What the call of close of a number finds when it looks. -/
def look (p : Pool H) (t : Nat) : Look :=
  if p.closers.head?.any (·.ticket == t) then
    if p.joinable then if p.stage = .stopped then .result else .pending
    else .empty
  else .locked

variable {p q r s : Pool H} {h k : History H} {t : Nat} {c : Closer}

theorem canJoin_eq (p : Pool H) (t : Nat) : p.canJoin t = (p.look t).ends := by
  rw [canJoin, look]
  cases p.closers.head?.any (·.ticket == t) <;> cases p.joinable <;>
    by_cases stopped : p.stage = .stopped <;> simp [stopped, Look.ends]

/-- Who gets the result finds the handle, and the dispatcher has stopped. -/
theorem joinable_of_result (look : p.look t = .result) :
    p.joinable = true ∧ p.stage = .stopped := by
  rw [Pool.look] at look
  grind

/-- Who finds the place empty comes after the result was taken. -/
theorem joinable_of_empty (look : p.look t = .empty) : p.joinable = false := by
  rw [Pool.look] at look
  grind

/-- When the result was taken nobody asks the handle. -/
theorem asks_look (taken : p.joinable = false) (t : Nat) : (p.look t).asks = false := by
  rw [look, taken]
  cases p.closers.head?.any (·.ticket == t) <;> rfl

end Pool

/-! ## Calls and their numbers -/

/-- Whether a call of publish or of close comes in. Such calls have numbers. -/
def Action.isCall : Action H → Bool
  | .publish _ _ | .close _ => true
  | _ => false

theorem Action.isCall_of_registration? [DecidableEq H] {action : Action H}
    {change : Registry H → Registry H} (h : action.registration? = some change) :
    action.isCall = false := by
  cases action with
  | publish => cases h
  | close => cases h
  | _ => rfl

/-- Whether an action is about the line of those who close, or takes it to be empty. -/
def Action.isClosing : Action H → Bool
  | .close _ | .join _ | .expire _ | .abandon _ | .release => true
  | _ => false

theorem Action.isClosing_of_registration? [DecidableEq H] {action : Action H}
    {change : Registry H → Registry H} (h : action.registration? = some change) :
    action.isClosing = false := by
  cases action with
  | subscribe => rfl
  | unsubscribe => rfl
  | off => rfl
  | _ => cases h

/-- Whether the result of the dispatcher was taken from its handle. -/
def Notice.isClosed : Notice H → Bool
  | .closed => true
  | _ => false

namespace History

/-- How many calls have come in. -/
def calls (h : History H) : Nat := h.countP (·.action.isCall)

/-- How often the result of the dispatcher was taken from its handle. -/
def closings (h : History H) : Nat := h.notices.countP (·.isClosed)

theorem calls_snoc (h : History H) (e : Entry H) :
    (h ++ [e] : History H).calls = h.calls + if e.action.isCall then 1 else 0 := by
  rw [calls, List.countP_append, List.countP_singleton]
  rfl

theorem closings_snoc (h : History H) (e : Entry H) :
    (h ++ [e] : History H).closings = h.closings + e.notices.countP (·.isClosed) := by
  rw [closings, notices_append, List.countP_append, notices_cons, notices_nil, List.append_nil]
  rfl

end History

/-- A call of close has come in: it is the one of its number, and came with its own time. -/
def Began (h : History H) (c : Closer) : Prop :=
  ∃ (before after : History H) (notices : List (Notice H)),
    h = before ++ ⟨.close c.timeout, notices⟩ :: after ∧ before.calls = c.ticket

theorem Began.append {h : History H} {c : Closer} (began : Began h c) (k : History H) :
    Began (h ++ k) c := by
  obtain ⟨before, after, notices, rfl, number⟩ := began
  exact ⟨before, after ++ k, notices, by simp, number⟩

namespace Pool

variable {p q r s : Pool H} {h k : History H} {action : Action H} {notices : List (Notice H)}
  {t : Nat} {c : Closer}

/-! ## The line -/

/-- What is true of the calls of close that wait, as the history of a pool tells it. -/
structure Line (h : History H) (p : Pool H) : Prop where
  /-- calls have the numbers in which they come -/
  numbered : p.tickets = h.calls
  /-- whoever is further ahead in the line came earlier -/
  ordered : (p.closers.map (·.ticket)).Pairwise (· < ·)
  /-- the numbers of calls to come are new -/
  fresh : ∀ c ∈ p.closers, c.ticket < p.tickets
  /-- whoever is in the line has come in -/
  began : ∀ c ∈ p.closers, Began h c
  /-- the result was taken once if the place of the handle is empty, and not before -/
  taken : h.closings = if p.joinable then 0 else 1

theorem ticket_of_closer {l : List Closer} (found : l.find? (·.ticket == t) = some c) :
    c.ticket = t := by
  simpa using List.find?_some found

variable [DecidableEq H]

theorem Rule.tickets_eq (rule : Rule p action q notices) :
    q.tickets = p.tickets + if action.isCall then 1 else 0 := by
  cases rule with
  | register _ changes =>
    rw [Action.isCall_of_registration? changes]
    rfl
  | _ => rfl

/-- A call comes to the end of the line, or some leave it, or it stays as it is. -/
theorem Rule.line_cases (rule : Rule p action q notices) :
    q.closers.Sublist p.closers ∨
      ∃ timeout, action = .close timeout ∧ q.closers = p.closers ++ [⟨p.tickets, timeout⟩] := by
  cases rule with
  | close => exact .inr ⟨_, rfl, rfl⟩
  | join => exact .inl List.eraseP_sublist
  | expire => exact .inl List.eraseP_sublist
  | abandon => exact .inl List.eraseP_sublist
  | _ => exact .inl (List.Sublist.refl _)

/-- The result is taken from the handle in a step after which the place is empty. -/
theorem Rule.taken_cases (rule : Rule p action q notices) :
    notices.countP (·.isClosed) = 0 ∧ q.joinable = p.joinable ∨
      notices.countP (·.isClosed) = 1 ∧ p.joinable = true ∧ q.joinable = false := by
  cases rule with
  | join =>
    cases joinable : p.joinable with
    | true => exact .inr ⟨by simp [Notice.isClosed], rfl, rfl⟩
    | false => exact .inl ⟨by simp [Notice.isClosed], rfl⟩
  | close => cases p.closed <;> exact .inl ⟨by simp [Notice.isClosed], rfl⟩
  | start => exact .inl ⟨by simp [List.countP_map, Notice.isClosed], rfl⟩
  | turn => exact .inl ⟨by simp [List.countP_map, Notice.isClosed], rfl⟩
  | finish =>
    exact .inl ⟨by simp [List.countP_append, List.countP_map, Notice.isClosed], rfl⟩
  | _ => exact .inl ⟨by simp [Notice.isClosed], rfl⟩

namespace Line

omit [DecidableEq H] in
theorem start (config : PoolConfig) : Line [] (.new config : Pool H) where
  numbered := rfl
  ordered := List.Pairwise.nil
  fresh := by simp [new]
  began := by simp [new]
  taken := rfl

omit [DecidableEq H] in
/-- No two calls in the line have the same number. -/
theorem distinct (line : Line h p) : (p.closers.map (·.ticket)).Nodup :=
  line.ordered.imp Nat.ne_of_lt

/-- **Every rule keeps the line.** -/
theorem of_rule (line : Line h p) (rule : Rule p action q notices) :
    Line (h ++ [⟨action, notices⟩]) q where
  numbered := by rw [rule.tickets_eq, line.numbered, History.calls_snoc]
  ordered := by
    rcases rule.line_cases with fewer | ⟨timeout, rfl, more⟩
    · exact line.ordered.sublist (fewer.map _)
    · rw [more, List.map_append]
      refine List.pairwise_append.mpr ⟨line.ordered, List.pairwise_singleton .., ?_⟩
      intro t ht u hu
      obtain ⟨c, hc, rfl⟩ := List.mem_map.mp ht
      obtain rfl := List.mem_singleton.mp hu
      exact line.fresh c hc
  fresh := by
    intro c hc
    have tickets := rule.tickets_eq
    rcases rule.line_cases with fewer | ⟨timeout, rfl, more⟩
    · have := line.fresh c (fewer.subset hc)
      omega
    · rw [more] at hc
      rcases List.mem_append.mp hc with hc | hc
      · have := line.fresh c hc
        omega
      · obtain rfl := List.mem_singleton.mp hc
        rw [tickets]
        exact Nat.lt_succ_self _
  began := by
    intro c hc
    rcases rule.line_cases with fewer | ⟨timeout, rfl, more⟩
    · exact (line.began c (fewer.subset hc)).append _
    · rw [more] at hc
      rcases List.mem_append.mp hc with hc | hc
      · exact (line.began c hc).append _
      · obtain rfl := List.mem_singleton.mp hc
        exact ⟨h, [], notices, rfl, line.numbered.symm⟩
  taken := by
    rw [History.closings_snoc, line.taken]
    rcases rule.taken_cases with ⟨none, same⟩ | ⟨one, before, after⟩
    · rw [none, same, Nat.add_zero]
    · rw [one, before, after]
      rfl

theorem of_run {config : PoolConfig} (run : Run Pool.tick (.new config) h p) : Line h p :=
  run_induction (P := Line) (.start config) (fun line rule => line.of_rule rule) run

end Line

/-! ## Answers -/

/-- How a call of close gets its answer, as the pool `p` tells it in the step in which it does. -/
inductive CloseAnswer (p : Pool H) (c : Closer) : Entry H → Except BusError Unit → Prop where
  /-- it takes the result of the dispatcher -/
  | joined (look : p.look c.ticket = .result) :
      CloseAnswer p c ⟨.join c.ticket, [.closed, .closeAnswered c (.ok ())]⟩ (.ok ())
  /-- it finds that the result was taken -/
  | found (look : p.look c.ticket = .empty) :
      CloseAnswer p c ⟨.join c.ticket, [.closeAnswered c (.ok ())]⟩ (.ok ())
  /-- its time has run out -/
  | overdue (look : p.look c.ticket = .locked ∨ p.look c.ticket = .pending) :
      CloseAnswer p c ⟨.expire c.ticket, [.overdue c.timeout p.queued p.inFlight,
        .closeAnswered c (.error (.timeout c.timeout))]⟩ (.error (.timeout c.timeout))

/-- A call has its answer in one of these ways, and it was in the line. -/
theorem Rule.closeAnswer (rule : Rule p action q notices) {result : Except BusError Unit}
    (answered : .closeAnswered c result ∈ notices) :
    c ∈ p.closers ∧ CloseAnswer p c ⟨action, notices⟩ result := by
  cases rule with
  | @join t d waits sees =>
    obtain ⟨rfl, rfl⟩ : c = d ∧ result = .ok () := by
      cases joinable : p.joinable <;> simpa [joinable] using answered
    obtain rfl : c.ticket = t := ticket_of_closer waits
    refine ⟨List.mem_of_find?_eq_some waits, ?_⟩
    rw [canJoin_eq] at sees
    cases look : p.look c.ticket with
    | result =>
      rw [(joinable_of_result look).1]
      exact .joined look
    | empty =>
      rw [joinable_of_empty look]
      exact .found look
    | _ => simp [look, Look.ends] at sees
  | @expire t d waits misses =>
    obtain ⟨rfl, rfl⟩ : c = d ∧ result = .error (.timeout d.timeout) := by simpa using answered
    obtain rfl : c.ticket = t := ticket_of_closer waits
    refine ⟨List.mem_of_find?_eq_some waits, .overdue ?_⟩
    rw [canJoin_eq] at misses
    cases look : p.look c.ticket with
    | locked => exact .inl rfl
    | pending => exact .inr rfl
    | _ => simp [look, Look.ends] at misses
  | close => cases p.closed <;> simp at answered
  | _ => simp at answered

/-! ## The line and the rest of the pool -/

/-- The pool with another line. -/
def lineUp (p : Pool H) (line : List Closer) : Pool H := { p with closers := line }

/-- The outcome of a step with another line. -/
abbrev relined (line : List Closer) (after : Pool H × List (Notice H)) :
    Pool H × List (Notice H) := (after.1.lineUp line, after.2)

section

omit [DecidableEq H]

theorem publish_lineUp (p : Pool H) (line : List Closer) (ctx : Context) (event : Event) :
    (p.lineUp line).publish ctx event = (p.publish ctx event).map (relined line) := by
  show (if p.held then _ else _) = Option.map _ (if p.held then _ else _)
  split
  case isFalse => rfl
  case isTrue =>
    show (if p.closed then _ else _) = Option.map _ (if p.closed then _ else _)
    split
    case isTrue => rfl
    case isFalse =>
      have here : ({ p.lineUp line with tickets := (p.lineUp line).tickets + 1 }).check event =
        p.check event := rfl
      have there : ({ p with tickets := p.tickets + 1 }).check event = p.check event := rfl
      rw [here, there]
      rcases p.check event with _ | ⟨⟨⟩⟩ <;> rfl

theorem enqueue_lineUp (p : Pool H) (line : List Closer) (d : Dispatch) :
    (p.lineUp line).enqueue d = relined line (p.enqueue d) := by
  show (if !p.accepting then _ else _) = _
  rw [enqueue]
  split
  case isTrue => rfl
  case isFalse =>
    show (if p.config.queueSize ≤ p.queue.length then _ else _) = _
    split <;> rfl

theorem saved_lineUp (p : Pool H) (line : List Closer) (t : Nat)
    (result : Except StoreError Unit) :
    (p.lineUp line).saved t result = (p.saved t result).map (relined line) := by
  have same : (p.lineUp line).saving = p.saving := rfl
  rw [saved, saved, same]
  cases p.saving.find? (·.ticket == t) with
  | none => rfl
  | some d =>
    cases result with
    | error source => rfl
    | ok _ => exact congrArg some (enqueue_lineUp (p.unsave t) line d)

theorem dispatch_lineUp (p : Pool H) (line : List Closer) :
    (p.lineUp line).dispatch = p.dispatch.map (relined line) := by
  -- the dispatcher looks at these fields, and at none that tells of the line
  obtain ⟨_, _, _, _, quit, _, queue, stage, hand, _, workers, ended⟩ := p
  cases hand with
  | waiting => rfl
  | granted => rfl
  | empty =>
    cases stage with
    | running => cases quit <;> cases ended <;> cases queue <;> rfl
    | draining => cases queue <;> rfl
    | joining => cases ended <;> cases workers <;> rfl
    | stopped => rfl

theorem start_lineUp (p : Pool H) (line : List Closer) (t : Nat) :
    (p.lineUp line).start t = (p.start t).map (relined line) := by
  have same : (p.lineUp line).worker? t = p.worker? t := rfl
  rw [start, start, same]
  rcases p.worker? t with _ | ⟨d, phase⟩
  · rfl
  · cases phase <;> rfl

theorem reply_lineUp (p : Pool H) (line : List Closer) (t : Nat) (answer : Reply) :
    (p.lineUp line).reply t answer = (p.reply t answer).map (relined line) := by
  have same : (p.lineUp line).worker? t = p.worker? t := rfl
  rw [reply, reply, same]
  cases p.worker? t with
  | none => rfl
  | some w =>
    simp only
    rcases w.phase.step w.dispatch.event answer with _ | ⟨progress, told⟩
    · rfl
    · cases progress <;> rfl

end

theorem registration_lineUp (p : Pool H) (line : List Closer) {change : Registry H → Registry H}
    (changes : action.registration? = some change) :
    (p.lineUp line).step action = (p.step action).map (relined line) := by
  rw [step_of_registration changes, step_of_registration changes]
  show (if p.held then _ else _) = _
  split <;> rfl

/-- **The rest of a pool does not depend on the line.** -/
theorem step_lineUp (p : Pool H) (line : List Closer) (other : action.isClosing = false) :
    (p.lineUp line).step action = (p.step action).map (relined line) := by
  cases action with
  | publish ctx event => exact publish_lineUp p line ctx event
  | saved t result => exact saved_lineUp p line t result
  | forsake t =>
    show (if p.saving.any (·.ticket == t) then _ else _) =
      Option.map _ (if p.saving.any (·.ticket == t) then _ else _)
    split <;> rfl
  | dispatch => exact dispatch_lineUp p line
  | start t => exact start_lineUp p line t
  | reply t answer => exact reply_lineUp p line t answer
  | subscribe => exact registration_lineUp p line rfl
  | unsubscribe => exact registration_lineUp p line rfl
  | off => exact registration_lineUp p line rfl
  | _ => cases other

/-! ## Steps of the line -/

theorem step_close (held : p.held = true) (timeout : Time.Span) :
    p.step (.close timeout) =
      some ({ p with
        closed := true, quit := true, tickets := p.tickets + 1
        closers := p.closers ++ [⟨p.tickets, timeout⟩] },
        if p.closed then [] else [.closing p.queued p.inFlight]) := if_pos held

theorem step_join (waits : p.closers.find? (·.ticket == t) = some c)
    (sees : p.canJoin t = true) :
    p.step (.join t) = some ({ p.removeCloser t with joinable := false },
      (if p.joinable then [.closed] else []) ++ [.closeAnswered c (.ok ())]) := by
  show p.join t = _
  rw [join, waits]
  exact if_pos sees

theorem step_expire (waits : p.closers.find? (·.ticket == t) = some c) :
    p.step (.expire t) =
      if p.canJoin t then none
      else some (p.removeCloser t, [.overdue c.timeout p.queued p.inFlight,
        .closeAnswered c (.error (.timeout c.timeout))]) := by
  show p.expire t = _
  rw [expire, waits]

theorem step_abandon (waits : p.closers.find? (·.ticket == t) = some c) :
    p.step (.abandon t) = some (p.removeCloser t, []) :=
  if_pos (List.any_eq_true.mpr ⟨c, List.mem_of_find?_eq_some waits, List.find?_some waits⟩)

/-! ## Leaving the line -/

/-- An old call of close that is not in the line, and so will not be there again. -/
def Gone (t : Nat) (p : Pool H) : Prop := t < p.tickets ∧ ∀ c ∈ p.closers, c.ticket ≠ t

theorem Gone.of_rule (gone : Gone t p) (rule : Rule p action q notices) : Gone t q := by
  obtain ⟨old, gone⟩ := gone
  have tickets := rule.tickets_le
  refine ⟨by omega, ?_⟩
  intro c hc
  rcases rule.line_cases with fewer | ⟨timeout, rfl, more⟩
  · exact gone c (fewer.subset hc)
  · rw [more] at hc
    rcases List.mem_append.mp hc with hc | hc
    · exact gone c hc
    · obtain rfl := List.mem_singleton.mp hc
      exact (Nat.ne_of_lt old).symm

section

omit [DecidableEq H]

/-- Two pools that only differ in that the call `c` is in the line of the second. -/
def Beside (c : Closer) (p q : Pool H) : Prop :=
  ∃ ahead behind, p.closers = ahead ++ behind ∧ q = p.lineUp (ahead ++ c :: behind)

/-- Another call is found in both lines. -/
theorem Beside.find? (beside : Beside c p q) (other : c.ticket ≠ t) :
    q.closers.find? (·.ticket == t) = p.closers.find? (·.ticket == t) := by
  obtain ⟨ahead, behind, split, rfl⟩ := beside
  have away : ¬(c.ticket == t) = true := by simpa using other
  have passed : (c :: behind).find? (·.ticket == t) = behind.find? (·.ticket == t) :=
    List.find?_cons_of_neg away
  show (ahead ++ c :: behind).find? (·.ticket == t) = _
  rw [split, List.find?_append, List.find?_append, passed]

/-- When another call leaves, `c` stays. -/
theorem Beside.removeCloser (beside : Beside c p q) (other : c.ticket ≠ t) :
    Beside c (p.removeCloser t) (q.removeCloser t) := by
  obtain ⟨ahead, behind, split, rfl⟩ := beside
  have away : ¬(c.ticket == t) = true := by simpa using other
  have left : (p.removeCloser t).closers = (ahead ++ behind).eraseP (·.ticket == t) :=
    congrArg _ split
  have stays : (c :: behind).eraseP (·.ticket == t) = c :: behind.eraseP (·.ticket == t) :=
    List.eraseP_cons_of_neg away
  rw [List.eraseP_append] at left
  show Beside c _ (p.lineUp ((ahead ++ c :: behind).eraseP (·.ticket == t)))
  rw [List.eraseP_append, stays]
  split at left
  case isTrue first =>
    rw [if_pos first]
    exact ⟨_, _, left, rfl⟩
  case isFalse later =>
    rw [if_neg later]
    exact ⟨_, _, left, rfl⟩

/-- Another call gets to the handle with `c` in the line as without it, unless `c` is the first. -/
theorem Beside.canJoin (beside : Beside c p q) (other : c.ticket ≠ t) :
    q = p.lineUp (c :: p.closers) ∧ q.canJoin t = false ∨ q.canJoin t = p.canJoin t := by
  obtain ⟨ahead, behind, split, rfl⟩ := beside
  cases ahead with
  | nil =>
    refine .inl ⟨by rw [split]; rfl, ?_⟩
    rw [Pool.canJoin]
    simp [lineUp, other]
  | cons first ahead =>
    right
    rw [Pool.canJoin, Pool.canJoin, split]
    rfl

theorem Beside.lineUp (beside : Beside c p q) (other : s.closers = p.closers) :
    ∃ line, q = p.lineUp line ∧ Beside c s (s.lineUp line) := by
  obtain ⟨ahead, behind, split, rfl⟩ := beside
  exact ⟨_, rfl, ahead, behind, other.trans split, rfl⟩

/-- Who has left the line has another number than those who are in it. -/
theorem Gone.ne (gone : Gone c.ticket r) {d : Closer}
    (waits : r.closers.find? (·.ticket == t) = some d) : c.ticket ≠ t := by
  rintro rfl
  exact gone.2 d (List.mem_of_find?_eq_some waits) (ticket_of_closer waits)

end

/-- A step that is not about the line leaves it as it is. -/
theorem closers_of_step (other : action.isClosing = false)
    (step : p.step action = some (q, notices)) : q.closers = p.closers := by
  -- a pool that does not depend on the line has no way to change it
  have same : (p.lineUp p.closers).step action = some (q, notices) := step
  rw [step_lineUp p _ other, step] at same
  exact congrArg (·.1.closers) (Option.some.inj same).symm

/-- A step does the same with another call in the line, unless that call has its answer first. -/
theorem Beside.step {told : List (Notice H)} (beside : Beside c p q) (gone : Gone c.ticket p)
    (kept : action ≠ .release) (step : p.step action = some (s, told)) :
    (∃ s', q.step action = some (s', told) ∧ Beside c s s') ∨
    ∃ t first more m, action = .join t ∧ told = first ++ more ∧
      q.step (.join c.ticket) = some (m, first ++ [.closeAnswered c (.ok ())]) ∧
      m.step (.join t) = some (s, more) := by
  cases closing : action.isClosing with
  | false =>
    obtain ⟨line, rfl, after⟩ := beside.lineUp (closers_of_step closing step)
    refine .inl ⟨_, ?_, after⟩
    rw [step_lineUp p line closing, step]
    rfl
  | true =>
    have whole := beside
    obtain ⟨ahead, behind, split, rfl⟩ := beside
    cases Rule.of_step step with
    | @close timeout held =>
      refine .inl ⟨_, step_close (p := p.lineUp (ahead ++ c :: behind)) held timeout,
        ahead, behind ++ [⟨p.tickets, timeout⟩], ?_, ?_⟩
      · show p.closers ++ _ = _
        rw [split, List.append_assoc]
      · simp [Pool.lineUp]
    | @join t d waits sees =>
      have other := gone.ne waits
      rcases whole.canJoin other with ⟨first, -⟩ | same
      · -- `c` is the first in the line, and looks before the call that is the first without it
        rw [first]
        have line : (c :: p.closers).find? (·.ticket == c.ticket) = some c := by simp
        have looks : (p.lineUp (c :: p.closers)).canJoin c.ticket = true := by
          rw [Pool.canJoin] at sees ⊢
          simp only [Bool.and_eq_true] at sees ⊢
          exact ⟨by simp [Pool.lineUp], sees.2⟩
        have left : (p.lineUp (c :: p.closers)).removeCloser c.ticket = p := by
          simp [Pool.lineUp]
        have answer := step_join line looks
        rw [left] at answer
        refine .inr ⟨t, _, _, _, rfl, rfl, answer, ?_⟩
        have second : ({ p with joinable := false } : Pool H).canJoin t = true := by
          rw [Pool.canJoin] at sees ⊢
          simp only [Bool.and_eq_true] at sees ⊢
          exact ⟨sees.1, rfl⟩
        exact step_join (p := { p with joinable := false }) waits second
      · obtain ⟨front, back, left, more⟩ := whole.removeCloser other
        refine .inl ⟨_, step_join ((whole.find? other).trans waits) (same.trans sees),
          front, back, left, ?_⟩
        rw [more]
        rfl
    | @expire t d waits misses =>
      have other := gone.ne waits
      have still : (p.lineUp (ahead ++ c :: behind)).canJoin t = false := by
        rcases whole.canJoin other with ⟨-, misses⟩ | same
        · exact misses
        · exact same.trans misses
      refine .inl ⟨_, ?_, whole.removeCloser other⟩
      rw [step_expire ((whole.find? other).trans waits), still]
      rfl
    | @abandon t d waits =>
      have other := gone.ne waits
      exact .inl ⟨_, step_abandon ((whole.find? other).trans waits), whole.removeCloser other⟩
    | release => exact absurd rfl kept
    | register _ changes =>
      rw [Action.isClosing_of_registration? changes] at closing
      cases closing
    | _ => cases closing

/-- What would have happened with the call `c` still in the line, where `k` has happened without it
and has led to the pool `r`. -/
inductive KeptWaiting (c : Closer) (k : History H) (r : Pool H) : History H → Pool H → Prop where
  /-- the same, and the call is still in the line -/
  | waiting {r' : Pool H} (beside : Beside c r r') : KeptWaiting c k r k r'
  /-- the call was the first in the line when another one got its answer, and had its own just
  before; there is no difference any more -/
  | answered {before after : History H} {t : Nat} {told more : List (Notice H)}
      (split : k = before ++ ⟨.join t, told ++ more⟩ :: after) :
      KeptWaiting c k r (before ++ ⟨.join c.ticket, told ++ [.closeAnswered c (.ok ())]⟩ ::
        ⟨.join t, more⟩ :: after) r

/-- **Whatever happens without a call would have happened with it in the line,** as long as nobody
lets go of the bus. -/
theorem KeptWaiting.of_run (beside : Beside c q p) (gone : Gone c.ticket q)
    (run : Run Pool.tick q k r) (kept : .release ∉ k.map (·.action)) :
    ∃ k' r', Run Pool.tick p k' r' ∧ KeptWaiting c k r k' r' := by
  let P (k : History H) (r : Pool H) : Prop :=
    Gone c.ticket r ∧ (.release ∉ k.map (·.action) →
      ∃ k' r', Run Pool.tick p k' r' ∧ KeptWaiting c k r k' r')
  refine (run.invariant (P := P) ?_ ?_).2 kept
  · exact ⟨gone, fun _ => ⟨[], p, .refl, .waiting beside⟩⟩
  · rintro k r action s told ⟨gone, before⟩ ticks
    obtain ⟨notices, step, rfl⟩ := tick_eq_some.mp ticks
    refine ⟨gone.of_rule (.of_step step), ?_⟩
    intro kept
    obtain ⟨kept, now⟩ : .release ∉ k.map (·.action) ∧ action ≠ .release := by
      simpa [not_or, eq_comm] using kept
    obtain ⟨k', r', other, same⟩ := before kept
    cases same with
    | waiting beside =>
      rcases beside.step gone now step with
        ⟨s', step, after⟩ | ⟨t, first, more, m, rfl, rfl, mine, theirs⟩
      · exact ⟨_, _, other.trans (run_step step), .waiting after⟩
      · refine ⟨_, _, (other.trans (run_step mine)).trans (run_step theirs), ?_⟩
        rw [List.append_assoc]
        exact .answered rfl
    | answered split =>
      refine ⟨_, _, other.trans (run_step step), ?_⟩
      rw [List.append_assoc]
      exact .answered (by rw [split, List.append_assoc]; rfl)

omit [DecidableEq H] in
/-- A call that leaves the line takes nothing else with it, and does not come back. -/
theorem Line.left (line : Line h p) (waits : p.closers.find? (·.ticket == t) = some c) :
    Beside c (p.removeCloser t) p ∧ Gone t (p.removeCloser t) := by
  obtain ⟨ahead, behind, split, erased⟩ := split_of_find? waits
  have ticket := ticket_of_closer waits
  refine ⟨⟨ahead, behind, erased, ?_⟩, ?_, ?_⟩
  · rw [← split]
    rfl
  · rw [← ticket]
    exact line.fresh c (List.mem_of_find?_eq_some waits)
  · intro d hd same
    have distinct := line.distinct
    rw [split] at distinct
    obtain ⟨other, -⟩ := List.nodup_cons.mp (List.nodup_middle.mp (by simpa using distinct))
    replace hd : d ∈ ahead ++ behind := erased ▸ hd
    refine other ?_
    rw [← List.map_append, ticket, ← same]
    exact List.mem_map_of_mem hd

/-- A call whose time has run out, or whose caller has gone away, leaves the line. -/
theorem Line.left_of_step (line : Line h p) (mem : c ∈ p.closers)
    (leaves : action = .expire c.ticket ∨ action = .abandon c.ticket)
    (step : p.step action = some (q, notices)) : Beside c q p ∧ Gone c.ticket q := by
  have same {d : Closer} (waits : p.closers.find? (·.ticket == c.ticket) = some d) : d = c :=
    List.inj_on_of_nodup_map line.distinct (List.mem_of_find?_eq_some waits) mem
      (ticket_of_closer waits)
  obtain rfl | rfl := leaves
  · cases Rule.of_step step with
    | expire waits =>
      obtain rfl := same waits
      exact line.left waits
    | register _ changes => cases changes
  · cases Rule.of_step step with
    | abandon waits =>
      obtain rfl := same waits
      exact line.left waits
    | register _ changes => cases changes

/-- When the dispatcher has stopped, the first in the line gets its answer and is never late. -/
theorem step_first {l : List Closer} (line : p.closers = c :: l) (stopped : p.stage = .stopped) :
    p.step (.expire c.ticket) = none ∧
      p.step (.join c.ticket) = some ({ p with closers := l, joinable := false },
        (if p.joinable then [.closed] else []) ++ [.closeAnswered c (.ok ())]) := by
  have waits : p.closers.find? (·.ticket == c.ticket) = some c := by simp [line]
  have sees : p.canJoin c.ticket = true := by simp [canJoin, line, stopped]
  refine ⟨?_, ?_⟩
  · rw [step_expire waits, if_pos sees]
  · rw [step_join waits sees, removeCloser, line]
    simp

variable {config : PoolConfig}

/-- **Calls of close do no harm.** After every run of a bus, with any number of calls of close, each
with its own time or left by its caller, and in any order: once the result of the dispatcher was
taken from its handle, no call asks the handle again, and the result was not taken more than once;
a call that has its answer came in with its own number and time, and took the result, or found that
it was taken, or its own time has run out and it had nothing to look at. A call whose time runs out,
or whose caller goes away, takes only itself out of the pool: whatever happens after that would have
happened with the call still in the line. So as long as somebody holds the bus there can be another
call of close, and when the dispatcher has stopped the first in the line has its answer. -/
theorem closes_do_no_harm {log : List (Deed H)} {b : Broker H}
    (run : Run Broker.step (Broker.new config) log b) :
    ((.closed ∈ (history log).notices → ∀ t, (b.pool.look t).asks = false) ∧
        (history log).closings ≤ 1) ∧
      (∀ before e after, history log = before ++ e :: after →
        ∀ c result, .closeAnswered c result ∈ e.notices →
          ∃ m, Run Pool.tick (.new config) before m ∧ Began before c ∧ CloseAnswer m c e result) ∧
      ∀ c ∈ b.pool.closers, ∀ action, action = .expire c.ticket ∨ action = .abandon c.ticket →
        ∀ q notices, b.pool.step action = some (q, notices) →
          Beside c q b.pool ∧ ∀ k r, Run Pool.tick q k r →
            (.release ∉ k.map (·.action) →
              ∃ k' r', Run Pool.tick b.pool k' r' ∧ KeptWaiting c k r k' r') ∧
            (r.held = true → ∀ timeout, ∃ s told, r.step (.close timeout) = some (s, told) ∧
              s.closers = r.closers ++ [⟨r.tickets, timeout⟩]) ∧
            (r.stage = .stopped → ∀ d rest, r.closers = d :: rest →
              r.step (.expire d.ticket) = none ∧
              r.step (.join d.ticket) = some ({ r with closers := rest, joinable := false },
                (if r.joinable then [.closed] else []) ++ [.closeAnswered d (.ok ())])) := by
  have run := Broker.run_pool run
  have line : Line (history log) b.pool := .of_run run
  have taken := line.taken
  refine ⟨⟨?_, ?_⟩, ?_, ?_⟩
  · intro closed
    have told : 0 < (history log).closings := List.countP_pos_iff.mpr ⟨_, closed, rfl⟩
    refine asks_look (Bool.eq_false_iff.mpr fun joinable => ?_)
    rw [taken, joinable] at told
    cases told
  · rw [taken]
    split <;> decide
  · intro before e after cut c result answered
    rw [cut] at run
    obtain ⟨m, q, ran, step, -⟩ := run_cut run
    obtain ⟨mem, answer⟩ := (Rule.of_step step).closeAnswer answered
    exact ⟨m, ran, (Line.of_run ran).began c mem, answer⟩
  · intro c mem action leaves q notices step
    obtain ⟨beside, gone⟩ := line.left_of_step mem leaves step
    refine ⟨beside, ?_⟩
    intro k r later
    refine ⟨KeptWaiting.of_run beside gone later, ?_, ?_⟩
    · intro held timeout
      exact ⟨_, _, step_close held timeout, rfl⟩
    · intro stopped d rest first
      exact step_first first stopped

/-- Of four calls of close one is late, one is left by its caller, one takes the result of the
dispatcher, and one comes after that. -/
def crowdedClose : List (BrokerAction Unit) :=
  [.pool (.close ⟨5, 0⟩), .pool .dispatch, .pool (.close ⟨1, 0⟩), .pool (.expire 1),
    .pool (.abandon 0), .pool (.close ⟨7, 0⟩), .pool .dispatch, .pool .dispatch, .pool (.join 2),
    .pool (.close ⟨9, 0⟩)]

theorem closes_do_no_harm_crowded :
    ∃ (log : List (Deed Unit)) (b : Broker Unit) (q : Pool Unit),
      Run Broker.step (Broker.new ⟨2, 1, false⟩) log b ∧
      .closed ∈ (history log).notices ∧ (b.pool.look 3).asks = false ∧
      (history log).closings ≤ 1 ∧
      (∃ (m : Pool Unit) (e : Entry Unit), CloseAnswer m ⟨1, ⟨1, 0⟩⟩ e (.error (.timeout ⟨1, 0⟩))) ∧
      b.pool.step (.abandon 3) = some (q, []) ∧ Beside ⟨3, ⟨9, 0⟩⟩ q b.pool := by
  obtain ⟨log, b, q, all, closed, late, left, waits⟩ : ∃ log b q,
      runAll Broker.step (Broker.new ⟨2, 1, false⟩) crowdedClose = some (b, log) ∧
      (history log).notices[5]? = some .closed ∧
      (history log).notices[2]? =
        some (.closeAnswered ⟨1, ⟨1, 0⟩⟩ (.error (.timeout ⟨1, 0⟩))) ∧
      b.pool.step (.abandon 3) = some (q, []) ∧ b.pool.closers = [⟨3, ⟨9, 0⟩⟩] :=
    ⟨_, _, _, rfl, rfl, rfl, rfl, rfl⟩
  have run := Run.ofActions all
  obtain ⟨⟨quiet, once⟩, answers, leaves⟩ := closes_do_no_harm run
  replace closed := List.mem_of_getElem? closed
  obtain ⟨before, e, after, cut, told⟩ := History.exists_cut (List.mem_of_getElem? late)
  obtain ⟨m, -, -, answer⟩ := answers before e after cut _ _ told
  have mem : ⟨3, ⟨9, 0⟩⟩ ∈ b.pool.closers := by simp [waits]
  obtain ⟨beside, -⟩ := leaves _ mem _ (.inr rfl) q _ left
  exact ⟨log, b, q, run, closed, quiet closed 3, once, ⟨m, e, answer⟩, left, beside⟩

end Pool

end DomainEvents.Bus
