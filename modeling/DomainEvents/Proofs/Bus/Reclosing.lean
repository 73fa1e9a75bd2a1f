import DomainEvents.Proofs.Bus.Closers

/-!
# Closing a closed bus

When a call of close has succeeded the dispatcher has stopped and the place of its handle is empty,
and both stay so. A call that comes after that has nothing to wait for but the lock. The lock goes
from one call to the next in the order of their coming, and a call that was given the lock has it
until its caller goes on, even if it then finds the place empty at once. So a call of close on a
closed bus can be late, but only behind a call that had come before it (`Line.late`). Nobody has to
wait for ever: the calls in the line can have their answers one after the other (`line_dissolves`).
-/

namespace DomainEvents.Bus.Pool

variable {H : Type} [DecidableEq H] {p q r : Pool H} {h k : History H} {action : Action H}
  {notices : List (Notice H)} {c : Closer} {config : PoolConfig}

/-! ## The handle is gone -/

/-- A handle that was taken from its place is not put back. -/
theorem Rule.joinable_eq_false (rule : Rule p action q notices) (taken : p.joinable = false) :
    q.joinable = false := by
  rcases rule.taken_cases with ⟨-, same⟩ | ⟨-, -, gone⟩
  · exact same.trans taken
  · exact gone

/-- A call that succeeds leaves the place of the handle empty. -/
theorem Rule.joinable_of_answered (rule : Rule p action q notices)
    (answered : .closeAnswered c (.ok ()) ∈ notices) : q.joinable = false := by
  cases rule with
  | join => rfl
  | close => cases p.closed <;> simp at answered
  | _ => simp at answered

/-- When a call of close has succeeded the dispatcher has stopped and its handle is gone. -/
theorem settled_of_closed (run : Run Pool.tick (.new config) h p)
    (closed : .closeAnswered c (.ok ()) ∈ h.notices) : p.stage = .stopped ∧ p.joinable = false := by
  refine ⟨stopped_of_closed run closed, ?_⟩
  let P (h : History H) (p : Pool H) : Prop :=
    .closeAnswered c (.ok ()) ∈ h.notices → p.joinable = false
  refine run_induction (P := P) ?_ ?_ run closed
  · intro closed
    cases closed
  · intro h p q action notices taken rule closed
    rcases History.mem_notices_snoc.mp closed with earlier | now
    · exact rule.joinable_eq_false (taken earlier)
    · exact rule.joinable_of_answered now

/-! ## The line of a closed bus -/

/-- The calls in the line of a closed bus can have their answers one after the other. -/
theorem line_dissolves (stopped : p.stage = .stopped) (taken : p.joinable = false) :
    ∃ told : History H, Run Pool.tick p told (p.lineUp []) ∧
      told.notices = p.closers.map (.closeAnswered · (.ok ())) := by
  generalize line : p.closers = l
  induction l generalizing p with
  | nil =>
    have same : p.lineUp [] = p := by
      rw [← line]
      rfl
    rw [same]
    exact ⟨[], .refl, rfl⟩
  | cons c l ih =>
    obtain ⟨-, first⟩ := step_first line stopped
    rw [taken] at first
    obtain ⟨told, rest, answers⟩ :=
      ih (p := { p with closers := l, joinable := false }) stopped rfl rfl
    refine ⟨_ ++ told, (run_step first).trans ?_, ?_⟩
    · rw [lineUp, taken]
      exact rest
    · rw [History.notices_append, answers]
      rfl

/-- Who is in the line and has come before some moment was in the line at that moment. -/
theorem closers_of_run (run : Run Pool.tick p h q) :
    p.tickets ≤ q.tickets ∧ ∀ c ∈ q.closers, c.ticket < p.tickets → c ∈ p.closers := by
  let P (_ : History H) (q : Pool H) : Prop :=
    p.tickets ≤ q.tickets ∧ ∀ c ∈ q.closers, c.ticket < p.tickets → c ∈ p.closers
  refine run_induction (P := P) ⟨Nat.le_refl _, fun c hc _ => hc⟩ ?_ run
  rintro h q r action notices ⟨later, known⟩ rule
  refine ⟨Nat.le_trans later rule.tickets_le, ?_⟩
  intro c hc early
  rcases rule.line_cases with fewer | ⟨timeout, rfl, more⟩
  · exact known c (fewer.subset hc) early
  · rw [more] at hc
    rcases List.mem_append.mp hc with hc | hc
    · exact known c hc early
    · obtain rfl := List.mem_singleton.mp hc
      exact absurd early (Nat.not_lt.mpr later)

/-- On a closed bus a call is only late behind a call that came earlier. -/
theorem Line.late (line : Line h p) (taken : p.joinable = false)
    (rule : Rule p action q notices) {result : Except BusError Unit}
    (answered : .closeAnswered c result ∈ notices) :
    result = .ok () ∨ result = .error (.timeout c.timeout) ∧
      ∃ first l, p.closers = first :: l ∧ first.ticket < c.ticket := by
  obtain ⟨mem, answer⟩ := rule.closeAnswer answered
  cases answer with
  | joined => exact .inl rfl
  | found => exact .inl rfl
  | overdue look =>
    refine .inr ⟨rfl, ?_⟩
    obtain locked | pending := look
    · cases closers : p.closers with
      | nil =>
        rw [closers] at mem
        cases mem
      | cons first l =>
        refine ⟨first, l, rfl, ?_⟩
        have ordered := line.ordered
        rw [closers] at mem ordered
        rcases List.mem_cons.mp mem with rfl | behind
        · -- the first in the line would have found the place empty
          rw [look, closers, taken] at locked
          simp at locked
        · exact (List.pairwise_cons.mp ordered).1 _ (List.mem_map_of_mem behind)
    · have quiet := asks_look taken c.ticket
      rw [pending] at quiet
      cases quiet

/-- **A call of close on a closed bus succeeds, or is late behind an earlier one.** After every run
of a bus in which a call of close has succeeded, and whatever happens after that: the dispatcher has
stopped and its handle is gone, and all calls in the line can have success one after the other. A
call of close that comes after the first success, with any time to wait, none at all among them, has
success when it has its answer, unless its time runs out while the lock is with a call that was in
the line already when it came; and that one could have success at that moment. -/
theorem late_only_behind_earlier {log more : List (Deed H)} {b after : Broker H}
    (run : Run Broker.step (Broker.new config) log b)
    (closed : .closeAnswered c (.ok ()) ∈ (history log).notices)
    (later : Run Broker.step b more after) :
    (after.pool.stage = .stopped ∧ after.pool.joinable = false) ∧
      (∃ told : History H, Run Pool.tick after.pool told (after.pool.lineUp []) ∧
        told.notices = after.pool.closers.map (.closeAnswered · (.ok ()))) ∧
      ∀ before timeout told between e rest,
        history more = before ++ ⟨.close timeout, told⟩ :: (between ++ e :: rest) →
        ∃ m n, Run Pool.tick b.pool before m ∧
          Run Pool.tick m (⟨.close timeout, told⟩ :: between) n ∧
          ∀ result, .closeAnswered ⟨m.tickets, timeout⟩ result ∈ e.notices →
            result = .ok () ∨ result = .error (.timeout timeout) ∧
              ∃ first ∈ m.closers, ∃ l, n.closers = first :: l ∧
                n.step (.join first.ticket) =
                  some ({ n with closers := l, joinable := false },
                    [.closeAnswered first (.ok ())]) := by
  have run := Broker.run_pool run
  have later := Broker.run_pool later
  have settled {k : History H} {r : Pool H} (ran : Run Pool.tick b.pool k r) :
      r.stage = .stopped ∧ r.joinable = false :=
    settled_of_closed (run.trans ran) (by
      rw [History.notices_append]
      exact List.mem_append_left _ closed)
  refine ⟨settled later, line_dissolves (settled later).1 (settled later).2, ?_⟩
  intro before timeout told between e rest cut
  rw [cut] at later
  obtain ⟨m, q, first, comes, later⟩ := run_cut later
  obtain ⟨n, r, second, step, -⟩ := run_cut later
  have second : Run Pool.tick m (⟨.close timeout, told⟩ :: between) n :=
    (run_step comes).trans second
  refine ⟨m, n, first, second, ?_⟩
  intro result answered
  have line : Line _ n := .of_run (run.trans (first.trans second))
  obtain ⟨stopped, taken⟩ := settled (first.trans second)
  rcases line.late taken (.of_step step) answered with success | ⟨late, c, l, ahead, early⟩
  · exact .inl success
  · have known := (closers_of_run second).2 c (ahead ▸ List.mem_cons_self) early
    obtain ⟨-, joins⟩ := step_first ahead stopped
    rw [taken] at joins
    exact .inr ⟨late, c, known, l, ahead, joins⟩

/-! ## A late call -/

/-- A bus is closed by two calls, of which the first has its answer. -/
def closedTwice : List (BrokerAction Unit) :=
  [.pool (.close ⟨5, 0⟩), .pool (.close ⟨5, 0⟩), .pool .dispatch, .pool .dispatch, .pool .dispatch,
    .pool (.join 0)]

/-- A third call comes, which has no time to wait, before the caller of the second goes on. -/
def closedLate : List (BrokerAction Unit) := [.pool (.close ⟨0, 0⟩), .pool (.expire 2)]

theorem late_only_behind_earlier_third :
    ∃ (log more : List (Deed Unit)) (b after : Broker Unit) (n : Pool Unit),
      Run Broker.step (Broker.new ⟨2, 1, false⟩) log b ∧
      .closeAnswered ⟨0, ⟨5, 0⟩⟩ (.ok ()) ∈ (history log).notices ∧
      Run Broker.step b more after ∧
      .closeAnswered ⟨2, ⟨0, 0⟩⟩ (.error (.timeout ⟨0, 0⟩)) ∈ (history more).notices ∧
      ∃ first ∈ b.pool.closers, ∃ l, n.closers = first :: l ∧
        (n.step (.join first.ticket)).map (·.2) = some [.closeAnswered first (.ok ())] := by
  obtain ⟨log, b, more, after, told, e, all, next, closed, late, number, cut⟩ :
      ∃ log b more after told e,
        runAll Broker.step (Broker.new ⟨2, 1, false⟩) closedTwice = some (b, log) ∧
        runAll Broker.step b closedLate = some (after, more) ∧
        (history log).notices.getLast? = some (.closeAnswered ⟨0, ⟨5, 0⟩⟩ (.ok ())) ∧
        e.notices.getLast? = some (.closeAnswered ⟨2, ⟨0, 0⟩⟩ (.error (.timeout ⟨0, 0⟩))) ∧
        b.pool.tickets = 2 ∧
        history more = [] ++ ⟨.close ⟨0, 0⟩, told⟩ :: ([] ++ e :: []) :=
    ⟨_, _, _, _, _, _, rfl, rfl, rfl, rfl, rfl, rfl⟩
  have run := Run.ofActions all
  have later := Run.ofActions next
  replace closed := List.mem_of_getLast? closed
  replace late := List.mem_of_getLast? late
  obtain ⟨-, -, answers⟩ := late_only_behind_earlier run closed later
  obtain ⟨m, n, none, -, answer⟩ := answers [] ⟨0, 0⟩ told [] e [] cut
  obtain rfl := eq_of_run_nil none
  rw [number] at answer
  have told : .closeAnswered ⟨2, ⟨0, 0⟩⟩ (.error (.timeout ⟨0, 0⟩)) ∈ (history more).notices := by
    rw [cut]
    simp [late]
  rcases answer _ late with success | ⟨-, first, known, l, ahead, joins⟩
  · cases success
  · exact ⟨log, more, b, after, n, run, closed, later, told, first, known, l, ahead,
      by rw [joins]; rfl⟩

/-- It is not true that every call of close succeeds that comes after one has succeeded. -/
theorem success_is_not_for_all :
    ¬ ∀ (log more : List (Deed Unit)) (b after : Broker Unit) (c d : Closer)
        (result : Except BusError Unit),
      Run Broker.step (Broker.new ⟨2, 1, false⟩) log b →
      .closeAnswered c (.ok ()) ∈ (history log).notices →
      Run Broker.step b more after → b.pool.tickets ≤ d.ticket →
      .closeAnswered d result ∈ (history more).notices → result = .ok () := by
  intro claim
  obtain ⟨log, b, more, after, all, next, closed, late, fresh⟩ : ∃ log b more after,
      runAll Broker.step (Broker.new ⟨2, 1, false⟩) closedTwice = some (b, log) ∧
      runAll Broker.step b closedLate = some (after, more) ∧
      (history log).notices.getLast? = some (.closeAnswered ⟨0, ⟨5, 0⟩⟩ (.ok ())) ∧
      (history more).notices.getLast? =
        some (.closeAnswered ⟨2, ⟨0, 0⟩⟩ (.error (.timeout ⟨0, 0⟩))) ∧
      b.pool.tickets = 2 := ⟨_, _, _, _, rfl, rfl, rfl, rfl, rfl⟩
  have success := claim log more b after _ _ _ (.ofActions all) (List.mem_of_getLast? closed)
    (.ofActions next) (Nat.le_of_eq fresh) (List.mem_of_getLast? late)
  cases success

end DomainEvents.Bus.Pool
