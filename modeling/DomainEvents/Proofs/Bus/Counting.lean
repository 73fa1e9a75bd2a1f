import DomainEvents.Proofs.Bus.Closing
import DomainEvents.Proofs.Bus.Worker
import DomainEvents.Simulation.World
import Mathlib.Data.List.Perm.Subperm

/-!
# What a bus counts

The series of a bus add up the signals that its notices count as. Here they are compared with what
has happened: with the answers that calls of publish got, with the failures that were handed to the
error callback, and with the events that are on their way or done with.

Some notices come together. An event comes into the queue in the step in which its call is answered
with success, and likewise for refusals; an event is done with when its worker comes to its end; a
handler has failed when its failure is reported. `Together` says so of two kinds of notices, and
then there are as many of one as of the other after every run.
-/

namespace DomainEvents.Bus

variable {H : Type}

/-- The event whose call of publish is answered, if the notice says so. -/
@[simp] def Notice.answered? : Notice H → Option Dispatch
  | .answered d _ => some d
  | _ => none

@[simp] theorem Notice.answered?_comp_worker (d : Dispatch) :
    (answered? ∘ worker d : WorkerNotice H → _) = fun _ => none := rfl

/-! ## Series -/

namespace History

/-- The series after a history, from the given ones on. -/
def countOn (s : Series) (h : History H) : Series :=
  (h.collect Notice.signal?).foldl Series.record s

/-- The series of a bus with a history. -/
abbrev series (h : History H) : Series := h.countOn {}

theorem countOn_append (s : Series) (h k : History H) :
    (h ++ k).countOn s = k.countOn (h.countOn s) := by
  rw [countOn, collect_append, List.foldl_append]
  rfl

/-- The events of the calls of publish that were answered, one for each answer. -/
abbrev answered (h : History H) : List Dispatch := h.collect Notice.answered?

end History

/-! ## Kinds of notices -/

namespace Notice

/-- Whether a notice counts as a signal of a kind. -/
def signals (kind : Signal → Bool) (n : Notice H) : Bool := n.signal?.any kind

/-- Whether a call of publish gets an answer of a kind. -/
def isAnswer (kind : Except BusError Unit → Bool) : Notice H → Bool
  | .answered _ result => kind result
  | _ => false

/-- Whether a worker has ended in the given way. -/
def isEnd (killed : Bool) : Notice H → Bool
  | .ended _ k => k == killed
  | _ => false

/-- Whether the failure of a handler or of its interest check is handed to the error callback. -/
def isComplaint : Notice H → Bool
  | .worker _ (.reported ⟨_, _, .handler _ _⟩)
  | .worker _ (.reported ⟨_, _, .handlerPanicked _ _⟩) => true
  | _ => false

end Notice

/-! ## Counting notices -/

namespace History

/-- The signals of a kind are the notices that count as such. -/
theorem countP_signals (kind : Signal → Bool) (h : History H) :
    (h.collect Notice.signal?).countP kind = h.notices.countP (Notice.signals kind) := by
  rw [collect, List.countP_filterMap]
  refine congrArg (List.countP · h.notices) (funext fun n => ?_)
  rw [Notice.signals]
  cases n.signal? <;> rfl

theorem published_series (h : History H) :
    h.series.published = h.notices.countP (Notice.signals (·.settles (·.isOk))) := by
  rw [series, countOn, Series.published_foldl_record, countP_signals, Nat.zero_add]

theorem rejectedFor_series (reason : String) (h : History H) :
    h.series.rejectedFor reason =
      h.notices.countP (Notice.signals (·.settles (failsFor reason))) := by
  rw [series, countOn, Series.rejectedFor_foldl_record, countP_signals]
  exact Nat.zero_add _

theorem rejectedTotal_series (h : History H) :
    h.series.rejectedTotal = h.notices.countP (Notice.signals (·.settles (!·.isOk))) := by
  rw [series, countOn, Series.rejectedTotal_foldl_record, countP_signals]
  exact Nat.zero_add _

theorem processed_series (h : History H) :
    h.series.processed = h.notices.countP (Notice.signals (· == .processed)) := by
  rw [series, countOn, Series.processed_foldl_record, countP_signals, Nat.zero_add]

theorem handlerFailures_series (h : History H) :
    h.series.handlerFailures = h.notices.countP (Notice.signals (· == .handlerFailed)) := by
  rw [series, countOn, Series.handlerFailures_foldl_record, countP_signals, Nat.zero_add]

/-- As often as there was notice of something, there was notice of the kind that is told by it. -/
theorem length_collect {α : Type} {f : Notice H → Option α} {kind : Notice H → Bool}
    (same : ∀ n, (f n).isSome = kind n) (h : History H) :
    (h.collect f).length = h.notices.countP kind := by
  rw [collect, List.length_filterMap_eq_countP]
  exact congrArg (List.countP · h.notices) (funext same)

/-- An event that comes into the queue, a worker that starts and a worker that ends are counted. -/
theorem lengths (h : History H) :
    h.accepted.length = h.notices.countP (Notice.signals (·.settles (·.isOk))) ∧
      h.started.length = h.notices.countP (Notice.signals (· == .workerStarted)) ∧
      h.ended.length = h.notices.countP (Notice.signals (· == .workerFinished)) := by
  refine ⟨length_collect (fun n => ?_) h, length_collect (fun n => ?_) h,
    length_collect (fun n => ?_) h⟩
  all_goals
    cases n with
    | worker _ told => cases told <;> rfl
    | _ => rfl

theorem inFlight_series (h : History H) :
    h.series.inFlight = h.started.length - h.ended.length := by
  obtain ⟨-, started, ended⟩ := h.lengths
  rw [series, countOn, Series.inFlight_foldl_record, countP_signals, countP_signals, started, ended,
    Int.zero_add]

/-- A worker has come to its end, or it was killed. -/
theorem length_ended (h : History H) :
    h.ended.length =
      h.notices.countP (Notice.isEnd false) + h.notices.countP (Notice.isEnd true) := by
  rw [ended, collect]
  induction h.notices with
  | nil => rfl
  | cons n rest ih =>
    cases n with
    | ended d killed => cases killed <;> simp [Notice.isEnd, ih] <;> omega
    | _ => simpa [List.filterMap_cons, Notice.isEnd] using ih

end History

/-- Of two notices one counts, whichever kind is asked for. -/
theorem countP_pair {one other : Notice H → Bool} {a b : Notice H} (same : one a = other b)
    (hb : one b = false) (ha : other a = false) : [a, b].countP one = [a, b].countP other := by
  simp [List.countP_cons, same, ha, hb]

/-- Kinds of notices that agree on what workers do agree on what a worker does. -/
theorem countP_told {one other : Notice H → Bool}
    (same : ∀ d n, one (.worker d n) = other (.worker d n)) (d : Dispatch)
    (told : List (WorkerNotice H)) :
    (told.map (Notice.worker d)).countP one = (told.map (Notice.worker d)).countP other := by
  rw [List.countP_map, List.countP_map]
  exact congrArg (List.countP · told) (funext fun n => same d n)

/-- A worker that turns to subscriptions is not done with its event, and no handler has failed. -/
theorem Phase.counts_turnNotices (event : Event) (entries : List (Subscription H)) (d : Dispatch) :
    let told := (turnNotices event entries).map (Notice.worker d)
    told.countP (Notice.signals (· == .processed)) = 0 ∧
      told.countP (Notice.signals (· == .handlerFailed)) = told.countP Notice.isComplaint := by
  cases entries <;> exact ⟨rfl, rfl⟩

/-- What a worker gives notice of in a step: it is done with its event if it comes to its end, and
it reports as many failures of handlers as there are. -/
theorem Phase.counts_of_step {event : Event} {phase : Phase H} {reply : Reply}
    {progress : Progress H} {told : List (WorkerNotice H)}
    (h : phase.step event reply = some (progress, told)) (d : Dispatch) :
    (told.map (Notice.worker d)).countP (Notice.signals (· == .processed)) =
        (if progress.end? = some false then 1 else 0) ∧
      (told.map (Notice.worker d)).countP (Notice.signals (· == .handlerFailed)) =
        (told.map (Notice.worker d)).countP Notice.isComplaint := by
  revert h
  fun_cases Phase.step
  all_goals intro h; cases h
  all_goals first | exact ⟨rfl, rfl⟩ | exact counts_turnNotices _ _ d

namespace Pool

variable [DecidableEq H] {config : PoolConfig} {h : History H} {p q : Pool H} {action : Action H}
  {notices : List (Notice H)}

/-! ## Notices that come together -/

/-- In every step there are as many notices of one kind as of another. -/
def Together (one other : Notice H → Bool) : Prop :=
  ∀ {p q : Pool H} {action : Action H} {notices : List (Notice H)},
    Rule p action q notices → notices.countP one = notices.countP other

theorem Together.of_run {one other : Notice H → Bool} (together : Together one other)
    (run : Run Pool.tick (.new config) h p) : h.notices.countP one = h.notices.countP other := by
  refine run_induction (P := fun h _ => h.notices.countP one = h.notices.countP other) rfl ?_ run
  intro h p q action notices same rule
  rw [History.notices_append, List.countP_append, List.countP_append, same, History.notices_cons,
    History.notices_nil, List.append_nil, together rule]

/-- What comes of an event is what its call of publish is answered. -/
theorem together_settled (kind : Except BusError Unit → Bool) :
    Together (H := H) (Notice.signals (·.settles kind)) (Notice.isAnswer kind) := by
  have silent (d : Dispatch) (told : List (WorkerNotice H)) :
      (told.map (Notice.worker d)).countP (Notice.signals (·.settles kind)) =
        (told.map (Notice.worker d)).countP (Notice.isAnswer kind) :=
    countP_told (by intro d n; cases n <;> rfl) d told
  intro p q action notices rule
  cases rule with
  | refuse => exact countP_pair rfl rfl rfl
  | refuseLate => exact countP_pair rfl rfl rfl
  | accept => exact countP_pair rfl rfl rfl
  | start => exact silent _ _
  | turn => exact silent _ _
  | finish =>
    rw [List.countP_append, List.countP_append, silent]
    rfl
  | close => cases p.closed <;> rfl
  | join => cases p.joinable <;> rfl
  | _ => rfl

/-- An event is done with when its worker comes to its end. -/
theorem together_processed :
    Together (H := H) (Notice.signals (· == .processed)) (Notice.isEnd false) := by
  have silent (d : Dispatch) (told : List (WorkerNotice H)) :
      (told.map (Notice.worker d)).countP (Notice.isEnd false) = 0 := by
    refine List.countP_eq_zero.mpr ?_
    intro n hn
    obtain ⟨_, -, rfl⟩ := List.mem_map.mp hn
    exact Bool.false_ne_true
  intro p q action notices rule
  cases rule with
  | start =>
    refine (Phase.counts_turnNotices _ _ _).1.trans ?_
    exact (silent _ _).symm
  | turn worker goes =>
    rw [(Phase.counts_of_step goes _).1, silent]
    rfl
  | @finish t reply w progress told killed worker goes ends =>
    rw [List.countP_append, List.countP_append, (Phase.counts_of_step goes _).1, silent, ends]
    cases killed <;> rfl
  | close => cases p.closed <;> rfl
  | join => cases p.joinable <;> rfl
  | _ => rfl

/-- A handler has failed when its failure is reported. -/
theorem together_failed :
    Together (H := H) (Notice.signals (· == .handlerFailed)) Notice.isComplaint := by
  intro p q action notices rule
  cases rule with
  | start => exact (Phase.counts_turnNotices _ _ _).2
  | turn worker goes => exact (Phase.counts_of_step goes _).2
  | finish worker goes =>
    rw [List.countP_append, List.countP_append, (Phase.counts_of_step goes _).2]
    rfl
  | close => cases p.closed <;> rfl
  | join => cases p.joinable <;> rfl
  | _ => rfl

/-! ## Answers -/

/-- The numbers of the calls of publish that were answered or wait for the store. -/
def calls (h : History H) (p : Pool H) : List Nat := (h.answered ++ p.saving).map (·.ticket)

/-- A call is new, or was known before. -/
theorem Rule.calls_cases (h : History H) (rule : Rule p action q notices) :
    ((calls (h ++ [⟨action, notices⟩]) q).Perm (p.tickets :: calls h p) ∧
        q.tickets = p.tickets + 1) ∨
      (calls (h ++ [⟨action, notices⟩]) q).Subperm (calls h p) ∧ p.tickets ≤ q.tickets := by
  -- a call that waits is answered or goes away
  have moved {t : Nat} {d : Dispatch} (waits : p.saving.find? (·.ticket == t) = some d) :
      (h.answered ++ [d] ++ (p.unsave t).saving).Perm (h.answered ++ p.saving) := by
    rw [List.append_assoc]
    exact (perm_of_find? waits).symm.append_left _
  have same : (calls h p).Subperm (calls h p) := .refl _
  cases rule with
  | refuse =>
    refine .inl ⟨?_, rfl⟩
    simp [calls, List.filterMap_cons]
  | ask =>
    refine .inl ⟨?_, rfl⟩
    simp [calls, List.filterMap_cons, ← List.append_assoc]
  | refuseLate waits =>
    refine .inr ⟨?_, Nat.le_refl _⟩
    simpa [calls, List.filterMap_cons] using ((moved waits).map (·.ticket)).subperm
  | accept waits =>
    refine .inr ⟨?_, Nat.le_refl _⟩
    simpa [calls, List.filterMap_cons] using ((moved waits).map (·.ticket)).subperm
  | @forsake t d waits =>
    have fewer : (h.answered ++ (p.unsave t).saving).Sublist (h.answered ++ p.saving) :=
      List.eraseP_sublist.append_left _
    refine .inr ⟨?_, Nat.le_refl _⟩
    simpa [calls] using (fewer.map (·.ticket)).subperm
  | close =>
    refine .inr ⟨?_, Nat.le_succ _⟩
    cases p.closed <;> simpa [calls, List.filterMap_cons] using same
  | join =>
    refine .inr ⟨?_, Nat.le_refl _⟩
    cases p.joinable <;> simpa [calls, List.filterMap_cons] using same
  | _ =>
    refine .inr ⟨?_, Nat.le_refl _⟩
    simpa [calls, List.filterMap_cons, Pool.take, setPhase, endWorker, giveBack] using same

/-- No call of publish is answered twice. -/
theorem answered_distinct (run : Run Pool.tick (.new config) h p) :
    (h.answered.map (·.ticket)).Nodup := by
  let P (h : History H) (p : Pool H) : Prop := (calls h p).Nodup ∧ ∀ t ∈ calls h p, t < p.tickets
  have known : P h p := by
    have start : P [] (.new config) := ⟨List.nodup_nil, by intro t ht; cases ht⟩
    refine run_induction (P := P) start ?_ run
    rintro h p q action notices ⟨distinct, fresh⟩ rule
    rcases rule.calls_cases h with ⟨new, more⟩ | ⟨known, more⟩
    · refine ⟨new.nodup_iff.mpr (List.nodup_cons.mpr ⟨fun ht => ?_, distinct⟩), ?_⟩
      · exact Nat.lt_irrefl _ (fresh _ ht)
      · intro t ht
        rw [more]
        rcases List.mem_cons.mp (new.mem_iff.mp ht) with rfl | ht
        · exact Nat.lt_succ_self _
        · exact Nat.lt_succ_of_lt (fresh t ht)
    · obtain ⟨l, same, sub⟩ := known
      refine ⟨same.nodup_iff.mp (distinct.sublist sub), ?_⟩
      intro t ht
      exact Nat.lt_of_lt_of_le (fresh t (sub.subset (same.mem_iff.mpr ht))) more
  have distinct := known.1
  rw [calls, List.map_append] at distinct
  exact (List.nodup_append.mp distinct).1

/-- The errors that a call of publish fails with, each with the reason that it is counted under. -/
inductive CountedUnder : BusError → String → Prop where
  | shuttingDown : CountedUnder .shuttingDown "shutting_down"
  | invalid (source : ValidationError) : CountedUnder (.validation source) "invalid"
  | queueFull (capacity : Nat) : CountedUnder (.queueFull capacity) "queue_full"
  | persistence (source : StoreError) : CountedUnder (.persistence .save source) "persistence"

theorem Rule.countedUnder (rule : Rule p action q notices) {d : Dispatch} {error : BusError}
    (answered : .answered d (.error error) ∈ notices) : CountedUnder error error.rejectReason := by
  cases rule with
  | refuse _ why =>
    obtain ⟨-, rfl⟩ : _ ∧ error = _ := by simpa using answered
    cases why with
    | closed => exact .shuttingDown
    | malformed => exact .invalid _
  | refuseLate _ why =>
    obtain ⟨-, rfl⟩ : _ ∧ error = _ := by simpa using answered
    cases why with
    | unsaved => exact .persistence _
    | late => exact .shuttingDown
    | full => exact .queueFull _
  | close => cases p.closed <;> simp at answered
  | join => cases p.joinable <;> simp at answered
  | _ => simp at answered

/-! ## The series of a bus -/

/-- The events published are those that were processed, those that are on their way, and those whose
workers were killed. -/
theorem published_of_run (run : Run Pool.tick (.new config) h p) :
    h.series.published = h.series.processed +
      (p.queued + p.hand.toList.length + p.workers.length) +
        h.notices.countP (Notice.isEnd true) := by
  have accepted := h.lengths.1
  have processed := Together.of_run together_processed run
  have ended := h.length_ended
  have places := (Route.of_run run).accepted_perm.length_eq
  simp [Place.all, standing, working] at places
  rw [History.published_series, ← accepted, History.processed_series, processed, queued]
  omega

/-- The gauge is the count of the workers that are running. -/
theorem inFlight_of_run (run : Run Pool.tick (.new config) h p) :
    h.series.inFlight = p.inFlight := by
  have slots : Slots h p := .of_run run
  have started := slots.started.length_eq
  rw [List.length_append, ← slots.counted] at started
  rw [History.inFlight_series]
  omega

/-- **The metrics of a bus tell what has happened.** After every run of a bus, with any calls,
replays among them, and any answers and panics: no call of publish was answered twice; as many
events are counted as published as there are calls that succeeded; as many refusals are counted
under a reason as there are calls that failed with an error of that reason, which is one of four,
and no other refusals are counted; the events published are those that were processed, those that
are on their way, and those whose workers were killed; the failures of handlers are those that were
handed to the error callback, without failures to mark an event; and the gauge is the count of
running workers. Once a call of close has succeeded, and no worker was killed, the events published
are those that were processed, and the gauge is zero. -/
theorem series_conserved {log : List (Deed H)} {b : Broker H}
    (run : Run Broker.step (Broker.new config) log b) :
    let h := history log
    let p := b.pool
    let s := h.series
    (h.answered.map (·.ticket)).Nodup ∧
      s.published = h.notices.countP (Notice.isAnswer (·.isOk)) ∧
      ((∀ reason, s.rejectedFor reason = h.notices.countP (Notice.isAnswer (failsFor reason))) ∧
        s.rejectedTotal = h.notices.countP (Notice.isAnswer (!·.isOk)) ∧
        ∀ d error, .answered d (.error error) ∈ h.notices →
          CountedUnder error error.rejectReason) ∧
      s.published = s.processed + (p.queued + p.hand.toList.length + p.workers.length) +
        h.notices.countP (Notice.isEnd true) ∧
      s.handlerFailures = h.notices.countP Notice.isComplaint ∧
      s.inFlight = p.inFlight ∧
      ∀ c, .closeAnswered c (.ok ()) ∈ h.notices → (∀ d, .ended d true ∉ h.notices) →
        s.published = s.processed ∧ s.inFlight = 0 := by
  intro h p s
  have run : Run Pool.tick (Pool.new config) h p := Broker.run_pool run
  have conserved := published_of_run run
  have gauge := inFlight_of_run run
  refine ⟨answered_distinct run, ?_, ⟨?_, ?_, ?_⟩, conserved, ?_, gauge, ?_⟩
  · exact h.published_series.trans (Together.of_run (together_settled _) run)
  · intro reason
    exact (h.rejectedFor_series reason).trans (Together.of_run (together_settled _) run)
  · exact h.rejectedTotal_series.trans (Together.of_run (together_settled _) run)
  · intro d error answered
    obtain ⟨before, e, after, cut, told⟩ := History.exists_cut answered
    rw [cut] at run
    obtain ⟨m, q, -, step, -⟩ := run_cut run
    exact (Rule.of_step step).countedUnder told
  · exact h.handlerFailures_series.trans (Together.of_run together_failed run)
  · intro c closed unharmed
    -- all places where an event can be on its way are empty
    have stopped := stopped_of_closed run closed
    have closing : Closing p := .of_run run
    obtain ⟨hand, queue⟩ := closing.emptied (.inr stopped)
    have idle := closing.idle stopped
    have killed : h.notices.countP (Notice.isEnd true) = 0 := by
      refine List.countP_eq_zero.mpr ?_
      intro n hn ends
      cases n with
      | ended d killed =>
        obtain rfl : killed = true := by simpa [Notice.isEnd] using ends
        exact unharmed d hn
      | _ => cases ends
    refine ⟨?_, ?_⟩
    · rw [conserved, killed, queued, queue, hand, idle]
      rfl
    · rw [gauge, (Slots.of_run run).counted, running, having, idle]
      rfl

/-- A bus whose queue has one place. An event is published and its handler fails, another one finds
the queue full, and a third one comes when the bus was closed. -/
theorem series_conserved_closed :
    ∃ (log : List (Deed Unit)) (b : Broker Unit),
      Run Broker.step (Broker.new ⟨1, 1, false⟩) log b ∧
      .closeAnswered ⟨2, ⟨5, 0⟩⟩ (.ok ()) ∈ (history log).notices ∧
      (history log).series.published = 1 ∧ (history log).series.processed = 1 ∧
      (history log).series.rejectedFor "queue_full" = 1 ∧
      (history log).series.rejectedFor "shutting_down" = 1 ∧
      (history log).series.rejectedTotal = 2 ∧ (history log).series.handlerFailures = 1 ∧
      (history log).series.inFlight = 0 := by
  obtain ⟨log, b, all, last, unharmed, succeeded, full, late, failed, complained⟩ : ∃ log b,
      runAll Broker.step (Broker.new (H := Unit) ⟨1, 1, false⟩)
        [.pool (.subscribe ⟨1⟩ ()), .pool (.publish default default), .pool (.saved 0 (.ok ())),
          .pool (.publish default default), .pool (.saved 1 (.ok ())), .pool .dispatch,
          .pool .dispatch, .pool (.start 0), .pool (.reply 0 (.named (.returned "audit"))),
          .pool (.reply 0 (.asked (.returned true))), .pool (.close ⟨5, 0⟩),
          .pool (.reply 0 (.handled (.returned (.error .cancelled)))),
          .pool (.publish default default), .pool (.reply 0 (.reported (.returned ()))),
          .pool (.reply 0 (.marked (.returned (.error (.backend "full"))))),
          .pool (.reply 0 (.reported (.returned ()))), .pool .dispatch, .pool .dispatch,
          .pool .dispatch, .pool .dispatch, .pool (.join 2)] = some (b, log) ∧
      (history log).notices.getLast? = some (.closeAnswered ⟨2, ⟨5, 0⟩⟩ (.ok ())) ∧
      (history log).notices.countP (Notice.isEnd true) = 0 ∧
      (history log).notices.countP (Notice.isAnswer (·.isOk)) = 1 ∧
      (history log).notices.countP (Notice.isAnswer (failsFor "queue_full")) = 1 ∧
      (history log).notices.countP (Notice.isAnswer (failsFor "shutting_down")) = 1 ∧
      (history log).notices.countP (Notice.isAnswer (!·.isOk)) = 2 ∧
      (history log).notices.countP Notice.isComplaint = 1 :=
    ⟨_, _, rfl, rfl, rfl, rfl, rfl, rfl, rfl, rfl⟩
  have closed := List.mem_of_getLast? last
  obtain ⟨-, published, ⟨reasons, rejected, -⟩, -, complaints, -, final⟩ :=
    series_conserved (Run.ofActions all)
  obtain ⟨processed, idle⟩ := final _ closed
    (fun d killed => List.countP_eq_zero.mp unharmed _ killed rfl)
  rw [succeeded] at published
  refine ⟨log, b, .ofActions all, closed, published, processed.symm.trans published, ?_, ?_, ?_, ?_,
    idle⟩
  · exact (reasons _).trans full
  · exact (reasons _).trans late
  · exact rejected.trans failed
  · exact complaints.trans complained

end Pool

end DomainEvents.Bus

/-! ## Simulations -/

namespace DomainEvents.Simulation.World

open Bus (TraceLine Notice Deed History history)

/-- Notices are taken into the metrics as the signals that they count as. -/
theorem metrics_foldl_notice (notices : List (Notice Label)) (w : World) :
    (notices.foldl notice w).metrics =
      w.metrics.map fun s => (notices.filterMap Notice.signal?).foldl Series.record s := by
  induction notices generalizing w with
  | nil => exact Option.map_id'.symm
  | cons n rest ih =>
    have one : (w.notice n).metrics =
        w.metrics.map fun s => n.signal?.toList.foldl Series.record s := by
      rw [notice]
      cases TraceLine.ofNotice? n <;> cases n.signal? <;> simp [addTrace]
    rw [List.foldl_cons, ih, one, Option.map_map, List.filterMap_cons]
    cases n.signal? <;> rfl

/-- Deeds are taken into the metrics as what they tell of the pool. -/
theorem metrics_foldl_deed (deeds : List (Deed Label)) (w : World) :
    (deeds.foldl deed w).metrics = w.metrics.map (History.countOn · (history deeds)) := by
  induction deeds generalizing w with
  | nil => exact Option.map_id'.symm
  | cons d rest ih =>
    have one : (w.deed d).metrics = w.metrics.map (History.countOn · (history [d])) := by
      rw [deed.eq_def]
      generalize TraceLine.ofDeed? d = line
      cases d with
      | pool entry =>
        have told (v : World) (same : v.metrics = w.metrics) :
            (entry.notices.foldl notice v).metrics =
              w.metrics.map (History.countOn · (history [.pool entry])) := by
          rw [metrics_foldl_notice, same]
          refine congrArg (Option.map · w.metrics) (funext fun s => ?_)
          simp [History.countOn]
        cases line <;> exact told _ rfl
      | _ => cases line <;> exact Option.map_id'.symm
    have both : history (d :: rest) = history [d] ++ history rest := Bus.history_append [d] rest
    rw [List.foldl_cons, ih, one, Option.map_map, both]
    exact congrArg (Option.map · w.metrics) (funext fun s => (History.countOn_append s ..).symm)

/-- The metrics of a simulation that counts are the series of what happens to its bus. -/
theorem metrics_perform (w : World) (action : Bus.BrokerAction Label) :
    (w.perform action).1.metrics =
      w.metrics.map (History.countOn · (history (w.perform action).2)) := by
  rw [perform]
  split
  case h_1 broker _ =>
    split
    case h_1 => exact metrics_foldl_deed ..
    case h_2 => exact Option.map_id'.symm
  case h_2 => exact Option.map_id'.symm

end DomainEvents.Simulation.World
