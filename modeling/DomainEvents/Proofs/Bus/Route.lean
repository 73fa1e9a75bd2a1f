import DomainEvents.Proofs.Bus.Run
import Mathlib.Data.List.Nodup
import Mathlib.Data.List.Pairwise
import Mathlib.Logic.ExistsUnique

/-!
# The route of an event

An event that has come into the queue goes from place to place: the queue, the hand of the
dispatcher, a worker of its own, and the workers that have ended. `Route` says so of the history of
a pool and its state. Every rule keeps it, and from it follows that no event gets lost, is handed
out twice or overtakes another one.

What tells events apart are the numbers of the calls that published them: no two calls have the same
number, so that the numbers of all events that have come into the queue or may still come are
different.
-/

namespace DomainEvents.Bus

variable {H : Type}

/-! ## Lists -/

/-- Where the first of a kind is found in a list, and what is left without it. -/
theorem split_of_find? {α : Type} {f : α → Bool} {l : List α} {a : α} (h : l.find? f = some a) :
    ∃ l₁ l₂, l = l₁ ++ a :: l₂ ∧ l.eraseP f = l₁ ++ l₂ := by
  obtain ⟨ha, l₁, l₂, rfl, hl₁⟩ := List.find?_eq_some_iff_append.mp h
  refine ⟨l₁, l₂, rfl, ?_⟩
  rw [List.eraseP_append_right _ (by simpa using hl₁), List.eraseP_cons_of_pos ha]

theorem perm_of_find? {α : Type} {f : α → Bool} {l : List α} {a : α} (h : l.find? f = some a) :
    l.Perm (a :: l.eraseP f) := by
  obtain ⟨l₁, l₂, rfl, erased⟩ := split_of_find? h
  rw [erased]
  exact List.perm_middle

namespace Pool

/-! ## The events of calls and workers -/

theorem ticket_of_found {l : List Dispatch} {t : Nat} {d : Dispatch}
    (found : l.find? (·.ticket == t) = some d) : d.ticket = t := by
  simpa using List.find?_some found

/-- The events of the workers that have not ended. -/
abbrev working (p : Pool H) : List Dispatch := p.workers.map (·.dispatch)

theorem working_setPhase (p : Pool H) (t : Nat) (phase : Phase H) :
    (p.setPhase t phase).working = p.working := by
  simp only [working, setPhase, List.map_map]
  refine List.map_congr_left ?_
  intro w _
  simp only [Function.comp_apply]
  split <;> rfl

theorem dispatch_mem_working {p : Pool H} {t : Nat} {w : Worker H} (h : p.worker? t = some w) :
    w.dispatch ∈ p.working :=
  List.mem_map_of_mem (List.mem_of_find?_eq_some h)

theorem ticket_of_worker? {p : Pool H} {t : Nat} {w : Worker H} (h : p.worker? t = some w) :
    w.dispatch.ticket = t := by
  simpa using List.find?_some h

/-- A worker that ends is the one that has the event. -/
theorem working_endWorker {p : Pool H} {t : Nat} {w : Worker H} (h : p.worker? t = some w)
    (killed : Bool) :
    p.working.Perm (w.dispatch :: (p.endWorker w.dispatch killed).1.working) := by
  rw [worker?, ← ticket_of_worker? h] at h
  exact (perm_of_find? h).map (·.dispatch)

/-- The event that is taken off the queue comes into the hand, with or without a permit. -/
theorem toList_take (p : Pool H) (d : Dispatch) (rest : List Dispatch) :
    (p.take d rest).hand.toList = [d] := by
  rw [Pool.take]
  split <;> rfl

/-! ## The route -/

/-- Where the events of a pool are, as its history tells it. -/
structure Route (h : History H) (p : Pool H) : Prop where
  /-- what has come into the queue was handed out, is in the hand, or waits, in this order -/
  line : h.accepted = h.handed ++ p.hand.toList ++ p.queue
  /-- what was handed out is worked on, or its worker has ended -/
  work : h.handed.Perm (p.working ++ h.ended)
  /-- no two calls have the same number -/
  distinct : ((h.accepted ++ p.saving).map (·.ticket)).Nodup
  /-- the numbers of calls to come are new -/
  fresh : ∀ d ∈ h.accepted ++ p.saving, d.ticket < p.tickets
  /-- whatever comes into the queue was published, and the store was asked to save it -/
  origin : ∀ d ∈ h.accepted ++ p.saving, ⟨.publish d.ctx d.event, [.saving d]⟩ ∈ h
  /-- only workers that were given an event do anything about it -/
  done : ∀ d n, .worker d n ∈ h.notices → d ∈ h.handed

namespace Route

theorem start (config : PoolConfig) : Route [] (.new config : Pool H) where
  line := rfl
  work := .refl _
  distinct := List.nodup_nil
  fresh := by intro d hd; cases hd
  origin := by intro d hd; cases hd
  done := by intro d n hn; cases hn

variable {h : History H} {p : Pool H}

theorem working_subset_handed (route : Route h p) {d : Dispatch} (hd : d ∈ p.working) :
    d ∈ h.handed :=
  route.work.mem_iff.mpr (List.mem_append_left _ hd)

theorem handed_prefix (route : Route h p) : h.handed <+: h.accepted := by
  rw [route.line, List.append_assoc]
  exact List.prefix_append ..

/-- No two events that have come into the queue have the same number. -/
theorem accepted_distinct (route : Route h p) : (h.accepted.map (·.ticket)).Nodup := by
  have distinct := route.distinct
  rw [List.map_append] at distinct
  exact (List.nodup_append.mp distinct).1

/-- No two calls that wait for the store have the same number. -/
theorem saving_distinct (route : Route h p) : (p.saving.map (·.ticket)).Nodup := by
  have distinct := route.distinct
  rw [List.map_append] at distinct
  exact (List.nodup_append.mp distinct).2.1

theorem fresh_of_waits (route : Route h p) {d : Dispatch} (waits : d ∈ p.saving) :
    d.ticket < p.tickets :=
  route.fresh d (List.mem_append_right _ waits)

/-- No two workers have the same event. -/
theorem working_distinct (route : Route h p) : (p.working.map (·.ticket)).Nodup := by
  -- all that was handed out has come into the queue, and a part of it is worked on
  have handed := route.accepted_distinct.sublist (route.handed_prefix.sublist.map (·.ticket))
  have all := (route.work.map (·.ticket)).nodup_iff.mp handed
  rw [List.map_append] at all
  exact (List.nodup_append.mp all).1

end Route

/-! ## Places -/

/-- Where an event can be that has come into the queue. -/
inductive Place where
  /-- its worker has ended -/
  | ended
  /-- with a worker that has not ended -/
  | worker
  /-- in the hand of the dispatcher -/
  | hand
  /-- in the queue -/
  | queue
deriving DecidableEq

/-- All places, in the order opposite to the way of an event. -/
def Place.all : List Place := [.ended, .worker, .hand, .queue]

theorem Place.mem_all (place : Place) : place ∈ all := by
  cases place <;> decide

/-- The events at a place, where the history tells of those whose workers have ended. -/
def standing (h : History H) (p : Pool H) : Place → List Dispatch
  | .ended => h.ended
  | .worker => p.working
  | .hand => p.hand.toList
  | .queue => p.queue

namespace Route

variable {h : History H} {p : Pool H}

/-- The places have all events that have come into the queue, and no others. -/
theorem accepted_perm (route : Route h p) : h.accepted.Perm (Place.all.flatMap (standing h p)) := by
  rw [route.line, List.append_assoc]
  have work : h.handed.Perm (h.ended ++ p.working) := route.work.trans List.perm_append_comm
  simpa [Place.all, standing] using work.append_right (p.hand.toList ++ p.queue)

/-- At no place there are two events of the same number, and no two places have one in common. -/
theorem places_distinct (route : Route h p) :
    (∀ place, ((standing h p place).map (·.ticket)).Nodup) ∧
      Place.all.Pairwise fun a b => (standing h p a).Disjoint (standing h p b) := by
  have distinct := (route.accepted_perm.map (·.ticket)).nodup_iff.mp route.accepted_distinct
  rw [List.map_flatMap, List.nodup_flatMap] at distinct
  obtain ⟨each, apart⟩ := distinct
  refine ⟨fun place => each place place.mem_all, apart.imp ?_⟩
  intro a b tickets d ha hb
  exact tickets (List.mem_map_of_mem ha) (List.mem_map_of_mem hb)

theorem place_unique (route : Route h p) {d : Dispatch} {a b : Place} (ha : d ∈ standing h p a)
    (hb : d ∈ standing h p b) : a = b := by
  have apart := route.places_distinct.2
  by_contra hab
  -- `apart` compares a place with those after it only
  have : Std.Symm fun a b => (standing h p a).Disjoint (standing h p b) :=
    ⟨fun _ _ disjoint _ hb ha => disjoint ha hb⟩
  exact apart.forall a.mem_all b.mem_all hab ha hb

end Route

/-! ## Rules keep the route -/

variable [DecidableEq H]

/-- Numbers are not given out twice. -/
theorem Rule.tickets_le {p q : Pool H} {action : Action H} {notices : List (Notice H)}
    (rule : Rule p action q notices) : p.tickets ≤ q.tickets := by
  cases rule <;> simp [Pool.take, setPhase, endWorker, giveBack]

/-- Whatever there is notice of from a worker is about the event that it has. -/
theorem Rule.mem_working {p q : Pool H} {action : Action H} {notices : List (Notice H)}
    {d : Dispatch} {n : WorkerNotice H} (rule : Rule p action q notices)
    (told : .worker d n ∈ notices) : d ∈ p.working := by
  cases rule with
  | start worker =>
    obtain ⟨_, rfl⟩ : _ ∧ _ = d := by simpa using told
    exact dispatch_mem_working worker
  | turn worker =>
    obtain ⟨_, rfl⟩ : _ ∧ _ = d := by simpa using told
    exact dispatch_mem_working worker
  | finish worker =>
    obtain ⟨_, rfl⟩ : _ ∧ _ = d := by simpa using told
    exact dispatch_mem_working worker
  | close => cases p.closed <;> simp at told
  | join => cases p.joinable <;> simp at told
  | _ => simp at told

namespace Route

variable {h : History H} {p q : Pool H} {action : Action H} {notices : List (Notice H)}

/-- Events go through the places in the order in which they came. -/
theorem line_of_rule (route : Route h p) (rule : Rule p action q notices) :
    (h ++ [⟨action, notices⟩] : History H).accepted =
      (h ++ [⟨action, notices⟩] : History H).handed ++ q.hand.toList ++ q.queue := by
  have line := route.line
  cases rule with
  | accept => simp [line, List.filterMap_cons]
  | handOut hand => simp [line, hand, List.filterMap_cons]
  | @take d rest hand stage queue =>
    have left : (p.take d rest).queue = rest := rfl
    simp [line, hand, queue, toList_take, left]
  | start => simp [line, List.filterMap_cons, setPhase]
  | turn => simp [line, setPhase]
  | finish => simp [line, List.filterMap_cons, endWorker, giveBack]
  | close => cases p.closed <;> simp [line, List.filterMap_cons]
  | join => cases p.joinable <;> simp [line, List.filterMap_cons]
  | _ => simp [line, List.filterMap_cons]

/-- An event that is handed out gets a worker, and a worker that ends takes its own event along. -/
theorem work_of_rule (route : Route h p) (rule : Rule p action q notices) :
    (h ++ [⟨action, notices⟩] : History H).handed.Perm
      (q.working ++ (h ++ [⟨action, notices⟩] : History H).ended) := by
  have work := route.work
  cases rule with
  | @handOut d hand =>
    have moved : (h.handed ++ [d]).Perm ((p.working ++ [d]) ++ h.ended) :=
      calc
        (h.handed ++ [d]).Perm (p.working ++ h.ended ++ [d]) := work.append_right [d]
        _ = p.working ++ (h.ended ++ [d]) := List.append_assoc ..
        (p.working ++ (h.ended ++ [d])).Perm (p.working ++ ([d] ++ h.ended)) :=
          List.perm_append_comm.append_left _
        _ = p.working ++ [d] ++ h.ended := (List.append_assoc ..).symm
    simpa [List.filterMap_cons, working] using moved
  | @start t =>
    rw [← working_setPhase p t (Phase.turnTo p.registry.entries)] at work
    simpa [List.filterMap_cons] using work
  | turn => simpa [working_setPhase] using work
  | @finish t reply w progress told killed worker goes ends =>
    -- the event goes from the workers to the ended ones, whatever their order
    let after := (p.endWorker w.dispatch killed).1
    have moved : h.handed.Perm (after.working ++ (h.ended ++ [w.dispatch])) :=
      calc
        h.handed.Perm (p.working ++ h.ended) := work
        (p.working ++ h.ended).Perm (w.dispatch :: after.working ++ h.ended) :=
          (working_endWorker worker killed).append_right _
        (w.dispatch :: after.working ++ h.ended).Perm (after.working ++ h.ended ++ [w.dispatch]) :=
          (List.perm_append_singleton ..).symm
        _ = after.working ++ (h.ended ++ [w.dispatch]) := List.append_assoc ..
    simpa [List.filterMap_cons] using moved
  | close => cases p.closed <;> simpa [List.filterMap_cons] using work
  | join => cases p.joinable <;> simpa [List.filterMap_cons] using work
  | _ => simpa [List.filterMap_cons, Pool.take] using work

/-- A call that waits is new, was known before, or has gone into the queue. -/
theorem distinct_of_rule (route : Route h p) (rule : Rule p action q notices) :
    (((h ++ [⟨action, notices⟩] : History H).accepted ++ q.saving).map (·.ticket)).Nodup := by
  have distinct := route.distinct
  cases rule with
  | @ask ctx event =>
    -- the number of the new call is greater than all numbers so far
    have new : p.tickets ∉ (h.accepted ++ p.saving).map (·.ticket) := by
      intro hmem
      obtain ⟨d, hd, ticket⟩ := List.mem_map.mp hmem
      have := route.fresh d hd
      omega
    have grown : ((h.accepted ++ p.saving).map (·.ticket) ++ [p.tickets]).Nodup :=
      List.nodup_append.mpr ⟨distinct, by simp, by
        intro t ht u hu
        obtain rfl := List.mem_singleton.mp hu
        rintro rfl
        exact new ht⟩
    simpa [List.filterMap_cons] using grown
  | @refuseLate t _ _ _ waits why =>
    have fewer : (h.accepted ++ (p.unsave t).saving).Sublist (h.accepted ++ p.saving) :=
      List.eraseP_sublist.append_left _
    simpa [List.filterMap_cons] using distinct.sublist (fewer.map (·.ticket))
  | @accept t d waits =>
    have same : (h.accepted ++ p.saving).Perm (h.accepted ++ [d] ++ (p.unsave t).saving) := by
      rw [List.append_assoc]
      exact (perm_of_find? waits).append_left _
    simpa [List.filterMap_cons] using (same.map (·.ticket)).nodup_iff.mp distinct
  | @forsake t _ waits =>
    have fewer : (h.accepted ++ (p.unsave t).saving).Sublist (h.accepted ++ p.saving) :=
      List.eraseP_sublist.append_left _
    simpa using distinct.sublist (fewer.map (·.ticket))
  | close => cases p.closed <;> simpa [List.filterMap_cons] using distinct
  | join => cases p.joinable <;> simpa [List.filterMap_cons] using distinct
  | _ =>
    simpa [List.filterMap_cons, Pool.take, setPhase, endWorker, giveBack] using distinct

/-- An event that has come into the queue or may still come was known before, or its call has just
begun. -/
theorem known_of_rule (rule : Rule p action q notices) {d : Dispatch}
    (hd : d ∈ (h ++ [⟨action, notices⟩] : History H).accepted ++ q.saving) :
    d ∈ h.accepted ++ p.saving ∨
      (action = .publish d.ctx d.event ∧ notices = [.saving d] ∧ d.ticket = p.tickets ∧
        q.tickets = p.tickets + 1) := by
  cases rule with
  | ask =>
    obtain hd | hd | rfl : d ∈ h.accepted ∨ d ∈ p.saving ∨ d = ⟨p.tickets, _, _⟩ := by
      simpa [List.filterMap_cons] using hd
    · exact .inl (List.mem_append_left _ hd)
    · exact .inl (List.mem_append_right _ hd)
    · exact .inr ⟨rfl, rfl, rfl, rfl⟩
  | refuseLate =>
    obtain hd | hd : d ∈ h.accepted ∨ d ∈ p.saving.eraseP _ := by
      simpa [List.filterMap_cons] using hd
    · exact .inl (List.mem_append_left _ hd)
    · exact .inl (List.mem_append_right _ (List.mem_of_mem_eraseP hd))
  | accept waits =>
    obtain hd | rfl | hd : d ∈ h.accepted ∨ d = _ ∨ d ∈ p.saving.eraseP _ := by
      simpa [List.filterMap_cons, or_assoc] using hd
    · exact .inl (List.mem_append_left _ hd)
    · exact .inl (List.mem_append_right _ (List.mem_of_find?_eq_some waits))
    · exact .inl (List.mem_append_right _ (List.mem_of_mem_eraseP hd))
  | forsake =>
    obtain hd | hd : d ∈ h.accepted ∨ d ∈ p.saving.eraseP _ := by
      simpa [List.filterMap_cons] using hd
    · exact .inl (List.mem_append_left _ hd)
    · exact .inl (List.mem_append_right _ (List.mem_of_mem_eraseP hd))
  | close =>
    left
    cases p.closed <;> simpa [List.filterMap_cons] using hd
  | join =>
    left
    cases p.joinable <;> simpa [List.filterMap_cons] using hd
  | _ =>
    left
    simpa [List.filterMap_cons, Pool.take, setPhase, endWorker, giveBack] using hd

/-- **Every rule keeps the route.** -/
theorem of_rule (route : Route h p) (rule : Rule p action q notices) :
    Route (h ++ [⟨action, notices⟩]) q where
  line := route.line_of_rule rule
  work := route.work_of_rule rule
  distinct := route.distinct_of_rule rule
  fresh := by
    intro d hd
    rcases known_of_rule rule hd with hd | ⟨-, -, ticket, tickets⟩
    · exact Nat.lt_of_lt_of_le (route.fresh d hd) rule.tickets_le
    · omega
  origin := by
    intro d hd
    rcases known_of_rule rule hd with hd | ⟨rfl, rfl, -, -⟩
    · exact List.mem_append_left _ (route.origin d hd)
    · exact List.mem_append_right _ (List.mem_singleton_self _)
  done := by
    intro d n hn
    have known : d ∈ h.handed := by
      rcases History.mem_notices_snoc.mp hn with earlier | now
      · exact route.done d n earlier
      · exact route.working_subset_handed (rule.mem_working now)
    simp only [History.collect_append, List.mem_append]
    exact .inl known

/-- The route is kept by every run. -/
theorem trans {k : History H} (route : Route h p) (run : Run Pool.tick p k q) :
    Route (h ++ k) q := by
  refine run_induction (P := fun k q => Route (h ++ k) q) (by simpa using route) ?_ run
  intro k q r action notices route rule
  rw [← List.append_assoc]
  exact route.of_rule rule

theorem of_run {config : PoolConfig} (run : Run Pool.tick (.new config) h p) : Route h p :=
  (start config).trans run

end Route

/-- **No event is lost, handed out twice or overtaken.** After every run of a bus with any calls of
publish, replay and close, any answers of stores and handlers, panics among them, and in any order:
each event that has come into the queue is at one place and at no other, and there once; the events
handed to workers are the first of those that have come into the queue, in the same order; and a
handler is only called for an event that was handed to a worker, with the context and the event of
the call of publish from which it came. -/
theorem accepted_at_one_place {config : PoolConfig} {log : List (Deed H)} {b : Broker H}
    (run : Run Broker.step (Broker.new config) log b) :
    (∀ d ∈ (history log).accepted, ∃! place, d ∈ standing (history log) b.pool place) ∧
      (∀ place, ((standing (history log) b.pool place).map (·.ticket)).Nodup ∧
        ∀ d ∈ standing (history log) b.pool place, d ∈ (history log).accepted) ∧
      ((history log).accepted.map (·.ticket)).Nodup ∧
      (history log).handed <+: (history log).accepted ∧
      ∀ d entry, Notice.worker d (.called entry) ∈ (history log).notices →
        d ∈ (history log).handed ∧ ⟨.publish d.ctx d.event, [.saving d]⟩ ∈ history log := by
  have route : Route (history log) b.pool := .of_run (Broker.run_pool run)
  have perm := route.accepted_perm
  refine ⟨?_, ?_, route.accepted_distinct, route.handed_prefix, ?_⟩
  · intro d hd
    obtain ⟨place, -, there⟩ := List.mem_flatMap.mp (perm.mem_iff.mp hd)
    exact ⟨place, there, fun other elsewhere => route.place_unique elsewhere there⟩
  · intro place
    refine ⟨route.places_distinct.1 place, ?_⟩
    intro d there
    exact perm.mem_iff.mpr (List.mem_flatMap.mpr ⟨place, place.mem_all, there⟩)
  · intro d entry told
    have handed := route.done d _ told
    exact ⟨handed, route.origin d (List.mem_append_left _ (route.handed_prefix.subset handed))⟩

/-- Four events on a bus with one worker: the worker of the first has ended, a handler is called for
the second, the third waits for a permit and the fourth in the queue. -/
def busy : List (BrokerAction Unit) :=
  let publish (t : Nat) : List (BrokerAction Unit) :=
    [.pool (.publish default default), .pool (.saved t (.ok ()))]
  publish 0 ++ [.pool .dispatch, .pool .dispatch, .pool (.start 0), .pool (.subscribe ⟨1⟩ ())] ++
    publish 1 ++ [.pool .dispatch, .pool (.reply 0 (.marked (.returned (.ok ())))), .pool .dispatch,
      .pool .dispatch, .pool (.start 1), .pool (.reply 1 (.named (.returned "audit"))),
      .pool (.reply 1 (.asked (.returned true)))] ++
    publish 2 ++ [.pool .dispatch] ++ publish 3

theorem accepted_at_one_place_busy :
    ∃ (log : List (Deed Unit)) (b : Broker Unit),
      Run Broker.step (Broker.new ⟨2, 1, false⟩) log b ∧
      (history log).accepted.map (·.ticket) = [0, 1, 2, 3] ∧
      (Place.all.map fun place => (standing (history log) b.pool place).map (·.ticket)) =
        [[0], [1], [2], [3]] ∧
      ∀ d ∈ (history log).accepted, ∃! place, d ∈ standing (history log) b.pool place := by
  have run := Run.ofActions
    (show runAll Broker.step (Broker.new ⟨2, 1, false⟩) busy = some (_, _) from rfl)
  exact ⟨_, _, run, rfl, rfl, (accepted_at_one_place run).1⟩

end Pool

end DomainEvents.Bus
