import DomainEvents.Proofs.Bus.Publishing

/-!
# The course of a replay

A replay asks the store for events and publishes them one after the other, while anything else may
happen to the bus between two of its turns. `Broker.Rule` says what a step of a bus with replays can
do, and whose turn it is: the steps that are no replay's turn leave the replays as they are. So a
replay comes from one of its turns to the next as it was, and `Course` says where it can stand and
what it has done on the way, all of it: the events it has published are the first of those that the
store has loaded, each was accepted but perhaps the last, and its answer says how far it came.
-/

namespace DomainEvents.Bus

variable {H : Type}

/-- Nobody lets go of the bus but by a release. -/
theorem Pool.Rule.held_eq [DecidableEq H] {p q : Pool H} {action : Action H}
    {notices : List (Notice H)} (rule : Pool.Rule p action q notices) (stays : action ≠ .release) :
    q.held = p.held := by
  cases rule with
  | release => exact absurd rfl stays
  | _ => rfl

namespace Broker

/-- The replay of a number, if it goes on. -/
def replay? (b : Broker H) (number : Nat) : Option ReplayCall :=
  b.replays.find? (·.number == number)

/-! ## Rules -/

section

variable [DecidableEq H]

/-- A replay that has its turn: what it does, by what is next for it. -/
inductive Turned (b : Broker H) (call : ReplayCall) :
    ReplayStep → Broker H → List (Deed H) → Prop where
  /-- it has come to its end -/
  | answered {result : Except BusError Nat} :
    Turned b call (.answered result) (b.remove call.number) [.replayed call result]
  /-- it publishes its next event, and the store is asked to save it -/
  | asks {event : Event} {replay : Replay} {pool : Pool H}
      (rule : Pool.Rule b.pool (.publish call.ctx event) pool
        [.saving ⟨b.pool.tickets, call.ctx, event⟩])
      (there : ⟨b.pool.tickets, call.ctx, event⟩ ∈ pool.saving) :
    Turned b call (.publish event replay)
      ({ b with pool }.setWait call.number (.publishing b.pool.tickets replay))
      [.pool ⟨.publish call.ctx event, [.saving ⟨b.pool.tickets, call.ctx, event⟩]⟩]
  /-- its next event is refused at once, and it stops -/
  | refused {event : Event} {replay : Replay} {pool : Pool H} {error : BusError}
      (rule : Pool.Rule b.pool (.publish call.ctx event) pool
        (Pool.refusal ⟨b.pool.tickets, call.ctx, event⟩ error))
      (why : b.pool.RefusedAtOnce event error) :
    Turned b call (.publish event replay) ({ b with pool }.remove call.number)
      [.pool ⟨.publish call.ctx event, Pool.refusal ⟨b.pool.tickets, call.ctx, event⟩ error⟩,
        .stopped call replay, .replayed call (.error (replay.stop error))]

/-- The steps of a bus with replays, each with what it takes, whose turn it is and what is done. -/
inductive Rule (b : Broker H) :
    BrokerAction H → Broker H → Option Nat → List (Deed H) → Prop where
  /-- something happens to the pool that is nothing to a replay -/
  | act {action : Action H} {pool : Pool H} {notices : List (Notice H)}
      (rule : Pool.Rule b.pool action pool notices)
      (others : ∀ t, (action = .forsake t ∨ ∃ result, action = .saved t result) →
        b.publisher? t = none)
      (last : action = .release → b.replays = []) :
      Rule b (.pool action) { b with pool } none [.pool ⟨action, notices⟩]
  /-- a replay comes in -/
  | begins {ctx : Context} {name : String} {since : Time.Instant} (held : b.pool.held = true) :
      Rule b (.replay ctx name since)
        { b with replays := b.replays ++ [⟨b.calls, ctx, name, since, .loading⟩],
                 calls := b.calls + 1 }
        (some b.calls) [.loading ⟨b.calls, ctx, name, since, .loading⟩]
  /-- the store cannot load the events of a replay -/
  | unloaded {number : Nat} {source : StoreError} {call : ReplayCall}
      (waits : b.loader? number = some call) :
      Rule b (.loaded number (.error source)) (b.remove call.number) (some number)
        [.replayed call (.error (.persistence .load source))]
  /-- the store has loaded the events of a replay -/
  | loaded {number : Nat} {events : List Event} {call : ReplayCall} {c : Broker H}
      {deeds : List (Deed H)} (waits : b.loader? number = some call)
      (turned : Turned b call (Replay.turnTo 0 events.length events) c deeds) :
      Rule b (.loaded number (.ok events)) c (some number)
        (.replaying call events.length :: deeds)
  /-- the current event of a replay has come into the queue -/
  | accepted {t : Nat} {call : ReplayCall} {replay : Replay} {d : Dispatch} {pool : Pool H}
      {c : Broker H} {deeds : List (Deed H)} (waits : b.publisher? t = some (call, replay))
      (found : b.pool.saving.find? (·.ticket == t) = some d)
      (rule : Pool.Rule b.pool (.saved t (.ok ())) pool [.accepted d, .answered d (.ok ())])
      (turned : Turned { b with pool } call replay.next c deeds) :
      Rule b (.pool (.saved t (.ok ()))) c (some call.number)
        (.pool ⟨.saved t (.ok ()), [.accepted d, .answered d (.ok ())]⟩ :: deeds)
  /-- the current event of a replay is refused, and it stops -/
  | refused {t : Nat} {call : ReplayCall} {replay : Replay} {d : Dispatch} {pool : Pool H}
      {result : Except StoreError Unit} {error : BusError}
      (waits : b.publisher? t = some (call, replay))
      (found : b.pool.saving.find? (·.ticket == t) = some d)
      (rule : Pool.Rule b.pool (.saved t result) pool (Pool.refusal d error))
      (why : b.pool.RefusedLate result error) :
      Rule b (.pool (.saved t result)) ({ b with pool }.remove call.number) (some call.number)
        [.pool ⟨.saved t result, Pool.refusal d error⟩, .stopped call replay,
          .replayed call (.error (replay.stop error))]
  /-- the call of publish of a replay ends without an answer, and the replay with it -/
  | forsaken {t : Nat} {call : ReplayCall} {replay : Replay} {pool : Pool H}
      (waits : b.publisher? t = some (call, replay))
      (rule : Pool.Rule b.pool (.forsake t) pool []) :
      Rule b (.pool (.forsake t)) ({ b with pool }.remove call.number) (some call.number)
        [.pool ⟨.forsake t, []⟩]
  /-- a replay ends that waits for its events -/
  | gone {number : Nat} {call : ReplayCall} (waits : b.loader? number = some call) :
      Rule b (.forsakeReplay number) (b.remove number) (some number) []

variable {b c : Broker H} {deeds : List (Deed H)}

/-- What comes of publishing: the store is asked, or the event is refused. -/
theorem publish_cases {p q : Pool H} {ctx : Context} {event : Event} {notices : List (Notice H)}
    (step : p.step (.publish ctx event) = some (q, notices)) :
    (notices = [.saving ⟨p.tickets, ctx, event⟩] ∧ ⟨p.tickets, ctx, event⟩ ∈ q.saving) ∨
      ∃ error, notices = Pool.refusal ⟨p.tickets, ctx, event⟩ error ∧
        p.RefusedAtOnce event error := by
  cases Pool.Rule.of_step step with
  | refuse _ why => exact .inr ⟨_, rfl, why⟩
  | ask => exact .inl ⟨rfl, List.mem_append_right _ (List.mem_singleton_self _)⟩
  | register _ changes => cases changes

/-- What comes of the answer of the store to a call of publish. -/
theorem saved_cases {p q : Pool H} {t : Nat} {result : Except StoreError Unit}
    {notices : List (Notice H)} (step : p.step (.saved t result) = some (q, notices)) :
    ∃ d, p.saving.find? (·.ticket == t) = some d ∧
      ((result = .ok () ∧ notices = [.accepted d, .answered d (.ok ())]) ∨
        ∃ error, notices = Pool.refusal d error ∧ p.RefusedLate result error) := by
  cases Pool.Rule.of_step step with
  | refuseLate waits why => exact ⟨_, waits, .inr ⟨_, rfl, why⟩⟩
  | accept waits => exact ⟨_, waits, .inl ⟨rfl, rfl⟩⟩
  | register _ changes => cases changes

theorem Turned.of_turn {call : ReplayCall} {step : ReplayStep}
    (h : b.turn call step = some (c, deeds)) : Turned b call step c deeds := by
  cases step with
  | answered result =>
    obtain ⟨rfl, rfl⟩ := Prod.mk.inj (Option.some.inj h)
    exact .answered
  | publish event replay =>
    rw [turn] at h
    split at h
    case h_1 => cases h
    case h_2 pool notices step =>
      have rule := Pool.Rule.of_step step
      rcases publish_cases step with ⟨rfl, there⟩ | ⟨error, rfl, why⟩
      · obtain ⟨rfl, rfl⟩ := Prod.mk.inj (Option.some.inj h)
        exact .asks rule there
      · obtain ⟨rfl, rfl⟩ := Prod.mk.inj (Option.some.inj h)
        exact .refused rule why

theorem Rule.of_saved {t : Nat} {result : Except StoreError Unit}
    (h : b.saved t result = some (c, deeds)) :
    Rule b (.pool (.saved t result)) c (b.turnOf (.pool (.saved t result))) deeds := by
  rw [saved] at h
  split at h
  case h_1 => cases h
  case h_2 pool notices step =>
    have rule := Pool.Rule.of_step step
    have nobodys (none : b.publisher? t = none) (u : Nat) (about : Action.saved t result =
        .forsake (H := H) u ∨ ∃ other, Action.saved (H := H) t result = .saved u other) :
        b.publisher? u = Option.none := by
      rcases about with about | ⟨other, about⟩
      · cases about
      · cases about
        exact none
    obtain ⟨d, found, ⟨rfl, rfl⟩ | ⟨error, rfl, why⟩⟩ := saved_cases step
    · rcases waits : b.publisher? t with _ | ⟨call, replay⟩
      · rw [waits] at h
        obtain ⟨rfl, rfl⟩ := Prod.mk.inj (Option.some.inj h)
        rw [turnOf, waits]
        exact .act rule (nobodys waits) (by simp)
      · rw [waits] at h
        obtain ⟨⟨after, told⟩, turn, same⟩ := Option.map_eq_some_iff.mp h
        obtain ⟨rfl, rfl⟩ := Prod.mk.inj same
        rw [turnOf, waits]
        exact .accepted waits found rule (.of_turn turn)
    · rcases waits : b.publisher? t with _ | ⟨call, replay⟩
      · rw [waits] at h
        obtain ⟨rfl, rfl⟩ := Prod.mk.inj (Option.some.inj h)
        rw [turnOf, waits]
        exact .act rule (nobodys waits) (by simp)
      · rw [waits] at h
        obtain ⟨rfl, rfl⟩ := Prod.mk.inj (Option.some.inj h)
        rw [turnOf, waits]
        exact .refused waits found rule why

theorem Rule.of_forsake {t : Nat} (h : b.forsake t = some (c, deeds)) :
    Rule b (.pool (.forsake t)) c (b.turnOf (.pool (.forsake t))) deeds := by
  obtain ⟨⟨after, told⟩, act, same⟩ := Option.map_eq_some_iff.mp h
  obtain ⟨⟨pool, notices⟩, step, ends⟩ := Option.map_eq_some_iff.mp act
  obtain ⟨rfl, rfl⟩ := Prod.mk.inj ends
  have rule := Pool.Rule.of_step step
  obtain rfl : notices = [] := by
    cases rule with
    | forsake => rfl
    | register _ changes => cases changes
  rcases waits : b.publisher? t with _ | ⟨call, replay⟩
  · rw [waits] at same
    obtain ⟨rfl, rfl⟩ := Prod.mk.inj same
    rw [turnOf, waits]
    refine .act rule ?_ nofun
    rintro u (about | ⟨other, about⟩)
    · cases about
      exact waits
    · cases about
  · rw [waits] at same
    obtain ⟨rfl, rfl⟩ := Prod.mk.inj same
    rw [turnOf, waits]
    exact .forsaken waits rule

theorem Rule.of_loaded {number : Nat} {result : Except StoreError (List Event)}
    (h : b.loaded number result = some (c, deeds)) :
    Rule b (.loaded number result) c (some number) deeds := by
  rw [Broker.loaded] at h
  split at h
  case h_1 => cases h
  case h_2 call waits =>
    obtain ⟨⟨after, told⟩, turn, same⟩ := Option.map_eq_some_iff.mp h
    obtain ⟨rfl, rfl⟩ := Prod.mk.inj same
    cases result with
    | ok events => exact .loaded waits (.of_turn turn)
    | error source =>
      obtain ⟨rfl, rfl⟩ := Prod.mk.inj (Option.some.inj turn)
      exact .unloaded waits

/-- An action of which no replay hears is a step of the pool. -/
theorem Rule.of_act {action : Action H} (h : b.act action = some (c, deeds))
    (others : ∀ t, action ≠ .forsake t ∧ ∀ result, action ≠ .saved t result)
    (last : action = .release → b.replays = []) :
    Rule b (.pool action) c none deeds := by
  obtain ⟨⟨pool, notices⟩, step, same⟩ := Option.map_eq_some_iff.mp h
  obtain ⟨rfl, rfl⟩ := Prod.mk.inj same
  refine .act (.of_step step) ?_ last
  rintro t (about | ⟨result, about⟩)
  · exact absurd about (others t).1
  · exact absurd about ((others t).2 result)

/-- **A bus with replays does nothing but follow its rules.** -/
theorem Rule.of_step {action : BrokerAction H} (h : b.step action = some (c, deeds)) :
    Rule b action c (b.turnOf action) deeds := by
  cases action with
  | pool action =>
    cases action with
    | saved t result => exact .of_saved h
    | forsake t => exact .of_forsake h
    | release =>
      rw [step] at h
      split at h
      case isTrue last => exact .of_act h (by simp) fun _ => List.isEmpty_iff.mp last
      case isFalse => cases h
    | _ => exact .of_act h (by simp) nofun
  | replay ctx name since =>
    rw [step, replay] at h
    split at h
    case isTrue held =>
      obtain ⟨rfl, rfl⟩ := Prod.mk.inj (Option.some.inj h)
      exact .begins held
    case isFalse => cases h
  | loaded number result => exact .of_loaded h
  | forsakeReplay number =>
    obtain ⟨call, waits, same⟩ := Option.map_eq_some_iff.mp h
    obtain ⟨rfl, rfl⟩ := Prod.mk.inj same
    exact .gone waits

end

/-! ## Replays by their numbers -/

variable {b c : Broker H} {n t : Nat} {call : ReplayCall} {replay : Replay}

theorem number_of_replay? (found : b.replay? n = some call) : call.number = n := by
  simpa using List.find?_some found

theorem mem_of_publisher? (waits : b.publisher? t = some (call, replay)) :
    call ∈ b.replays ∧ call.wait = .publishing t replay := by
  obtain ⟨c, there, found⟩ := List.exists_of_findSome?_eq_some waits
  split at found
  case h_1 u r wait =>
    split at found
    case isTrue same =>
      obtain ⟨rfl, rfl⟩ := Prod.mk.inj (Option.some.inj found)
      obtain rfl : u = t := by simpa using same
      exact ⟨there, wait⟩
    case isFalse => cases found
  case h_2 => cases found

/-- Some replay is found to wait for a call of publish if there is one. -/
theorem exists_publisher? (there : call ∈ b.replays) (wait : call.wait = .publishing t replay) :
    ∃ found, b.publisher? t = some found := by
  rw [← Option.isSome_iff_exists, publisher?, List.findSome?_isSome_iff]
  exact ⟨call, there, by simp [wait]⟩

theorem mem_of_loader? (waits : b.loader? n = some call) :
    call ∈ b.replays ∧ call.number = n ∧ call.wait = .loading := by
  have found := List.find?_some waits
  obtain ⟨number, loading⟩ := Bool.and_eq_true_iff.mp found
  refine ⟨List.mem_of_find?_eq_some waits, by simpa using number, ?_⟩
  revert loading
  cases call.wait <;> simp

/-- Taking out one thing does not change what else is found. -/
theorem find?_eraseP {α : Type} {f g : α → Bool} (apart : ∀ a, f a = true → g a = false)
    (l : List α) : (l.eraseP g).find? f = l.find? f := by
  induction l with
  | nil => rfl
  | cons a l ih =>
    rcases erased : g a with _ | _
    · rw [List.eraseP_cons_of_neg (by simp [erased]), List.find?_cons, List.find?_cons, ih]
    · have other : f a = false := Bool.eq_false_iff.mpr fun found => by
        rw [apart a found] at erased
        cases erased
      rw [List.eraseP_cons_of_pos erased, List.find?_cons_of_neg (by simp [other])]

theorem replay?_remove_of_ne {m : Nat} (ne : m ≠ n) : (b.remove n).replay? m = b.replay? m :=
  find?_eraseP (by simpa using fun a same => same ▸ ne) b.replays

/-- A replay that waits for something else is still there, and no other has changed. -/
theorem replay?_setWait (b : Broker H) (n : Nat) (wait : ReplayWait) (m : Nat) :
    (b.setWait n wait).replay? m =
      (b.replay? m).map fun c => if c.number == n then { c with wait } else c := by
  rw [replay?, setWait, List.find?_map]
  refine congrArg (Option.map _) (congrArg (List.find? · _) (funext fun c => ?_))
  simp only [Function.comp_apply]
  split <;> rfl

theorem replay?_setWait_of_ne {m : Nat} (ne : m ≠ n) (wait : ReplayWait) :
    (b.setWait n wait).replay? m = b.replay? m := by
  rw [replay?_setWait]
  rcases found : b.replay? m with _ | c
  · rfl
  · rw [Option.map_some, if_neg (by simpa [number_of_replay? found] using ne)]

theorem replay?_setWait_self (found : b.replay? n = some call) (wait : ReplayWait) :
    (b.setWait n wait).replay? n = some { call with wait } := by
  rw [replay?_setWait, found, Option.map_some, if_pos (by simpa using number_of_replay? found)]

/-! ## What is kept -/

/-- What holds of the replays of a bus at any time. -/
structure Orderly (b : Broker H) : Prop where
  /-- no two replays have the same number -/
  numbers : (b.replays.map (·.number)).Nodup
  /-- the numbers of replays to come are new -/
  fresh : ∀ c ∈ b.replays, c.number < b.calls
  /-- somebody holds the bus as long as a replay goes on -/
  held : b.replays ≠ [] → b.pool.held = true
  /-- a replay waits for a call that has come in -/
  old : ∀ c ∈ b.replays, ∀ t r, c.wait = .publishing t r → t < b.pool.tickets
  /-- no two replays wait for the same call -/
  apart : ∀ c ∈ b.replays, ∀ e ∈ b.replays, ∀ t r r',
    c.wait = .publishing t r → e.wait = .publishing t r' → c.number = e.number

namespace Orderly

theorem start (config : PoolConfig) : Orderly (Broker.new config : Broker H) where
  numbers := List.nodup_nil
  fresh := nofun
  held := fun there => absurd rfl there
  old := nofun
  apart := nofun

/-- A replay that goes on is found by its number. -/
theorem replay?_of_mem (orderly : Orderly b) (there : call ∈ b.replays) :
    b.replay? call.number = some call := by
  obtain ⟨e, found⟩ := Pool.find?_of_any (l := b.replays) (f := (·.number == call.number))
    (List.any_eq_true.mpr ⟨call, there, beq_self_eq_true _⟩)
  have same : e = call := List.inj_on_of_nodup_map orderly.numbers (List.mem_of_find?_eq_some found)
    there (by simpa using List.find?_some found)
  rw [← same] at found ⊢
  exact found

theorem replay?_remove_self (orderly : Orderly b) (n : Nat) : (b.remove n).replay? n = none := by
  rcases found : b.replay? n with _ | call
  · refine List.find?_eq_none.mpr fun c there => ?_
    exact List.find?_eq_none.mp found c (List.mem_of_mem_eraseP there)
  · have numbers := ((perm_of_find? found).map (·.number)).nodup_iff.mp orderly.numbers
    refine List.find?_eq_none.mpr fun c there same => ?_
    have number : c.number = call.number :=
      (by simpa using same : c.number = n).trans (number_of_replay? found).symm
    exact (List.nodup_cons.mp numbers).1 (List.mem_map.mpr ⟨c, there, number⟩)

theorem remove (orderly : Orderly b) (n : Nat) : Orderly (b.remove n) := by
  have fewer : (b.remove n).replays.Sublist b.replays := List.eraseP_sublist
  refine ⟨orderly.numbers.sublist (fewer.map _),
    fun c there => orderly.fresh c (fewer.subset there), ?_,
    fun c there => orderly.old c (fewer.subset there),
    fun c there e other => orderly.apart c (fewer.subset there) e (fewer.subset other)⟩
  intro some
  refine orderly.held ?_
  intro none
  rw [none] at fewer
  exact some (List.sublist_nil.mp fewer)

/-- A replay waits for a call that has just come in. -/
theorem setWait (orderly : Orderly b) {t : Nat} (now : t < b.pool.tickets)
    (new : ∀ c ∈ b.replays, ∀ u r, c.wait = .publishing u r → u ≠ t) (n : Nat) (replay : Replay) :
    Orderly (b.setWait n (.publishing t replay)) := by
  -- a replay is there as it was, or it is the one that waits for the call
  have known {c : ReplayCall} (there : c ∈ (b.setWait n (.publishing t replay)).replays) :
      ∃ e ∈ b.replays, e.number = c.number ∧
        (c = e ∨ c.number = n ∧ c.wait = .publishing t replay) := by
    obtain ⟨e, before, rfl⟩ := List.mem_map.mp there
    refine ⟨e, before, ?_⟩
    by_cases same : e.number = n
    · simp [same]
    · simp [same]
  have numbers : ((b.setWait n (.publishing t replay)).replays.map (·.number)) =
      b.replays.map (·.number) := by
    rw [Broker.setWait, List.map_map]
    refine List.map_congr_left fun c _ => ?_
    simp only [Function.comp_apply]
    split <;> rfl
  refine ⟨numbers ▸ orderly.numbers, ?_, ?_, ?_, ?_⟩
  · intro c there
    obtain ⟨e, before, number, -⟩ := known there
    exact number ▸ orderly.fresh e before
  · intro some
    exact orderly.held fun none => some (by rw [Broker.setWait, none]; rfl)
  · intro c there u r wait
    obtain ⟨e, before, -, rfl | ⟨-, now'⟩⟩ := known there
    · exact orderly.old c before u r wait
    · obtain ⟨rfl, -⟩ := ReplayWait.publishing.inj (wait.symm.trans now')
      exact now
  · intro c there e other u r r' wait wait'
    obtain ⟨c', before, number, same⟩ := known there
    obtain ⟨e', before', number', same'⟩ := known other
    rcases same with rfl | ⟨here, mine⟩
    · rcases same' with rfl | ⟨here', mine'⟩
      · exact orderly.apart c before e before' u r r' wait wait'
      · obtain ⟨rfl, -⟩ := ReplayWait.publishing.inj (wait'.symm.trans mine')
        exact absurd rfl (new c before _ _ wait)
    · rcases same' with rfl | ⟨here', mine'⟩
      · obtain ⟨rfl, -⟩ := ReplayWait.publishing.inj (wait.symm.trans mine)
        exact absurd rfl (new e before' _ _ wait')
      · exact here.trans here'.symm

variable [DecidableEq H]

/-- A step of the pool leaves the replays in order, but the last holder cannot let go of the bus. -/
theorem stepped {action : Action H} {pool : Pool H} {notices : List (Notice H)}
    (orderly : Orderly b) (rule : Pool.Rule b.pool action pool notices)
    (last : action = .release → b.replays = []) : Orderly { b with pool } where
  numbers := orderly.numbers
  fresh := orderly.fresh
  held := fun there =>
    (rule.held_eq fun release => there (last release)).trans (orderly.held there)
  old := fun c there t r wait => Nat.lt_of_lt_of_le (orderly.old c there t r wait) rule.tickets_le
  apart := orderly.apart

/-- A replay that ends in a step of the pool does not go on. -/
theorem replay?_stopped {action : Action H} {pool : Pool H} {notices : List (Notice H)}
    (orderly : Orderly b) (rule : Pool.Rule b.pool action pool notices)
    (last : action = .release → b.replays = []) {n : Nat} :
    Broker.replay? (Broker.remove { b with pool } n) n = none :=
  (orderly.stepped rule last).replay?_remove_self n

theorem of_turned {step : ReplayStep} {deeds : List (Deed H)} (orderly : Orderly b)
    (turned : Turned b call step c deeds) : Orderly c := by
  cases turned with
  | answered => exact orderly.remove _
  | @asks event replay pool rule =>
    have next : pool.tickets = b.pool.tickets + 1 := by
      cases rule
      rfl
    refine (orderly.stepped rule nofun).setWait ?_ ?_ _ _
    · show b.pool.tickets < pool.tickets
      omega
    · intro e there t r wait
      exact Nat.ne_of_lt (orderly.old e there t r wait)
  | refused rule => exact (orderly.stepped rule nofun).remove _

/-- **Every rule leaves the replays in order.** -/
theorem of_rule {action : BrokerAction H} {whose : Option Nat} {deeds : List (Deed H)}
    (orderly : Orderly b) (rule : Rule b action c whose deeds) : Orderly c := by
  cases rule with
  | act rule _ last => exact orderly.stepped rule last
  | begins held =>
    -- the replay that comes in is new, and waits for no call of publish
    refine ⟨?_, ?_, fun _ => held, ?_, ?_⟩
    · rw [List.map_append]
      refine List.nodup_append.mpr ⟨orderly.numbers, List.nodup_singleton _, ?_⟩
      intro n before m now
      obtain ⟨e, there, rfl⟩ := List.mem_map.mp before
      obtain rfl := List.mem_singleton.mp now
      exact Nat.ne_of_lt (orderly.fresh e there)
    · refine List.forall_mem_append.mpr ⟨fun e there => ?_, ?_⟩
      · exact Nat.lt_succ_of_lt (orderly.fresh e there)
      · exact List.forall_mem_singleton.mpr (Nat.lt_succ_self _)
    · exact List.forall_mem_append.mpr ⟨orderly.old, List.forall_mem_singleton.mpr nofun⟩
    · refine List.forall_mem_append.mpr ⟨fun e there => ?_, List.forall_mem_singleton.mpr ?_⟩
      · exact List.forall_mem_append.mpr
          ⟨orderly.apart e there, List.forall_mem_singleton.mpr nofun⟩
      · exact fun _ _ => nofun
  | unloaded => exact orderly.remove _
  | loaded _ turned => exact orderly.of_turned turned
  | accepted _ _ rule turned => exact (orderly.stepped rule nofun).of_turned turned
  | refused _ _ rule => exact (orderly.stepped rule nofun).remove _
  | forsaken _ rule => exact (orderly.stepped rule nofun).remove _
  | gone => exact orderly.remove _

end Orderly

/-! ## The turns of others -/

section

variable [DecidableEq H] {action : BrokerAction H} {whose : Option Nat} {told : List (Deed H)}

/-- Whose turn it is is known from the action. -/
theorem Rule.whose_eq (rule : Rule b action c whose told) : whose = b.turnOf action := by
  cases rule with
  | @act action pool notices rule others =>
    cases action with
    | saved t result => rw [turnOf, others t (.inr ⟨result, rfl⟩), Option.map_none]
    | forsake t => rw [turnOf, others t (.inl rfl), Option.map_none]
    | _ => rfl
  | accepted waits => rw [turnOf, waits, Option.map_some]
  | refused waits => rw [turnOf, waits, Option.map_some]
  | forsaken waits => rw [turnOf, waits, Option.map_some]
  | _ => rfl

omit [DecidableEq H] in
/-- When the call of publish ends for which a replay waits, it is the turn of that replay. -/
theorem Orderly.turnOf_eq (orderly : Orderly b) (there : call ∈ b.replays)
    (wait : call.wait = .publishing t replay)
    (ends : action = .pool (.forsake t) ∨ ∃ result, action = .pool (.saved t result)) :
    b.turnOf action = some call.number := by
  obtain ⟨⟨other, r⟩, waits⟩ := exists_publisher? there wait
  obtain ⟨known, same⟩ := mem_of_publisher? waits
  have number := orderly.apart other known call there t r replay same wait
  rcases ends with rfl | ⟨result, rfl⟩
  · rw [turnOf, waits, Option.map_some, number]
  · rw [turnOf, waits, Option.map_some, number]

theorem Turned.leaves {step : ReplayStep} (turned : Turned b call step c told)
    (ne : n ≠ call.number) : c.replay? n = b.replay? n := by
  cases turned with
  | answered => exact replay?_remove_of_ne ne
  | @asks _ _ pool => exact replay?_setWait_of_ne (b := { b with pool }) ne _
  | @refused _ _ pool => exact replay?_remove_of_ne (b := { b with pool }) ne

/-- A replay is left alone when it is not its turn. -/
theorem Rule.leaves (rule : Rule b action c whose told) (other : whose ≠ some n) :
    c.replay? n = b.replay? n ∧ action.loaded? n = none := by
  have ne {m : Nat} (turn : whose = some m) : n ≠ m := by
    rintro rfl
    exact other turn
  cases rule with
  | act => exact ⟨rfl, rfl⟩
  | begins =>
    refine ⟨?_, rfl⟩
    rw [replay?, List.find?_append, List.find?_cons_of_neg (by simpa using (ne rfl).symm)]
    exact Option.or_none
  | unloaded waits =>
    obtain ⟨-, rfl, -⟩ := mem_of_loader? waits
    exact ⟨replay?_remove_of_ne (ne rfl), if_neg (ne rfl).symm⟩
  | loaded waits turned =>
    obtain ⟨-, rfl, -⟩ := mem_of_loader? waits
    exact ⟨turned.leaves (ne rfl), if_neg (ne rfl).symm⟩
  | accepted _ _ _ turned => exact ⟨turned.leaves (ne rfl), rfl⟩
  | @refused _ _ _ _ pool => exact ⟨replay?_remove_of_ne (b := { b with pool }) (ne rfl), rfl⟩
  | @forsaken _ _ _ pool => exact ⟨replay?_remove_of_ne (b := { b with pool }) (ne rfl), rfl⟩
  | gone => exact ⟨replay?_remove_of_ne (ne rfl), rfl⟩

theorem Turned.left {step : ReplayStep} (turned : Turned b call step c told)
    (stood : b.replay? n ≠ none) (gone : c.replay? n = none) :
    ∃ e result, .replayed e result ∈ told := by
  cases turned with
  | answered => exact ⟨_, _, List.mem_singleton_self _⟩
  | @asks _ _ pool =>
    rw [replay?_setWait, Option.map_eq_none_iff] at gone
    exact absurd gone stood
  | refused => exact ⟨_, _, List.mem_cons_of_mem _ (List.mem_cons_of_mem _ List.mem_cons_self)⟩

/-- A replay that ends has its answer, or its caller has gone away. -/
theorem Rule.left (rule : Rule b action c whose told) (stood : b.replay? n ≠ none)
    (gone : c.replay? n = none) :
    whose = some n ∧ ((∃ e result, .replayed e result ∈ told) ∨ action = .forsakeReplay n ∨
      ∃ t, action = .pool (.forsake t)) := by
  have own : whose = some n := by
    by_contra other
    exact stood ((rule.leaves other).1.symm.trans gone)
  refine ⟨own, ?_⟩
  cases rule with
  | act => cases own
  | begins =>
    rw [replay?, List.find?_append, Option.or_eq_none_iff] at gone
    exact absurd gone.1 stood
  | unloaded => exact .inl ⟨_, _, List.mem_singleton_self _⟩
  | loaded _ turned =>
    obtain ⟨e, result, there⟩ := turned.left stood gone
    exact .inl ⟨e, result, List.mem_cons_of_mem _ there⟩
  | @accepted _ _ _ _ pool _ _ _ _ _ turned =>
    obtain ⟨e, result, there⟩ := turned.left (b := { b with pool }) stood gone
    exact .inl ⟨e, result, List.mem_cons_of_mem _ there⟩
  | refused =>
    exact .inl ⟨_, _, List.mem_cons_of_mem _ (List.mem_cons_of_mem _ List.mem_cons_self)⟩
  | forsaken => exact .inr (.inr ⟨_, rfl⟩)
  | gone =>
    obtain rfl := Option.some.inj own
    exact .inr (.inl rfl)

theorem Turned.calls_eq {step : ReplayStep} (turned : Turned b call step c told) :
    c.calls = b.calls := by
  cases turned <;> rfl

/-- A number of a replay is given out when the replay comes in. -/
theorem Rule.calls_cases (rule : Rule b action c whose told) :
    c.calls = b.calls ∨ c.calls = b.calls + 1 ∧ whose = some b.calls ∧
      ∃ ctx name since, action = .replay ctx name since := by
  cases rule with
  | begins => exact .inr ⟨rfl, rfl, _, _, _, rfl⟩
  | loaded _ turned => exact .inl turned.calls_eq
  | accepted _ _ _ turned => exact .inl turned.calls_eq
  | _ => exact .inl rfl

/-- Numbers of replays are not given out twice. -/
theorem Rule.calls_le (rule : Rule b action c whose told) : b.calls ≤ c.calls := by
  rcases rule.calls_cases with same | ⟨more, -⟩ <;> omega

/-- A replay that has its turn has come in. -/
theorem Orderly.known_of_rule (orderly : Orderly b) (rule : Rule b action c (some n) told) :
    n < c.calls := by
  have known {call : ReplayCall} (there : call ∈ b.replays) : call.number < c.calls :=
    Nat.lt_of_lt_of_le (orderly.fresh call there) rule.calls_le
  generalize own : some n = whose at rule
  cases rule with
  | act => cases own
  | begins =>
    obtain rfl := Option.some.inj own
    exact Nat.lt_succ_self _
  | unloaded waits =>
    obtain rfl := Option.some.inj own
    obtain ⟨there, rfl, -⟩ := mem_of_loader? waits
    exact known there
  | loaded waits =>
    obtain rfl := Option.some.inj own
    obtain ⟨there, rfl, -⟩ := mem_of_loader? waits
    exact known there
  | accepted waits =>
    obtain rfl := Option.some.inj own
    exact known (mem_of_publisher? waits).1
  | refused waits =>
    obtain rfl := Option.some.inj own
    exact known (mem_of_publisher? waits).1
  | forsaken waits =>
    obtain rfl := Option.some.inj own
    exact known (mem_of_publisher? waits).1
  | gone waits =>
    obtain rfl := Option.some.inj own
    obtain ⟨there, rfl, -⟩ := mem_of_loader? waits
    exact known there

/-- A replay that comes in waits for its events. -/
theorem Orderly.comes {ctx : Context} {name : String} {since : Time.Instant} (later : Orderly c)
    (rule : Rule b (.replay ctx name since) c whose told) :
    let call : ReplayCall := ⟨b.calls, ctx, name, since, .loading⟩
    whose = some b.calls ∧ told = [.loading call] ∧ c.replay? b.calls = some call := by
  cases rule with
  | begins =>
    have there := List.mem_append_right b.replays (List.mem_singleton_self
      (⟨b.calls, ctx, name, since, .loading⟩ : ReplayCall))
    exact ⟨rfl, rfl, later.replay?_of_mem there⟩

/-- When it is no replay's turn the pool makes a step. -/
theorem Rule.plain (rule : Rule b action c none told) :
    ∃ act notices, action = .pool act ∧ told = [.pool ⟨act, notices⟩] := by
  generalize nobody : none = whose at rule
  cases rule with
  | act => exact ⟨_, _, rfl, rfl⟩
  | _ => cases nobody

variable {h : History H} {d : Dispatch}

theorem Turned.keeps {step : ReplayStep} (turned : Turned b call step c told)
    (route : Pool.Route h b.pool) (waits : d ∈ b.pool.saving) : d ∈ c.pool.saving := by
  cases turned with
  | answered => exact waits
  | asks rule => exact (Pool.waits_of_rule route waits rule nofun nofun).1
  | refused rule => exact (Pool.waits_of_rule route waits rule nofun nofun).1

/-- A call of publish waits until the store answers, or its caller goes away. -/
theorem Rule.keeps (rule : Rule b action c whose told) (route : Pool.Route h b.pool)
    (waits : d ∈ b.pool.saving)
    (going : ¬(action = .pool (.forsake d.ticket) ∨
      ∃ result, action = .pool (.saved d.ticket result))) : d ∈ c.pool.saving := by
  have keeps {action : Action H} {pool : Pool H} {notices : List (Notice H)}
      (rule : Pool.Rule b.pool action pool notices)
      (going : ¬(BrokerAction.pool action = .pool (.forsake d.ticket) ∨
        ∃ result, BrokerAction.pool action = .pool (.saved d.ticket result))) :
      d ∈ pool.saving := by
    refine (Pool.waits_of_rule route waits rule ?_ ?_).1
    · rintro result rfl
      exact going (.inr ⟨result, rfl⟩)
    · rintro rfl
      exact going (.inl rfl)
  cases rule with
  | act rule => exact keeps rule going
  | begins => exact waits
  | unloaded => exact waits
  | loaded _ turned => exact turned.keeps route waits
  | accepted _ _ rule turned => exact turned.keeps (route.of_rule rule) (keeps rule going)
  | refused _ _ rule => exact keeps rule going
  | forsaken _ rule => exact keeps rule going
  | gone => exact waits

end

/-! ## Courses -/

/-- The store is asked to save an event. -/
def asks (d : Dispatch) : Deed H := .pool ⟨.publish d.ctx d.event, [.saving d]⟩

/-- An event is published: the store is asked to save it, and it comes into the queue. -/
def publishes (d : Dispatch) : List (Deed H) :=
  [asks d, .pool ⟨.saved d.ticket (.ok ()), [.accepted d, .answered d (.ok ())]⟩]

/-- An event is refused with an error, at once or after the store was asked to save it. -/
inductive Refuses (d : Dispatch) (error : BusError) : List (Deed H) → Prop where
  | atOnce {p : Pool H} (why : p.RefusedAtOnce d.event error) :
      Refuses d error [.pool ⟨.publish d.ctx d.event, Pool.refusal d error⟩]
  | late {p : Pool H} {result : Except StoreError Unit} (why : p.RefusedLate result error) :
      Refuses d error [asks d, .pool ⟨.saved d.ticket result, Pool.refusal d error⟩]

/-- The error of an event that is refused is never that of a replay. -/
theorem Refuses.not_replay {d : Dispatch} {error : BusError} {deeds : List (Deed H)}
    (refuses : Refuses d error deeds) (replayed total : Nat) (source : BusError) :
    error ≠ .replay replayed total source := by
  cases refuses with
  | atOnce why => cases why <;> nofun
  | late why => cases why <;> nofun

/-- A replay begins with the events that the store has loaded. -/
def begins (call : ReplayCall) (loaded : List Event) : List (Deed H) :=
  [.loading call, .replaying call loaded.length]

/-- How far a replay has come: what the store has answered to it, all that it has done, and what is
there of it now, while the events `saving` wait for the store. -/
inductive Course (saving : List Dispatch) (call : ReplayCall) :
    List (Except StoreError (List Event)) → List (Deed H) → Option ReplayCall → Prop where
  /-- it waits for its events -/
  | loading : Course saving call [] [.loading call] (some call)
  /-- it has ended before they came -/
  | gone : Course saving call [] [.loading call] none
  /-- the store could not load them, and nothing was published -/
  | unloaded {source : StoreError} : Course saving call [.error source]
      [.loading call, .replayed call (.error (.persistence .load source))] none
  /-- the first events were published, and the next one waits for the store -/
  | publishing {loaded rest : List Event} {ds : List Dispatch} {d : Dispatch}
      (split : ds.map (·.event) ++ d.event :: rest = loaded)
      (own : ∀ e ∈ ds ++ [d], e.ctx = call.ctx) (there : d ∈ saving) :
      Course saving call [.ok loaded] (begins call loaded ++ ds.flatMap publishes ++ [asks d])
        (some { call with wait := .publishing d.ticket ⟨ds.length, loaded.length, rest⟩ })
  /-- the first events were published, and the replay has ended while the next one waited for the
  store -/
  | forsaken {loaded rest : List Event} {ds : List Dispatch} {d : Dispatch}
      (split : ds.map (·.event) ++ d.event :: rest = loaded)
      (own : ∀ e ∈ ds ++ [d], e.ctx = call.ctx) :
      Course saving call [.ok loaded]
        (begins call loaded ++ ds.flatMap publishes ++ [asks d, .pool ⟨.forsake d.ticket, []⟩]) none
  /-- the first events were published, and the next one was refused -/
  | refused {loaded rest : List Event} {ds : List Dispatch} {d : Dispatch} {error : BusError}
      {deeds : List (Deed H)} {wait : ReplayWait}
      (split : ds.map (·.event) ++ d.event :: rest = loaded)
      (own : ∀ e ∈ ds ++ [d], e.ctx = call.ctx) (refuses : Refuses d error deeds) :
      Course saving call [.ok loaded]
        (begins call loaded ++ ds.flatMap publishes ++ (deeds ++
          [.stopped { call with wait } ⟨ds.length, loaded.length, rest⟩,
            .replayed { call with wait } (.error (.replay ds.length loaded.length error))])) none
  /-- all events were published -/
  | completed {loaded : List Event} {ds : List Dispatch} {wait : ReplayWait}
      (all : ds.map (·.event) = loaded) (own : ∀ e ∈ ds, e.ctx = call.ctx) :
      Course saving call [.ok loaded]
        (begins call loaded ++ ds.flatMap publishes ++
          [.replayed { call with wait } (.ok loaded.length)]) none

namespace Course

variable {saving more : List Dispatch} {answers : List (Except StoreError (List Event))}
  {deeds : List (Deed H)} {stands : Option ReplayCall}

/-- A replay stays where it is as long as its call of publish waits. -/
theorem of_saving (course : Course saving call answers deeds stands)
    (kept : ∀ d ∈ saving, ∀ r, stands = some { call with wait := .publishing d.ticket r } →
      d ∈ more) : Course more call answers deeds stands := by
  cases course with
  | loading => exact .loading
  | gone => exact .gone
  | unloaded => exact .unloaded
  | publishing split own there => exact .publishing split own (kept _ there _ rfl)
  | forsaken split own => exact .forsaken split own
  | refused split own refuses => exact .refused split own refuses
  | completed all own => exact .completed all own

/-- A replay that waits for its events has done nothing yet. -/
theorem eq_of_loading {e : ReplayCall} (course : Course saving call answers deeds (some e))
    (wait : e.wait = .loading) : e = call ∧ answers = [] ∧ deeds = [.loading call] := by
  cases course with
  | loading => exact ⟨rfl, rfl, rfl⟩
  | publishing => cases wait

theorem of_loader? (course : Course saving call answers deeds (b.replay? call.number))
    (orderly : Orderly b) {e : ReplayCall} (waits : b.loader? call.number = some e) :
    e = call ∧ answers = [] ∧ deeds = [.loading call] := by
  obtain ⟨there, number, wait⟩ := mem_of_loader? waits
  rw [← number, orderly.replay?_of_mem there] at course
  exact course.eq_of_loading wait

/-- What a replay has done that waits for a call of publish. -/
theorem eq_of_publishing {e : ReplayCall} (course : Course saving call answers deeds (some e))
    (loading : call.wait = .loading) (wait : e.wait = .publishing t replay) :
    ∃ loaded rest ds d, ds.map (·.event) ++ d.event :: rest = loaded ∧
      (∀ e ∈ ds ++ [d], e.ctx = call.ctx) ∧ d ∈ saving ∧ answers = [.ok loaded] ∧
      deeds = begins call loaded ++ ds.flatMap publishes ++ [asks d] ∧ d.ticket = t ∧
      replay = ⟨ds.length, loaded.length, rest⟩ ∧
      e = { call with wait := .publishing t replay } := by
  cases course with
  | loading =>
    rw [loading] at wait
    cases wait
  | @publishing loaded rest ds d split own there =>
    obtain ⟨rfl, rfl⟩ := ReplayWait.publishing.inj wait
    exact ⟨loaded, rest, ds, d, split, own, there, rfl, rfl, rfl, rfl, rfl⟩

theorem of_publisher? (course : Course saving call answers deeds (b.replay? call.number))
    (orderly : Orderly b) (loading : call.wait = .loading) {e : ReplayCall}
    (waits : b.publisher? t = some (e, replay)) (number : e.number = call.number) :
    ∃ loaded rest ds d, ds.map (·.event) ++ d.event :: rest = loaded ∧
      (∀ e ∈ ds ++ [d], e.ctx = call.ctx) ∧ d ∈ saving ∧ answers = [.ok loaded] ∧
      deeds = begins call loaded ++ ds.flatMap publishes ++ [asks d] ∧ d.ticket = t ∧
      replay = ⟨ds.length, loaded.length, rest⟩ ∧
      e = { call with wait := .publishing t replay } := by
  obtain ⟨there, wait⟩ := mem_of_publisher? waits
  rw [← number, orderly.replay?_of_mem there] at course
  exact course.eq_of_publishing loading wait

variable [DecidableEq H]

/-- A replay that has its turn goes on from where it stood. -/
theorem of_turned {loaded rest : List Event} {ds : List Dispatch} {wait : ReplayWait}
    {told : List (Deed H)} (orderly : Orderly b)
    (split : ds.map (·.event) ++ rest = loaded) (own : ∀ e ∈ ds, e.ctx = call.ctx)
    (found : b.replay? call.number = some { call with wait })
    (turned : Turned b { call with wait } (Replay.turnTo ds.length loaded.length rest) c told) :
    Course c.pool.saving call [.ok loaded] (begins call loaded ++ ds.flatMap publishes ++ told)
      (c.replay? call.number) := by
  cases rest with
  | nil =>
    cases turned with
    | answered =>
      rw [List.append_nil] at split
      rw [orderly.replay?_remove_self]
      exact .completed split own
  | cons event rest =>
    cases turned with
    | @asks _ _ pool rule there =>
      have own : ∀ e ∈ ds ++ [⟨b.pool.tickets, call.ctx, event⟩], e.ctx = call.ctx :=
        List.forall_mem_append.mpr ⟨own, List.forall_mem_singleton.mpr rfl⟩
      have stands := replay?_setWait_self (b := { b with pool }) found
        (.publishing b.pool.tickets ⟨ds.length, loaded.length, rest⟩)
      rw [stands]
      exact .publishing split own there
    | @refused _ _ pool error rule why =>
      have own : ∀ e ∈ ds ++ [⟨b.pool.tickets, call.ctx, event⟩], e.ctx = call.ctx :=
        List.forall_mem_append.mpr ⟨own, List.forall_mem_singleton.mpr rfl⟩
      rw [orderly.replay?_stopped rule nofun]
      have refuses : Refuses ⟨b.pool.tickets, call.ctx, event⟩ error _ := .atOnce why
      exact .refused split own refuses

/-- A replay follows its course when it has its turn. -/
theorem of_own {h : History H} {action : BrokerAction H} {told : List (Deed H)}
    (route : Pool.Route h b.pool) (orderly : Orderly b) (known : call.number < b.calls)
    (loading : call.wait = .loading)
    (course : Course b.pool.saving call answers deeds (b.replay? call.number))
    (rule : Rule b action c (some call.number) told) :
    Course c.pool.saving call (answers ++ (action.loaded? call.number).toList) (deeds ++ told)
      (c.replay? call.number) := by
  generalize own : some call.number = whose at rule
  cases rule with
  | act => cases own
  | begins =>
    obtain same := Option.some.inj own
    omega
  | @unloaded number source e waits =>
    obtain rfl := Option.some.inj own
    obtain ⟨rfl, rfl, rfl⟩ := course.of_loader? orderly waits
    rw [orderly.replay?_remove_self, BrokerAction.loaded?, if_pos rfl]
    exact .unloaded
  | @loaded number events e c told waits turned =>
    obtain rfl := Option.some.inj own
    obtain ⟨there, -, -⟩ := mem_of_loader? waits
    obtain ⟨rfl, rfl, rfl⟩ := course.of_loader? orderly waits
    rw [BrokerAction.loaded?, if_pos rfl]
    have split : ([] : List Dispatch).map (·.event) ++ events = events := List.nil_append _
    have own : ∀ d ∈ ([] : List Dispatch), d.ctx = e.ctx := fun _ => List.not_mem_nil.elim
    exact of_turned orderly split own (orderly.replay?_of_mem there) turned
  | @accepted t e replay d' pool c told waits found rule turned =>
    obtain ⟨loaded, rest, ds, d, split, mine, there, rfl, rfl, rfl, rfl, rfl⟩ :=
      course.of_publisher? orderly loading waits (Option.some.inj own).symm
    obtain rfl := Pool.eq_of_waits route there found
    have stands := orderly.replay?_of_mem (mem_of_publisher? waits).1
    have split : (ds ++ [d']).map (·.event) ++ rest = loaded := by simpa using split
    have turned : Turned { b with pool }
        { call with wait := .publishing d'.ticket ⟨ds.length, loaded.length, rest⟩ }
        (Replay.turnTo (ds ++ [d']).length loaded.length rest) c told := by
      rw [List.length_append]
      exact turned
    have course := of_turned (orderly.stepped rule nofun) split mine stands turned
    rw [List.flatMap_append, List.flatMap_singleton] at course
    simpa [publishes, BrokerAction.loaded?] using course
  | @refused t e replay d' pool result error waits found rule why =>
    obtain ⟨loaded, rest, ds, d, split, mine, there, rfl, rfl, rfl, rfl, rfl⟩ :=
      course.of_publisher? orderly loading waits (Option.some.inj own).symm
    obtain rfl := Pool.eq_of_waits route there found
    rw [orderly.replay?_stopped rule nofun, List.append_assoc (_ ++ _) [asks d']]
    have refuses : Refuses d' error _ := .late why
    exact .refused split mine refuses
  | @forsaken t e replay pool waits rule =>
    obtain ⟨loaded, rest, ds, d, split, mine, there, rfl, rfl, rfl, rfl, rfl⟩ :=
      course.of_publisher? orderly loading waits (Option.some.inj own).symm
    rw [orderly.replay?_stopped rule nofun, List.append_assoc (_ ++ _) [asks d]]
    exact .forsaken split mine
  | @gone number e waits =>
    obtain rfl := Option.some.inj own
    obtain ⟨rfl, rfl, rfl⟩ := course.of_loader? orderly waits
    rw [orderly.replay?_remove_self]
    exact .gone

/-- **A replay follows its course,** in its own turns and while others have theirs. -/
theorem of_rule {h : History H} {action : BrokerAction H} {whose : Option Nat}
    {told : List (Deed H)} (route : Pool.Route h b.pool) (orderly : Orderly b)
    (known : call.number < b.calls) (loading : call.wait = .loading)
    (course : Course b.pool.saving call answers deeds (b.replay? call.number))
    (rule : Rule b action c whose told) :
    Course c.pool.saving call (answers ++ (action.loaded? call.number).toList)
      (deeds ++ if whose = some call.number then told else []) (c.replay? call.number) := by
  by_cases own : whose = some call.number
  · rw [if_pos own]
    exact course.of_own route orderly known loading (own ▸ rule)
  · obtain ⟨stands, unanswered⟩ := rule.leaves own
    rw [if_neg own, stands, unanswered, Option.toList_none, List.append_nil, List.append_nil]
    refine course.of_saving fun d waits replay found => ?_
    have there := List.mem_of_find?_eq_some found
    refine rule.keeps route waits fun ends => own ?_
    have turn := orderly.turnOf_eq there rfl ends
    exact rule.whose_eq.trans turn

end Course

/-! ## Runs -/

variable {log : List (Move H)} {deeds : List (Deed H)}

section

variable [DecidableEq H]

theorem watch_eq_some {action : BrokerAction H} {told : List (Move H)} :
    b.watch action = some (c, told) ↔
      ∃ deeds, b.step action = some (c, deeds) ∧ [⟨action, b.turnOf action, deeds⟩] = told := by
  rw [watch, Option.map_eq_some_iff]
  constructor
  · rintro ⟨⟨after, deeds⟩, step, same⟩
    obtain ⟨rfl, rfl⟩ := Prod.mk.inj same
    exact ⟨deeds, step, rfl⟩
  · rintro ⟨deeds, step, rfl⟩
    exact ⟨(c, deeds), step, rfl⟩

/-- What is told as moves is a run. -/
theorem run_of_watch (run : Run Broker.watch b log c) : Run Broker.step b (deedsOf log) c := by
  induction run with
  | refl => exact .refl
  | snoc _ watches ih =>
    obtain ⟨deeds, step, rfl⟩ := watch_eq_some.mp watches
    rw [deedsOf, List.flatMap_append, List.flatMap_singleton]
    exact ih.snoc step

/-- Every run can be told as moves. -/
theorem exists_watch (run : Run Broker.step b deeds c) :
    ∃ log, Run Broker.watch b log c ∧ deedsOf log = deeds := by
  induction run with
  | refl => exact ⟨[], .refl, rfl⟩
  | snoc _ step ih =>
    obtain ⟨log, run, rfl⟩ := ih
    refine ⟨_, run.snoc (watch_eq_some.mpr ⟨_, step, rfl⟩), ?_⟩
    rw [deedsOf, List.flatMap_append, List.flatMap_singleton]
    rfl

end

theorem deedsFor_snoc (n : Nat) (log : List (Move H)) (action : BrokerAction H)
    (whose : Option Nat) (told : List (Deed H)) :
    deedsFor n (log ++ [⟨action, whose, told⟩]) =
      deedsFor n log ++ if whose = some n then told else [] := by
  rw [deedsFor, List.filter_append, deedsOf, List.flatMap_append]
  refine congrArg (_ ++ ·) ?_
  by_cases own : whose = some n <;> simp [own]

theorem answersTo_snoc (n : Nat) (log : List (Move H)) (action : BrokerAction H)
    (whose : Option Nat) (told : List (Deed H)) :
    answersTo n (log ++ [⟨action, whose, told⟩]) =
      answersTo n log ++ (action.loaded? n).toList := by
  rw [answersTo, List.filterMap_append, List.filterMap_cons]
  cases action.loaded? n <;> rfl

/-- A replay ends in a move: it has its answer, or its caller has gone away. -/
def Ends (n : Nat) (move : Move H) : Prop :=
  (∃ call result, .replayed call result ∈ move.deeds) ∨ move.action = .forsakeReplay n ∨
    ∃ t, move.action = .pool (.forsake t)

/-- What is known of the moves of a run and of the bus after it. -/
structure Moved (log : List (Move H)) (b : Broker H) : Prop where
  route : Pool.Route (history (deedsOf log)) b.pool
  orderly : Orderly b
  /-- each number that was given out is that of a replay that has come in -/
  came : ∀ n < b.calls, ∃ move ∈ log, move.replay? = some n ∧
    ∃ ctx name since, move.action = .replay ctx name since
  /-- only replays that have come in have turns -/
  known : ∀ move ∈ log, ∀ n, move.replay? = some n → n < b.calls
  /-- the store answers a replay in one of its turns -/
  heard : ∀ move ∈ log, ∀ n, move.action.loaded? n ≠ none → move.replay? = some n
  /-- what is no replay's turn is a single step of the pool -/
  plain : ∀ move ∈ log, move.replay? = none →
    ∃ action notices, move.action = .pool action ∧ move.deeds = [.pool ⟨action, notices⟩]
  /-- a replay that does not go on any more has ended in a turn -/
  ended : ∀ n < b.calls, b.replay? n = none → ∃ move ∈ log, move.replay? = some n ∧ Ends n move
  /-- each replay that has come in follows its course -/
  courses : ∀ move ∈ log, ∀ ctx name since, move.action = .replay ctx name since →
    ∃ n, move.replay? = some n ∧
      Course b.pool.saving ⟨n, ctx, name, since, .loading⟩ (answersTo n log) (deedsFor n log)
        (b.replay? n)

namespace Moved

theorem start (config : PoolConfig) : Moved [] (Broker.new config : Broker H) :=
  ⟨.start config, .start config, nofun, nofun, nofun, nofun, nofun, nofun⟩

/-- A replay that has not come in yet has had no turn. -/
theorem nothing (moved : Moved log b) : deedsFor b.calls log = [] ∧ answersTo b.calls log = [] := by
  have others (move : Move H) (there : move ∈ log) : move.replay? ≠ some b.calls := fun turn =>
    Nat.lt_irrefl _ (moved.known move there _ turn)
  refine ⟨?_, ?_⟩
  · rw [deedsFor, List.filter_eq_nil_iff.mpr]
    · rfl
    · simpa using others
  · refine List.filterMap_eq_nil_iff.mpr fun move there => ?_
    by_contra answer
    exact others move there (moved.heard move there _ answer)

variable [DecidableEq H]

/-- **Each move keeps what is known.** -/
theorem of_rule (moved : Moved log b) {action : BrokerAction H} {whose : Option Nat}
    (rule : Rule b action c whose deeds) (ran : Run Pool.tick b.pool (history deeds) c.pool) :
    Moved (log ++ [⟨action, whose, deeds⟩]) c := by
  have snoc {P : Move H → Prop} (before : ∀ move ∈ log, P move) (now : P ⟨action, whose, deeds⟩) :
      ∀ move ∈ log ++ [⟨action, whose, deeds⟩], P move :=
    List.forall_mem_append.mpr ⟨before, List.forall_mem_singleton.mpr now⟩
  have later := moved.orderly.of_rule rule
  refine ⟨?_, later, ?_, ?_, ?_, snoc moved.plain ?_, ?_, ?_⟩
  · rw [deedsOf, List.flatMap_append, List.flatMap_singleton, history_append]
    exact moved.route.trans ran
  · intro n known
    by_cases before : n < b.calls
    · obtain ⟨move, there, came⟩ := moved.came n before
      exact ⟨move, List.mem_append_left _ there, came⟩
    · -- the number was given out in this step
      rcases rule.calls_cases with same | ⟨more, turn, comes⟩
      · omega
      · obtain rfl : n = b.calls := by omega
        exact ⟨_, List.mem_append_right _ (List.mem_singleton_self _), turn, comes⟩
  · refine snoc (fun move there n turn => ?_) ?_
    · exact Nat.lt_of_lt_of_le (moved.known move there n turn) rule.calls_le
    · rintro n rfl
      exact moved.orderly.known_of_rule rule
  · refine snoc moved.heard fun n answer => ?_
    by_contra other
    exact answer (rule.leaves other).2
  · rintro rfl
    exact rule.plain
  · intro n known gone
    by_cases stood : b.replay? n = none
    · rcases Nat.lt_or_ge n b.calls with before | new
      · obtain ⟨move, there, ends⟩ := moved.ended n before stood
        exact ⟨move, List.mem_append_left _ there, ends⟩
      · rcases rule.calls_cases with same | ⟨more, -, ctx, name, since, rfl⟩
        · omega
        · obtain rfl : n = b.calls := by omega
          rw [(later.comes rule).2.2] at gone
          cases gone
    · exact ⟨_, List.mem_append_right _ (List.mem_singleton_self _), rule.left stood gone⟩
  · refine snoc (fun move there ctx name since comes => ?_) ?_
    · obtain ⟨n, turn, course⟩ := moved.courses move there ctx name since comes
      have known : n < b.calls := moved.known move there n turn
      refine ⟨n, turn, ?_⟩
      rw [deedsFor_snoc, answersTo_snoc]
      exact course.of_rule moved.route moved.orderly known rfl rule
    · rintro ctx name since rfl
      obtain ⟨nothing, silence⟩ := moved.nothing
      obtain ⟨rfl, rfl, stands⟩ := later.comes rule
      refine ⟨b.calls, rfl, ?_⟩
      rw [deedsFor_snoc, answersTo_snoc, nothing, silence, if_pos rfl, stands]
      exact .loading

theorem of_run {config : PoolConfig} (run : Run Broker.watch (Broker.new config) log b) :
    Moved log b := by
  refine run.invariant (.start config) ?_
  intro log b action c told moved watches
  obtain ⟨deeds, step, rfl⟩ := watch_eq_some.mp watches
  exact moved.of_rule (.of_step step) (Broker.run_step step)

end Moved

/-- A replay that waits can go on, whatever the store answers. -/
theorem Orderly.can_go_on [DecidableEq H] (orderly : Orderly b) (there : b.replay? n = some call) :
    (call.wait = .loading → ∀ result, ∃ after, b.step (.loaded n result) = some after) ∧
      ∀ d ∈ b.pool.saving, ∀ result, ∃ after,
        b.step (.pool (.saved d.ticket result)) = some after := by
  have known := List.mem_of_find?_eq_some there
  have held : b.pool.held = true := orderly.held (List.ne_nil_of_mem known)
  refine ⟨fun wait result => ?_, fun d waits result => ?_⟩
  · obtain ⟨e, found⟩ : ∃ e, b.loader? n = some e :=
      Pool.find?_of_any
        (List.any_eq_true.mpr ⟨call, known, by simp [number_of_replay? there, wait]⟩)
    obtain ⟨c, deeds, turn⟩ := can_turn held e (Replay.start result)
    show ∃ after, b.loaded n result = some after
    rw [Broker.loaded, found]
    simp [turn]
  · obtain ⟨c, deeds, step⟩ := can_answer waits held result
    exact ⟨_, step⟩

end Broker

end DomainEvents.Bus
