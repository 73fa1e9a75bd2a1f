import DomainEvents.Proofs.Bus.Stored

/-!
# What comes of a replay

A replay publishes the events that the store has loaded, the first to come first, and stops at the
first that is refused. What it answers says exactly that (`Broker.Exact`), as can be read off its
course.

With a store in memory a replay saves only what it has loaded. As long as nobody else saves an event
with an identifier of those, what it saves is stored already, and nothing changes by it. So the
events of the store, and their order, are as the others alone would have left them
(`StoredBus.Unharmed`), and to load the events again gives the same, with what others have saved in
between.
-/

namespace DomainEvents.Bus

variable {H : Type}

/-! ## What a replay says -/

/-- The context and the event of a call of publish, if the action is one. -/
def Action.published? : Action H → Option (Context × Event)
  | .publish ctx event => some (ctx, event)
  | _ => none

/-- All calls of publish, the first to come first. -/
def History.attempts (h : History H) : List (Context × Event) := h.filterMap (·.action.published?)

/-- The events that the store was asked to save. -/
abbrev History.savings (h : History H) : List Dispatch := h.collect Notice.saving?

theorem History.savings_append (h k : History H) :
    (h ++ k).savings = h.savings ++ k.savings :=
  collect_append ..

theorem History.accepted_append (h k : History H) :
    (h ++ k).accepted = h.accepted ++ k.accepted :=
  collect_append ..

theorem History.attempts_append (h k : History H) :
    (h ++ k).attempts = h.attempts ++ k.attempts :=
  List.filterMap_append

/-- The answer of a replay, if there was one. -/
def Deed.replayed? : Deed H → Option (Except BusError Nat)
  | .replayed _ result => some result
  | _ => none

/-- The answers of replays. -/
def resultsOf (deeds : List (Deed H)) : List (Except BusError Nat) :=
  deeds.filterMap Deed.replayed?

theorem resultsOf_append (l m : List (Deed H)) :
    resultsOf (l ++ m) = resultsOf l ++ resultsOf m :=
  List.filterMap_append

namespace Broker

/-- **A replay does what it says.** What it does when the store has loaded these events, and what it
answers. -/
structure Exact (ctx : Context) (loaded : List Event) (deeds : List (Deed H)) : Prop where
  /-- it publishes the first of the events, each once and in their order, with its own context -/
  attempted : (history deeds).attempts <+: loaded.map (ctx, ·)
  /-- it asks the store to save nothing but what it publishes -/
  saved : ((history deeds).savings.map fun d => (d.ctx, d.event)) <+: (history deeds).attempts
  /-- the first of them are accepted -/
  accepted : (history deeds).accepted.map (·.event) <+: loaded
  /-- there is one answer at most -/
  once : (resultsOf deeds).length ≤ 1
  /-- it says that all were published when all are accepted, and only then -/
  completed : ∀ count, .ok count ∈ resultsOf deeds ↔
    count = loaded.length ∧ (history deeds).accepted.length = loaded.length
  /-- otherwise it says how many were, and why the one after these was refused, with which the
  replay has stopped -/
  stopped : ∀ error, .error error ∈ resultsOf deeds →
    ∃ d source, error = .replay (history deeds).accepted.length loaded.length source ∧
      loaded[(history deeds).accepted.length]? = some d.event ∧
      (history deeds).attempts.length = (history deeds).accepted.length + 1 ∧
      .refused d source ∈ (history deeds).notices ∧
      ∀ replayed total cause, source ≠ .replay replayed total cause

/-- What is done for events that are published. -/
theorem published (ds : List Dispatch) :
    let deeds : List (Deed H) := ds.flatMap publishes
    (history deeds).attempts = ds.map (fun d => (d.ctx, d.event)) ∧ (history deeds).savings = ds ∧
      (history deeds).accepted = ds ∧ resultsOf deeds = [] := by
  induction ds with
  | nil => exact ⟨rfl, rfl, rfl, rfl⟩
  | cons d ds ih =>
    obtain ⟨attempts, savings, accepted, results⟩ := ih
    simp only [List.flatMap_cons, history_append, History.attempts_append, History.savings_append,
      History.accepted_append, resultsOf_append, attempts, savings, accepted, results]
    exact ⟨rfl, rfl, rfl, rfl⟩

/-- A replay has published some of the events, and what it has done since then is exact for those
that are left. -/
theorem Exact.of_published {call : ReplayCall} {loaded rest : List Event} {ds : List Dispatch}
    {deeds : List (Deed H)} (split : ds.map (·.event) ++ rest = loaded)
    (own : ∀ e ∈ ds, e.ctx = call.ctx)
    (attempted : (history deeds).attempts <+: rest.map (call.ctx, ·))
    (saved : ((history deeds).savings.map fun d => (d.ctx, d.event)) <+: (history deeds).attempts)
    (nothing : (history deeds).accepted = [])
    (once : (resultsOf deeds).length ≤ 1)
    (completed : ∀ count, .ok count ∈ resultsOf deeds ↔ count = loaded.length ∧ rest = [])
    (stopped : ∀ error, .error error ∈ resultsOf deeds →
      ∃ d source, error = .replay ds.length loaded.length source ∧ rest.head? = some d.event ∧
        (history deeds).attempts.length = 1 ∧ .refused d source ∈ (history deeds).notices ∧
        ∀ replayed total cause, source ≠ .replay replayed total cause) :
    Exact call.ctx loaded (begins call loaded ++ ds.flatMap publishes ++ deeds) := by
  obtain ⟨attempts, savings, accepted, results⟩ := published (H := H) ds
  have pairs : (ds.map fun d => (d.ctx, d.event)) = (ds.map (·.event)).map (call.ctx, ·) := by
    rw [List.map_map]
    exact List.map_congr_left fun d there => by simp [own d there]
  have before : history (begins call loaded ++ ds.flatMap publishes ++ deeds) =
      history (ds.flatMap publishes) ++ history deeds := history_append _ _
  have answers : resultsOf (begins call loaded ++ ds.flatMap publishes ++ deeds) =
      resultsOf deeds := by
    rw [resultsOf_append, resultsOf_append, results]
    rfl
  have came : (history (begins call loaded ++ ds.flatMap publishes ++ deeds)).accepted = ds := by
    rw [before, History.accepted_append, accepted, nothing, List.append_nil]
  have tried : (history (begins call loaded ++ ds.flatMap publishes ++ deeds)).attempts =
      (ds.map (·.event)).map (call.ctx, ·) ++ (history deeds).attempts := by
    rw [before, History.attempts_append, attempts, pairs]
  have total : ds.length = loaded.length ↔ rest = [] := by
    rw [← split, List.length_append, List.length_map, ← List.length_eq_zero_iff]
    omega
  refine ⟨?_, ?_, ?_, ?_, ?_, ?_⟩
  · rw [tried, ← split, List.map_append]
    exact (List.prefix_append_right_inj _).mpr attempted
  · rw [tried, before, History.savings_append, savings, List.map_append, pairs]
    exact (List.prefix_append_right_inj _).mpr saved
  · rw [came, ← split]
    exact List.prefix_append ..
  · rw [answers]
    exact once
  · intro count
    rw [answers, came, total]
    exact completed count
  · intro error there
    rw [answers] at there
    obtain ⟨d, source, same, next, one, refused, cause⟩ := stopped error there
    refine ⟨d, source, by rw [came, same], ?_, ?_, ?_, cause⟩
    · rw [came, ← split, ← List.length_map (·.event), List.getElem?_append_right (Nat.le_refl _),
        Nat.sub_self, ← List.head?_eq_getElem?]
      exact next
    · rw [tried, came, List.length_append, one, List.length_map, List.length_map]
    · rw [before, History.notices_append]
      exact List.mem_append_right _ refused

/-- An event that is refused was published, and nothing came into the queue. -/
theorem Refuses.told {d : Dispatch} {error : BusError} {deeds : List (Deed H)}
    (refuses : Refuses d error deeds) :
    (history deeds).attempts = [(d.ctx, d.event)] ∧
      ((history deeds).savings.map fun d => (d.ctx, d.event)) <+: [(d.ctx, d.event)] ∧
      (history deeds).accepted = [] ∧ resultsOf deeds = [] ∧
      .refused d error ∈ (history deeds).notices := by
  cases refuses with
  | atOnce => exact ⟨rfl, List.nil_prefix, rfl, rfl, by simp [Pool.refusal]⟩
  | late => exact ⟨rfl, List.prefix_rfl, rfl, rfl, by simp [asks, Pool.refusal]⟩

/-- A replay that follows its course does what it says. -/
theorem Course.exact {saving : List Dispatch} {call : ReplayCall} {loaded : List Event}
    {deeds : List (Deed H)} {stands : Option ReplayCall}
    (course : Course saving call [.ok loaded] deeds stands) : Exact call.ctx loaded deeds := by
  have one (d : Dispatch) (rest : List Event) (own : d.ctx = call.ctx) :
      [(d.ctx, d.event)] <+: (d.event :: rest).map (call.ctx, ·) := by
    rw [own, List.map_cons]
    exact List.prefix_append [_] _
  cases course with
  | @publishing _ rest ds d split own =>
    obtain ⟨before, now⟩ := List.forall_mem_append.mp own
    exact .of_published split before (one d rest (now d (List.mem_singleton_self d)))
      List.prefix_rfl rfl (Nat.zero_le _) (by simp [resultsOf, asks, Deed.replayed?]) nofun
  | @forsaken _ rest ds d split own =>
    obtain ⟨before, now⟩ := List.forall_mem_append.mp own
    exact .of_published split before (one d rest (now d (List.mem_singleton_self d)))
      List.prefix_rfl rfl (Nat.zero_le _) (by simp [resultsOf, asks, Deed.replayed?]) nofun
  | @refused _ rest ds d source deeds wait split own refuses =>
    obtain ⟨before, now⟩ := List.forall_mem_append.mp own
    obtain ⟨attempts, savings, accepted, results, refused⟩ := refuses.told
    -- the last two deeds are nothing to the pool, and have the answer
    let stop : List (Deed H) :=
      [.stopped { call with wait } ⟨ds.length, loaded.length, rest⟩,
        .replayed { call with wait } (.error (.replay ds.length loaded.length source))]
    have told : history (deeds ++ stop) = history deeds :=
      (history_append ..).trans (List.append_nil _)
    have answer : resultsOf (deeds ++ stop) =
        [.error (.replay ds.length loaded.length source)] := by
      rw [resultsOf_append, results]
      rfl
    refine .of_published split before ?_ ?_ ?_ ?_ ?_ ?_
    · rw [told, attempts]
      exact one d rest (now d (List.mem_singleton_self d))
    · rw [told, attempts]
      exact savings
    · rw [told, accepted]
    · rw [answer]
      exact Nat.le_refl _
    · intro count
      rw [answer]
      simp
    · intro error there
      rw [answer] at there
      obtain rfl := Except.error.inj (List.mem_singleton.mp there)
      refine ⟨d, source, rfl, rfl, ?_, told ▸ refused, refuses.not_replay⟩
      rw [told, attempts, List.length_singleton]
  | @completed _ ds wait all own =>
    have split : ds.map (·.event) ++ [] = loaded := (List.append_nil _).trans all
    exact .of_published split own List.prefix_rfl List.prefix_rfl rfl (Nat.le_refl _)
      (by simp [resultsOf, Deed.replayed?]) (by simp [resultsOf, Deed.replayed?])

/-- What is known of a replay from the moves of a run, in which it has the number `n`. -/
structure Reports [DecidableEq H] (ctx : Context) (n : Nat) (log : List (Move H)) (b : Broker H) :
    Prop where
  /-- the store answers once at most, and nothing is done before -/
  waiting : (answersTo n log = [] ∧ history (deedsFor n log) = [] ∧
    resultsOf (deedsFor n log) = []) ∨ ∃ answer, answersTo n log = [answer]
  /-- when the events cannot be loaded the replay says so, and publishes nothing -/
  unloaded : ∀ source, answersTo n log = [.error source] → history (deedsFor n log) = [] ∧
    resultsOf (deedsFor n log) = [.error (.persistence .load source)]
  /-- when they are loaded it does what it says -/
  loaded : ∀ events, answersTo n log = [.ok events] → Exact ctx events (deedsFor n log)
  /-- it has its answer in the end, unless its caller has gone away -/
  ended : b.replay? n = none → ∃ move ∈ log, move.replay? = some n ∧ Ends n move
  /-- until then it can go on, whatever the store answers -/
  goesOn : b.replay? n ≠ none → (∀ result, ∃ after, b.step (.loaded n result) = some after) ∨
    ∃ d ∈ b.pool.saving, b.turnOf (.pool (.saved d.ticket (.ok ()))) = some n ∧
      ∀ result, ∃ after, b.step (.pool (.saved d.ticket result)) = some after

theorem Moved.reports [DecidableEq H] {log : List (Move H)} {b : Broker H} (moved : Moved log b)
    {move : Move H} (there : move ∈ log) {ctx : Context} {name : String} {since : Time.Instant}
    (comes : move.action = .replay ctx name since) :
    ∃ n, move.replay? = some n ∧ Reports ctx n log b := by
  obtain ⟨n, turn, course⟩ := moved.courses move there ctx name since comes
  refine ⟨n, turn, ?_, ?_, ?_, moved.ended n (moved.known move there n turn), ?_⟩
  · generalize answersTo n log = answers at course ⊢
    generalize deedsFor n log = deeds at course ⊢
    generalize b.replay? n = stands at course
    cases course with
    | loading => exact .inl ⟨rfl, rfl, rfl⟩
    | gone => exact .inl ⟨rfl, rfl, rfl⟩
    | _ => exact .inr ⟨_, rfl⟩
  · intro source answered
    rw [answered] at course
    generalize deedsFor n log = deeds at course ⊢
    generalize b.replay? n = stands at course
    cases course with
    | unloaded => exact ⟨rfl, rfl⟩
  · intro events answered
    rw [answered] at course
    exact course.exact
  · intro goes
    obtain ⟨call, stands⟩ := Option.ne_none_iff_exists'.mp goes
    obtain ⟨canLoad, canSave⟩ := moved.orderly.can_go_on stands
    have known := List.mem_of_find?_eq_some stands
    rw [stands] at course
    generalize answersTo n log = answers at course
    generalize deedsFor n log = deeds at course
    cases course with
    | loading => exact .inl (canLoad rfl)
    | publishing _ _ waits =>
      exact .inr ⟨_, waits, moved.orderly.turnOf_eq known rfl (.inr ⟨_, rfl⟩), canSave _ waits⟩

/-- A replay that waits for its events has come in, and waits since then. -/
theorem Moved.of_loader? {log : List (Move H)} {b : Broker H} (moved : Moved log b) {n : Nat}
    {call : ReplayCall} (waits : b.loader? n = some call) :
    ∃ move ∈ log, move.replay? = some n ∧ move.action = .replay call.ctx call.name call.since := by
  obtain ⟨there, rfl, -⟩ := mem_of_loader? waits
  obtain ⟨move, known, turn, ctx, name, since, comes⟩ :=
    moved.came _ (moved.orderly.fresh call there)
  obtain ⟨n, own, course⟩ := moved.courses move known ctx name since comes
  obtain rfl : call.number = n := Option.some.inj (turn.symm.trans own)
  obtain ⟨same, -, -⟩ := course.of_loader? moved.orderly waits
  rw [same]
  exact ⟨move, known, turn, comes⟩

end Broker

/-! ## What a replay saves -/

namespace StoredBus

variable {s t : StoredBus H} {log during : List (StoredDeed H)} {deed : StoredDeed H}

/-- What is known of the answers of a store. -/
structure Answering (log : List (StoredDeed H)) (s : StoredBus H) : Prop where
  /-- no call is answered twice -/
  once : (s.answers.map (·.call)).Nodup
  /-- a replay hears of the events that were loaded for it -/
  heard : ∀ n, ∀ result ∈ answersTo n (movesOf log),
    ∃ events, result = .ok events ∧ .loaded n events ∈ s.answers

theorem new_of_answer? {call : StoreCall} (new : s.answer? call = none) :
    call ∉ s.answers.map (·.call) := by
  intro there
  obtain ⟨answer, given, same⟩ := List.mem_map.mp there
  exact List.find?_eq_none.mp new answer given (by simpa using same)

section

variable [DecidableEq H]

/-- What the store has answered is not taken back. -/
theorem Rule.answers_subset (rule : Rule s t deed) : s.answers ⊆ t.answers := by
  cases rule with
  | saves => exact List.subset_append_left ..
  | loads => exact List.subset_append_left ..
  | marks => exact List.subset_append_left ..
  | _ => exact List.Subset.refl _

namespace Answering

omit [DecidableEq H] in
/-- What a replay hears of its events is an answer that the store has given. -/
theorem given_of_loaded? {action : BrokerAction H} {n : Nat}
    {result : Except StoreError (List Event)} (source : s.Sourced action)
    (loaded : action.loaded? n = some result) :
    ∃ events, result = .ok events ∧ .loaded n events ∈ s.answers := by
  cases action with
  | loaded number heard =>
    rw [BrokerAction.loaded?] at loaded
    split at loaded
    case isTrue same =>
      obtain rfl := Option.some.inj loaded
      obtain ⟨answer, given, hears⟩ := source rfl
      cases answer with
      | loaded =>
        cases hears
        exact ⟨_, rfl, same ▸ given⟩
      | _ => cases hears
    case isFalse => cases loaded
  | _ => cases loaded

theorem of_rule (known : Answering log s) (rule : Rule s t deed) : Answering (log ++ [deed]) t := by
  have once {answer : StoreAnswer} (new : s.answer? answer.call = none) :
      ((s.answers ++ [answer]).map (·.call)).Nodup := by
    rw [List.map_append, List.map_singleton, ← List.concat_eq_append]
    exact known.once.concat (new_of_answer? new)
  have heard (n : Nat) (result : Except StoreError (List Event))
      (there : result ∈ answersTo n (movesOf log)) :
      ∃ events, result = .ok events ∧ .loaded n events ∈ t.answers := by
    obtain ⟨events, same, given⟩ := known.heard n result there
    exact ⟨events, same, rule.answers_subset given⟩
  cases rule with
  | @moves action bus deeds step source =>
    refine ⟨known.once, fun n result there => ?_⟩
    rw [movesOf_append, show movesOf [.moved _] = [_] from rfl, Broker.answersTo_snoc,
      List.mem_append] at there
    rcases there with before | now
    · exact known.heard n result before
    · exact given_of_loaded? source (Option.mem_toList.mp now)
  | saves new waits =>
    rw [← Pool.ticket_of_found waits] at new
    exact ⟨once new, by simpa [movesOf] using heard⟩
  | loads new => exact ⟨once new, by simpa [movesOf] using heard⟩
  | marks new worker =>
    rw [← Pool.ticket_of_worker? worker] at new
    exact ⟨once new, by simpa [movesOf] using heard⟩
  | savesElse => exact ⟨known.once, by simpa [movesOf] using heard⟩
  | marksElse => exact ⟨known.once, by simpa [movesOf] using heard⟩
  | clock => exact ⟨known.once, by simpa [movesOf] using heard⟩

theorem of_run {config : PoolConfig} {start : MemoryStore}
    (run : Run StoredBus.step (.new config start) log s) : Answering log s :=
  have first : Answering [] (.new config start : StoredBus H) := ⟨List.nodup_nil, nofun⟩
  run_induction first of_rule run

omit [DecidableEq H] in
/-- The events of a replay are loaded once. -/
theorem loaded_unique (known : Answering log s) {n : Nat} {events more : List Event}
    (one : .loaded n events ∈ s.answers) (other : .loaded n more ∈ s.answers) : events = more := by
  have same := List.inj_on_of_nodup_map known.once one other rfl
  exact (StoreAnswer.loaded.inj same).2

end Answering

/-- **A replay saves what it has loaded.** -/
theorem loaded_of_saves {config : PoolConfig} {start : MemoryStore}
    (run : Run StoredBus.step (.new config start) log s) {u : Nat} {d : Dispatch}
    {call : ReplayCall} {replay : Replay} (publishes : s.bus.publisher? u = some (call, replay))
    (waits : s.bus.pool.saving.find? (·.ticket == u) = some d) :
    ∃ events, .loaded call.number events ∈ s.answers ∧ d.event ∈ events := by
  have moved : Broker.Moved (movesOf log) s.bus := .of_run (run_moves run)
  have there := (Broker.mem_of_publisher? publishes).1
  obtain ⟨move, known, turn, ctx, name, since, comes⟩ :=
    moved.came _ (moved.orderly.fresh call there)
  obtain ⟨n, same, course⟩ := moved.courses move known ctx name since comes
  obtain rfl : call.number = n := Option.some.inj (turn.symm.trans same)
  obtain ⟨loaded, rest, ds, e, split, -, waiting, answers, -, rfl, -, -⟩ :=
    course.of_publisher? moved.orderly rfl publishes rfl
  obtain rfl := Pool.eq_of_waits moved.route waiting waits
  obtain ⟨events, same, given⟩ := (Answering.of_run run).heard call.number (.ok loaded)
    (by rw [answers]; exact List.mem_singleton_self _)
  obtain rfl := Except.ok.inj same
  exact ⟨loaded, given, by simp [← split]⟩

end

/-! ## The events of the store meanwhile -/

theorem savedByOthers_append (n : Nat) (log more : List (StoredDeed H)) :
    savedByOthers n (log ++ more) = savedByOthers n log ++ savedByOthers n more :=
  List.filterMap_append

theorem savedByOthers_saved (n : Nat) (event : Event) (replay? : Option Nat) :
    savedByOthers n [(.saved event replay? : StoredDeed H)] =
      if replay? = some n then [] else [event] := by
  by_cases own : replay? = some n <;> simp [savedByOthers, own]

theorem savedByOthers_of_ne (n : Nat) (other : ∀ event replay?, deed ≠ .saved event replay?) :
    savedByOthers n [deed] = [] := by
  cases deed with
  | saved event replay? => exact absurd rfl (other event replay?)
  | _ => rfl

section

variable [DecidableEq H]

/-- The events of a store change when one is saved. If that is for a replay, it is the one that the
replay publishes. -/
theorem Rule.store_cases (rule : Rule s t deed) :
    (∃ event replay?, deed = .saved event replay? ∧ t.store = s.store.save event ∧
      ∀ n, replay? = some n → ∃ u d call replay, s.bus.publisher? u = some (call, replay) ∧
        call.number = n ∧ s.bus.pool.saving.find? (·.ticket == u) = some d ∧ d.event = event) ∨
      t.store.events = s.store.events ∧ ∀ event replay?, deed ≠ .saved event replay? := by
  cases rule with
  | moves => exact .inr ⟨rfl, nofun⟩
  | @saves ticket d _ waits =>
    refine .inl ⟨_, _, rfl, rfl, fun n own => ?_⟩
    obtain ⟨⟨call, replay⟩, publishes, number⟩ := Option.map_eq_some_iff.mp own
    exact ⟨ticket, d, call, replay, publishes, number, waits, rfl⟩
  | loads => exact .inr ⟨rfl, nofun⟩
  | marks _ _ marked => exact .inr ⟨marked.events_eq, nofun⟩
  | savesElse => exact .inl ⟨_, none, rfl, rfl, nofun⟩
  | marksElse marked => exact .inr ⟨marked.events_eq, nofun⟩
  | clock => exact .inr ⟨rfl, nofun⟩

/-- Saving leaves each identifier there once. -/
theorem distinct_of_run (run : Run StoredBus.step s log t) (distinct : s.store.Distinct) :
    t.store.Distinct := by
  refine run_induction (P := fun _ t => t.store.Distinct) distinct ?_ run
  intro log t u deed distinct rule
  rcases rule.store_cases with ⟨event, _, -, saved, -⟩ | ⟨same, -⟩
  · rw [saved]
    exact distinct.save event
  · rw [MemoryStore.Distinct, same]
    exact distinct

end

/-- Whether an event has an identifier of some others. -/
def among (events : List Event) (e : Event) : Bool := e.id ∈ events.map (·.id)

/-- What a replay leaves as it was in the store `s₀` that has loaded its events, while others save
events of other identifiers. -/
structure Apart (n : Nat) (loaded : List Event) (s₀ s : MemoryStore)
    (during : List (StoredDeed H)) : Prop where
  /-- the events are there as the others alone would have left them -/
  events : s.events = ((savedByOthers n during).foldl MemoryStore.save s₀).events
  /-- those of the replay are the same -/
  own : s.events.filter (among loaded) = s₀.events.filter (among loaded)

namespace Apart

variable {n : Nat} {loaded : List Event} {s₀ s₁ : MemoryStore} {event : Event}

/-- An event that is there, and saved again, is there as before. -/
theorem save_own (apart : Apart n loaded s₀ s₁ during) (distinct : s₁.Distinct)
    (known : event ∈ loaded) (there : event ∈ s₀.events) :
    Apart n loaded s₀ (s₁.save event) (during ++ [.saved event (some n)]) := by
  have same : (s₁.save event).events = s₁.events := by
    rw [MemoryStore.events_save]
    refine MemoryStore.place_of_mem distinct (List.mem_of_mem_filter (p := among loaded) ?_)
    rw [apart.own, List.mem_filter]
    exact ⟨there, decide_eq_true (List.mem_map_of_mem known)⟩
  refine ⟨?_, same ▸ apart.own⟩
  rw [same, savedByOthers_append, savedByOthers_saved, if_pos rfl, List.append_nil]
  exact apart.events

/-- An event of another identifier does nothing to those of the replay. -/
theorem save_other (apart : Apart n loaded s₀ s₁ during) {replay? : Option Nat}
    (others : replay? ≠ some n) (other : event.id ∉ loaded.map (·.id)) :
    Apart n loaded s₀ (s₁.save event) (during ++ [.saved event replay?]) := by
  refine ⟨?_, ?_⟩
  · rw [savedByOthers_append, savedByOthers_saved, if_neg others, List.foldl_append,
      List.foldl_cons, List.foldl_nil, MemoryStore.events_save, MemoryStore.events_save,
      apart.events]
  · rw [MemoryStore.events_save, MemoryStore.filter_place, apart.own]
    intro e same
    exact decide_eq_false (same ▸ other)

variable [DecidableEq H]

/-- A step keeps the events of a replay apart, if it does not save one of its identifiers for
somebody else. -/
theorem of_rule {config : PoolConfig} {start : MemoryStore} (distinct : start.Distinct)
    (apart : Apart n loaded s₀ s.store during) (there : ∀ e ∈ loaded, e ∈ s₀.events)
    (run : Run StoredBus.step (.new config start) log s) (given : .loaded n loaded ∈ s.answers)
    (rule : Rule s t deed)
    (others : ∀ event ∈ savedByOthers n [deed], event.id ∉ loaded.map (·.id)) :
    Apart n loaded s₀ t.store (during ++ [deed]) := by
  rcases rule.store_cases with ⟨event, replay?, rfl, saved, source⟩ | ⟨same, other⟩
  · rw [saved]
    by_cases own : replay? = some n
    · obtain ⟨u, d, call, replay, publishes, rfl, waits, rfl⟩ := source n own
      obtain ⟨events, answered, known⟩ := loaded_of_saves run publishes waits
      obtain rfl := (Answering.of_run run).loaded_unique given answered
      rw [own]
      exact apart.save_own (distinct_of_run run distinct) known (there _ known)
    · rw [savedByOthers_saved, if_neg own, List.forall_mem_singleton] at others
      exact apart.save_other own others
  · refine ⟨?_, same ▸ apart.own⟩
    rw [same, savedByOthers_append, savedByOthers_of_ne n other, List.append_nil]
    exact apart.events

theorem of_run {config : PoolConfig} {start : MemoryStore} (distinct : start.Distinct)
    (run : Run StoredBus.step (.new config start) log s) (given : .loaded n loaded ∈ s.answers)
    (there : ∀ e ∈ loaded, e ∈ s.store.events) (more : Run StoredBus.step s during t)
    (others : ∀ event ∈ savedByOthers n during, event.id ∉ loaded.map (·.id)) :
    Apart n loaded s.store t.store during ∧ .loaded n loaded ∈ t.answers := by
  induction more with
  | refl => exact ⟨⟨rfl, rfl⟩, given⟩
  | snoc init step ih =>
    obtain ⟨deed, rule, rfl⟩ := Rule.of_step step
    rw [savedByOthers_append, List.forall_mem_append] at others
    obtain ⟨apart, given⟩ := ih others.1
    exact ⟨apart.of_rule distinct there (run.trans init) given rule others.2,
      rule.answers_subset given⟩

end Apart

/-- What a replay does to the store `s₀` that has loaded its events: nothing that others would not
have done. -/
structure Unharmed (n : Nat) (call : ReplayCall) (loaded : List Event) (s₀ s : MemoryStore)
    (during : List (StoredDeed H)) : Prop where
  /-- the replay hears of these events and of no others -/
  heard : ∀ result ∈ answersTo n (movesOf during), result = .ok loaded
  /-- the events are there as the others alone would have left them, in the same order -/
  events : s.events = ((savedByOthers n during).foldl MemoryStore.save s₀).events
  /-- no mark is lost -/
  processed : ∀ id, s₀.isProcessed id = true → s.isProcessed id = true
  /-- the same events are loaded again, in the same order -/
  again : (s.eventsSince call.name call.since).filter (among loaded) = loaded
  /-- and with them only what others have saved -/
  more : ∀ e ∈ s.eventsSince call.name call.since, e ∈ loaded ∨ e ∈ savedByOthers n during
  /-- if these have saved nothing then all is as it was -/
  alone : savedByOthers n during = [] →
    s.events = s₀.events ∧ s.eventsSince call.name call.since = loaded

theorem unharmed [DecidableEq H] {config : PoolConfig} {start : MemoryStore}
    (distinct : start.Distinct) (run : Run StoredBus.step (.new config start) log s) {n : Nat}
    {loaded : List Event} {s₁ : StoredBus H}
    (loads : s.step (.serve (.load n)) = some (s₁, [.loaded n loaded]))
    (more : Run StoredBus.step s₁ during t)
    (others : ∀ event ∈ savedByOthers n during, event.id ∉ loaded.map (·.id)) :
    ∃ call, s.bus.loader? n = some call ∧ loaded = s.store.eventsSince call.name call.since ∧
      Unharmed n call loaded s.store t.store during := by
  have before := run.snoc loads
  rw [step] at loads
  split at loads
  case isTrue => cases loads
  case isFalse =>
    obtain ⟨call, waits, same⟩ := Option.map_eq_some_iff.mp loads
    obtain ⟨rfl, told⟩ := Prod.mk.inj same
    obtain ⟨-, rfl⟩ := StoredDeed.loaded.inj (List.singleton_inj.mp told)
    have there (e : Event) (known : e ∈ s.store.eventsSince call.name call.since) :
        e ∈ s.store.events := ((s.store.mem_eventsSince ..).mp known).1
    obtain ⟨apart, given⟩ := Apart.of_run distinct before
      (List.mem_append_right _ (List.mem_singleton_self _)) there more others
    refine ⟨call, waits, rfl, ?_, apart.events, (grows_of_run more).processed, ?_, ?_, ?_⟩
    · intro result known
      have answering := Answering.of_run (before.trans more)
      obtain ⟨events, rfl, answered⟩ := answering.heard n result (by
        rw [movesOf_append, answersTo, List.filterMap_append]
        exact List.mem_append_right _ known)
      rw [answering.loaded_unique answered given]
    · rw [MemoryStore.filter_eventsSince, apart.own, ← MemoryStore.filter_eventsSince]
      exact List.filter_eq_self.mpr fun e known => decide_eq_true (List.mem_map_of_mem known)
    · intro e known
      obtain ⟨known, meant⟩ := (t.store.mem_eventsSince ..).mp known
      rw [apart.events] at known
      exact (MemoryStore.mem_events_foldl known).imp_left fun old =>
        (s.store.mem_eventsSince ..).mpr ⟨old, meant⟩
    · intro nothing
      have same := apart.events
      rw [nothing] at same
      refine ⟨same, ?_⟩
      rw [MemoryStore.eventsSince_eq, same]
      rfl

/-- **A replay does what it says, and no harm.** Whatever happens to a bus, and whatever its store
answers: what is no turn of a replay is a single step of the pool, and each call of replay publishes
the events that were loaded for it, in their order and up to the first that is refused, and answers
with how far it came (`Broker.Reports`, `Broker.Exact`). With a store in memory, from the moment at
which it has loaded the events for as long as nobody but the replay saves an event of one of their
identifiers: the events of the store and their order are as the others alone would have left them,
no mark is lost, and the same events are loaded again with what others have saved. -/
theorem replay_is_exact [DecidableEq H] (config : PoolConfig) :
    (∀ (log : List (Move H)) (b : Broker H), Run Broker.watch (.new config) log b →
      (∀ move ∈ log, move.replay? = none →
        ∃ action notices, move.action = .pool action ∧ move.deeds = [.pool ⟨action, notices⟩]) ∧
      ∀ move ∈ log, ∀ ctx name since, move.action = .replay ctx name since →
        ∃ n, move.replay? = some n ∧ Broker.Reports ctx n log b) ∧
      ∀ (start : MemoryStore) (log during : List (StoredDeed H)) (s s₁ t : StoredBus H) (n : Nat)
        (loaded : List Event), start.Distinct → Run StoredBus.step (.new config start) log s →
        s.step (.serve (.load n)) = some (s₁, [.loaded n loaded]) →
        Run StoredBus.step s₁ during t →
        (∀ event ∈ savedByOthers n during, event.id ∉ loaded.map (·.id)) →
        ∃ call, s.bus.loader? n = some call ∧ loaded = s.store.eventsSince call.name call.since ∧
          Broker.Reports call.ctx n (movesOf (log ++ [.loaded n loaded] ++ during)) t.bus ∧
          Unharmed n call loaded s.store t.store during := by
  refine ⟨fun log b run => ?_, ?_⟩
  · have moved : Broker.Moved log b := .of_run run
    exact ⟨moved.plain, fun move there ctx name since comes => moved.reports there comes⟩
  · intro start log during s s₁ t n loaded distinct run loads more others
    obtain ⟨call, waits, same, harmless⟩ := unharmed distinct run loads more others
    have known : Broker.Moved (movesOf log) s.bus := .of_run (run_moves run)
    obtain ⟨move, there, turn, comes⟩ := known.of_loader? waits
    have total := (run.snoc loads).trans more
    have moved : Broker.Moved (movesOf (log ++ [.loaded n loaded] ++ during)) t.bus :=
      .of_run (run_moves total)
    have there : move ∈ movesOf (log ++ [.loaded n loaded] ++ during) := by
      rw [List.append_assoc, movesOf_append]
      exact List.mem_append_left _ there
    obtain ⟨m, own, reports⟩ := moved.reports there comes
    obtain rfl : n = m := Option.some.inj (turn.symm.trans own)
    exact ⟨call, waits, same, reports, harmless⟩

/-- An event that is stored, and another one of its name. -/
def growing : Event × Event := (default, { (default : Event) with id := ⟨1⟩ })

/-- What happens while the first event is replayed: the second one is saved by somebody else. -/
def meanwhile : List (StoredAction Unit) :=
  [.hear (.load 0), .save growing.2, .serve (.save 0), .hear (.save 0)]

/-- The replay of the first event, from the loading of it to the answer. -/
theorem growing_run :
    ∃ (log during : List (StoredDeed Unit)) (s t : StoredBus Unit) (call : ReplayCall),
      Run StoredBus.step (.new ⟨2, 1, false⟩ (.ofEvents [growing.1])) log s ∧
      s.bus.loader? 0 = some call ∧
      s.step (.serve (.load 0)) =
        some (s.answered (.loaded 0 [growing.1]), [.loaded 0 [growing.1]]) ∧
      Run StoredBus.step (s.answered (.loaded 0 [growing.1])) during t ∧
      savedByOthers 0 during = [growing.2] ∧
      resultsOf (deedsFor 0 (movesOf (log ++ [.loaded 0 [growing.1]] ++ during))) = [.ok 1] ∧
      s.store.events = [growing.1] ∧ t.store.events = [growing.1, growing.2] ∧
      growing.2 ∈ t.store.eventsSince call.name call.since := by
  obtain ⟨log, during, s, t, call, first, waits, loads, second, saved, answer, before, after,
      meant⟩ :
      ∃ log during s t call,
        runAll StoredBus.step (.new ⟨2, 1, false⟩ (.ofEvents [growing.1]))
          [.bus (.replay default growing.1.name growing.1.occurredAt)] = some (s, log) ∧
        s.bus.loader? 0 = some call ∧
        s.step (.serve (.load 0)) =
          some (s.answered (.loaded 0 [growing.1]), [.loaded 0 [growing.1]]) ∧
        runAll StoredBus.step (s.answered (.loaded 0 [growing.1])) meanwhile = some (t, during) ∧
        savedByOthers 0 during = [growing.2] ∧
        resultsOf (deedsFor 0 (movesOf (log ++ [.loaded 0 [growing.1]] ++ during))) = [.ok 1] ∧
        s.store.events = [growing.1] ∧ t.store.events = [growing.1, growing.2] ∧
        (growing.2.name == call.name && call.since.le growing.2.occurredAt) = true := by
    refine ⟨_, _, _, _, _, rfl, rfl, ?_, rfl, rfl, rfl, rfl, rfl, rfl⟩
    have loaded : (MemoryStore.ofEvents [growing.1]).eventsSince growing.1.name
        growing.1.occurredAt = [growing.1] := List.mergeSort_singleton _
    show some
      (answered _ (StoreAnswer.loaded 0 ((MemoryStore.ofEvents [growing.1]).eventsSince _ _)),
        [StoredDeed.loaded 0 ((MemoryStore.ofEvents [growing.1]).eventsSince _ _)]) = _
    rw [loaded]
  exact ⟨log, during, s, t, call, .ofActions first, waits, loads, .ofActions second, saved, answer,
    before, after, (t.store.mem_eventsSince ..).mpr ⟨by simp [after], meant⟩⟩

/-- **Others may add to what is replayed.** Somebody saves another event during a replay, and not
one of those that are replayed. The replay has published them all, and yet the events of the store
are not the same as before, and the same replay would load more. -/
theorem replay_sees_others :
    ∃ (log during : List (StoredDeed Unit)) (s s₁ t : StoredBus Unit) (loaded : List Event)
      (call : ReplayCall),
      Run StoredBus.step (.new ⟨2, 1, false⟩ (.ofEvents loaded)) log s ∧
      s.bus.loader? 0 = some call ∧
      s.step (.serve (.load 0)) = some (s₁, [.loaded 0 loaded]) ∧
      Run StoredBus.step s₁ during t ∧
      (∀ event ∈ savedByOthers 0 during, event.id ∉ loaded.map (·.id)) ∧
      resultsOf (deedsFor 0 (movesOf (log ++ [.loaded 0 loaded] ++ during))) =
        [.ok loaded.length] ∧
      t.store.events ≠ s.store.events ∧ t.store.eventsSince call.name call.since ≠ loaded := by
  obtain ⟨log, during, s, t, call, first, waits, loads, second, saved, answer, before, after,
    more⟩ := growing_run
  refine ⟨log, during, s, _, t, [growing.1], call, first, waits, loads, second, ?_, answer, ?_, ?_⟩
  · rw [saved]
    decide
  · rw [before, after]
    exact fun same => nomatch same
  · intro same
    rw [same] at more
    exact absurd (congrArg Event.id (List.mem_singleton.mp more)) (by decide)

/-- Two events are replayed into a queue that has room for one. -/
def crowding : List (BrokerAction Unit) :=
  [.replay default default default, .loaded 0 (.ok [default, default]),
    .pool (.saved 0 (.ok ())), .pool (.saved 1 (.ok ()))]

theorem replay_is_exact_growing :
    (∃ (log : List (Move Unit)) (b : Broker Unit), Run Broker.watch (.new ⟨1, 1, false⟩) log b ∧
      answersTo 0 log = [.ok [default, default]] ∧
      resultsOf (deedsFor 0 log) = [.error (.replay 1 2 (.queueFull 1))] ∧
      Broker.Reports default 0 log b) ∧
    ∃ (log during : List (StoredDeed Unit)) (s s₁ t : StoredBus Unit) (call : ReplayCall),
      (MemoryStore.ofEvents [growing.1]).Distinct ∧
      Run StoredBus.step (.new ⟨2, 1, false⟩ (.ofEvents [growing.1])) log s ∧
      s.step (.serve (.load 0)) = some (s₁, [.loaded 0 [growing.1]]) ∧
      Run StoredBus.step s₁ during t ∧ savedByOthers 0 during = [growing.2] ∧
      resultsOf (deedsFor 0 (movesOf (log ++ [.loaded 0 [growing.1]] ++ during))) = [.ok 1] ∧
      Broker.Reports call.ctx 0 (movesOf (log ++ [.loaded 0 [growing.1]] ++ during)) t.bus ∧
      Unharmed 0 call [growing.1] s.store t.store during := by
  refine ⟨?_, ?_⟩
  · obtain ⟨log, b, move, rest, runs, first, comes, turn, answers, results⟩ :
        ∃ log b move rest, runAll Broker.watch (.new ⟨1, 1, false⟩) crowding = some (b, log) ∧
          log = move :: rest ∧ move.action = .replay default default default ∧
          move.replay? = some 0 ∧ answersTo 0 log = [.ok [default, default]] ∧
          resultsOf (deedsFor 0 log) = [.error (.replay 1 2 (.queueFull 1))] :=
      ⟨_, _, _, _, rfl, rfl, rfl, rfl, rfl, rfl⟩
    have run := Run.ofActions runs
    obtain ⟨n, own, reports⟩ := ((replay_is_exact _).1 log b run).2 move
      (by rw [first]; exact List.mem_cons_self) _ _ _ comes
    obtain rfl : 0 = n := Option.some.inj (turn.symm.trans own)
    exact ⟨log, b, run, answers, results, reports⟩
  · obtain ⟨log, during, s, t, -, first, -, loads, second, saved, answer, -⟩ := growing_run
    have distinct := MemoryStore.distinct_ofEvents [growing.1]
    obtain ⟨call, -, -, reports, harmless⟩ := (replay_is_exact ⟨2, 1, false⟩).2 _ log during s _ t 0
      [growing.1] distinct first loads second (by rw [saved]; decide)
    exact ⟨log, during, s, _, t, call, distinct, first, loads, second, saved, answer, reports,
      harmless⟩

end StoredBus

end DomainEvents.Bus
