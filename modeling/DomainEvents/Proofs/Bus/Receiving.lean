import DomainEvents.Proofs.Bus.Delivering
import DomainEvents.Proofs.Subscriptions

/-!
# How often a handler receives an event

A handler is called once for each of its subscriptions that a bus has when it turns to an event, if
the handler is interested whenever it is asked. A bus without a queue turns to an event when it is
published, and gets through if no handler fails; a worker turns to its event when it starts, and
gets through unless a panic kills it.

Together with what a process keeps of its subscriptions this gives the number of calls from what was
done: of the subscriptions that were made, those that are not gone.
-/

namespace DomainEvents

namespace Bus

variable {H : Type}

/-- If all subscriptions of some kind are interested in their turns, all of them are called. -/
theorem countP_interested {turns : List (Turn H)} {p : Subscription H → Bool}
    (wants : ∀ turn ∈ turns, p turn.entry = true → turn.verdict.interested = true) :
    (interested turns).countP p = (turns.map (·.entry)).countP p := by
  induction turns with
  | nil => rfl
  | cons turn turns ih =>
    obtain ⟨one, others⟩ := List.forall_mem_cons.mp wants
    rw [interested_cons, List.countP_append, ih others, List.map_cons, List.countP_cons,
      Nat.add_comm]
    refine congrArg _ ?_
    cases own : p turn.entry with
    | true => rw [one own]; simp [own]
    | false => split <;> simp [own]

/-- A turn that comes to its end without a failure was asked, and what it said was told. -/
theorem Turn.asked_mem (d : Dispatch) {turns : List (Turn H)} {turn : Turn H}
    (there : turn ∈ turns) (succeeds : turn.failure? = none) :
    .asked d turn.entry turn.verdict.interested ∈
      (turns.flatMap Delivery.callsOf).flatMap (·.transcript d) := by
  obtain ⟨entry, name, verdict⟩ := turn
  have asked : .interest entry (.returned verdict.interested) ∈ turns.flatMap Delivery.callsOf := by
    refine List.mem_flatMap.mpr ⟨_, there, ?_⟩
    cases verdict with
    | checkPanicked => cases succeeds
    | declined | handled | failed | panicked => exact List.mem_cons_self
  exact List.mem_flatMap.mpr ⟨_, asked, List.mem_cons_of_mem _ List.mem_cons_self⟩

namespace Direct

variable [DecidableEq H] {name : H → String} {s s₁ t : Direct H} {ctx : Context} {event : Event}
  {first : List (DirectNotice H)} {log during : List (DirectEntry H)}

open DirectNotice (about about_append about_self)

/-- A call of publish that succeeds has called all subscriptions that were interested. -/
theorem countP_calling {config : DirectConfig} (reach : Run (tick name) (.new config) log s)
    (goes : s.step name (.publish ctx event) = some (s₁, first))
    (run : Run (tick name) s₁ during t)
    (answered : .answered ⟨s.tickets, ctx, event⟩ (.ok ()) ∈
      about s.tickets (first ++ noticesOf during)) (p : Subscription H → Bool)
    (wants : ∀ entry interested, .asked ⟨s.tickets, ctx, event⟩ entry interested ∈
      about s.tickets (first ++ noticesOf during) → p entry = true → interested = true) :
    ((about s.tickets (first ++ noticesOf during)).filterMap DirectNotice.calling?).countP p =
      s.registry.entries.countP p := by
  rcases publish_cases goes with ⟨invalid, -, -, rfl, rfl⟩ | ⟨-, begun⟩
  · have silent := silent_of_gone run (Nat.lt_succ_self s.tickets) (call?_of_run reach)
    rw [about_append, silent, List.append_nil] at answered
    have refused := List.mem_singleton.mp (List.mem_of_mem_filter answered)
    cases refused
  · obtain ⟨calls, delivery, del⟩ := begun.of_run run
    obtain ⟨turns, ended, answers, told, -, called⟩ := del.failFast.answers _ answered
    rw [called]
    cases answers with
    | success all succeed =>
      rw [← all]
      refine countP_interested fun turn there own => wants turn.entry _ ?_ own
      rw [told]
      exact List.mem_append_left _ (turn.asked_mem _ there (succeed turn there))

end Direct

namespace Pool

variable [DecidableEq H] {p q : Pool H} {action : Action H} {notices : List (Notice H)}

/-- Only the actions that are about the subscriptions change them. -/
theorem Rule.registry_eq (rule : Rule p action q notices) :
    q.registry = (action.registration?.getD id) p.registry := by
  cases rule with
  | register _ changes =>
    rw [changes]
    rfl
  | _ => rfl

/-- A worker that has come to its end, unless a panic has killed it, has called all subscriptions
that were interested, of those that there were when it started. -/
theorem countP_calledFor {config : PoolConfig} {before after : History H} {t : Nat}
    (run : Run tick (.new config) (before ++ ⟨.start t, notices⟩ :: after) q)
    (gone : q.worker? t = none) (wanted : Subscription H → Bool)
    (harmless : ∀ d call, d.ticket = t →
      Made (.new config) (before ++ ⟨.start t, notices⟩ :: after) d call → call.kills = false)
    (wants : ∀ d entry outcome, d.ticket = t →
      Made (.new config) (before ++ ⟨.start t, notices⟩ :: after) d (.interest entry outcome) →
      wanted entry = true → outcome = .returned true)
    (reach : Run tick (.new config) before p) :
    (History.calledFor t (before ++ ⟨.start t, notices⟩ :: after)).countP wanted =
      p.registry.entries.countP wanted := by
  obtain ⟨m, d, calls, progress, started, found, account, made⟩ := account_of_start run
  obtain rfl := run_unique started reach
  obtain rfl : d.ticket = t := ticket_of_worker? found
  cases progress with
  | next phase =>
    have stands : q.worker? d.ticket = some ⟨d, phase⟩ := account.stands
    rw [gone] at stands
    cases stands
  | finished =>
    cases account.soFar with
    | @finished turns mark all =>
      rw [account.calledFor_itinerary, ← all]
      refine countP_interested fun turn there own => ?_
      have asked : .interest turn.entry turn.verdict.check ∈ itinerary d.event turns mark :=
        List.mem_append_left _ (List.mem_flatMap.mpr ⟨turn, there, turn.interest_mem _⟩)
      exact decide_eq_true (wants d _ _ rfl (made _ asked) own)
  | killed =>
    obtain ⟨call, there, kills⟩ := account.soFar.killed_iff.mp rfl
    rw [harmless d call rfl (made call there)] at kills
    cases kills

end Pool

end Bus

namespace Registries

variable {B H : Type} [DecidableEq B] [DecidableEq H]

open Bus

/-- **The subscriptions of a process are ordered lists with distinct numbers.** Take whatever was
done to the subscriptions of any number of buses, with fewer numbers given out than there are words
of 64 bits. No number was given out twice, each bus has the subscriptions that were made on it and
are not gone, in the order in which they were made, and each removal took the one that it should
(`Kept`). A copy stays as it was taken. The subscriptions of a bus do not change by anything else
that happens to the bus.

So of the subscriptions of a handler those are left that are not gone, and unless the bus was
cleared as many are gone as were removed with success. On either bus the handler is called as often
for an event, if it is interested whenever it is asked: by a call of publish that succeeds, and by a
worker that comes to its end without a panic. -/
theorem subscriptions_are_kept {log : List (RegistryDeed B H)} {s : Registries B H}
    (run : Run step ({} : Registries B H) log s) (few : (idsIn log).length < 2 ^ 64) :
    Kept log s ∧
    (∀ more t, Run step s more t → s.copies <+: t.copies) ∧
    (∀ name (b c : Direct H) action notices, b.step name action = some (c, notices) →
      c.registry = action.change b.registry) ∧
    (∀ (p q : Pool H) action notices, p.step action = some (q, notices) →
      q.registry = (action.registration?.getD id) p.registry) ∧
    ∀ bus handler,
      (leftOn bus log).countP (·.handler = handler) +
        (goneFrom bus log).countP (·.handler = handler) =
          (madeOn bus log).countP (·.handler = handler) ∧
      ((∀ deed ∈ log, deed.action ≠ .clear bus) →
        (goneFrom bus log).countP (·.handler = handler) = log.countP (·.removes bus handler)) ∧
      (∀ name config before (b c d : Direct H) ctx event first during,
        Run (Direct.tick name) (.new config) before b → b.registry = s.registry bus →
        b.step name (.publish ctx event) = some (c, first) →
        Run (Direct.tick name) c during d →
        .answered ⟨b.tickets, ctx, event⟩ (.ok ()) ∈
          DirectNotice.about b.tickets (first ++ noticesOf during) →
        (∀ entry interested, .asked ⟨b.tickets, ctx, event⟩ entry interested ∈
          DirectNotice.about b.tickets (first ++ noticesOf during) →
          entry.handler = handler → interested = true) →
        ((DirectNotice.about b.tickets (first ++ noticesOf during)).filterMap
          DirectNotice.calling?).countP (·.handler = handler) =
            (leftOn bus log).countP (·.handler = handler)) ∧
      ∀ config deeds (b : Broker H) before after t notices p,
        Run Broker.step (Broker.new config) deeds b →
        history deeds = before ++ ⟨.start t, notices⟩ :: after →
        Run Pool.tick (.new config) before p → p.registry = s.registry bus →
        b.pool.worker? t = none →
        (∀ d call, d.ticket = t → Pool.Made (.new config) (history deeds) d call →
          call.kills = false) →
        (∀ d entry outcome, d.ticket = t →
          Pool.Made (.new config) (history deeds) d (.interest entry outcome) →
          entry.handler = handler → outcome = .returned true) →
        ((history deeds).calledFor t).countP (·.handler = handler) =
          (leftOn bus log).countP (·.handler = handler) := by
  have kept := kept_of_run run few
  refine ⟨kept, fun more t later => copies_of_run later, ?_, ?_, ?_⟩
  · intro name b c action notices goes
    exact (Direct.Rule.of_step goes).registry_eq
  · intro p q action notices goes
    exact (Pool.Rule.of_step goes).registry_eq
  · intro bus handler
    refine ⟨kept.balance bus handler, fun uncleared => kept.removals uncleared handler, ?_, ?_⟩
    · intro name config before b c d ctx event first during reach same goes run answered wants
      rw [← kept.entries, ← same]
      exact Direct.countP_calling reach goes run answered _ (by simpa using wants)
    · intro config deeds b before after t notices p run cut reach same gone harmless wants
      have ran := Broker.run_pool run
      rw [cut] at ran harmless wants ⊢
      rw [← kept.entries, ← same]
      exact Pool.countP_calledFor ran gone _ harmless (by simpa using wants) reach

/-- One handler on two buses. On the bus `true` it has three subscriptions and is removed once,
which takes the first of them; to remove that one by its number fails then, and so it does with the
number of a subscription of the other bus. Each kind of bus that has the two that are left calls the
handler twice. -/
theorem subscriptions_are_kept_twins :
    ∃ (log : List (RegistryDeed Bool Unit)) (s : Registries Bool Unit),
      Run step ({} : Registries Bool Unit) log s ∧
      log.map (·.answer) =
        [.made ⟨1⟩, .made ⟨2⟩, .made ⟨3⟩, .made ⟨4⟩, .copied [⟨⟨1⟩, ()⟩, ⟨⟨3⟩, ()⟩, ⟨⟨4⟩, ()⟩],
          .removed true, .removed false, .removed false] ∧
      s.copies = [[⟨⟨1⟩, ()⟩, ⟨⟨3⟩, ()⟩, ⟨⟨4⟩, ()⟩]] ∧
      (s.registry true).entries = [⟨⟨3⟩, ()⟩, ⟨⟨4⟩, ()⟩] ∧
      (goneFrom true log).countP (·.handler = ()) = log.countP (·.removes true ()) ∧
      (∃ (b c d : Direct Unit) (first : List (DirectNotice Unit)) (during : List _),
        b.registry = s.registry true ∧
        b.step (fun _ => "audit") (.publish default shippedOrder) = some (c, first) ∧
        Run (Direct.tick fun _ => "audit") c during d ∧
        ((DirectNotice.about b.tickets (first ++ noticesOf during)).filterMap
          DirectNotice.calling?).countP (·.handler = ()) = 2) ∧
      ∃ (deeds : List (Deed Unit)) (b : Broker Unit),
        Run Broker.step (Broker.new ⟨2, 1, true⟩) deeds b ∧
        ((history deeds).calledFor 0).countP (·.handler = ()) = 2 := by
  obtain ⟨log, s, done, answers, copies, few, uncleared, left⟩ :
      ∃ log s, runAll step ({} : Registries Bool Unit)
          [.subscribe true (), .subscribe false (), .subscribe true (), .subscribe true (),
            .copy true, .unsubscribe true (), .off true ⟨1⟩, .off true ⟨2⟩] = some (s, log) ∧
        log.map (·.answer) =
          [.made ⟨1⟩, .made ⟨2⟩, .made ⟨3⟩, .made ⟨4⟩, .copied [⟨⟨1⟩, ()⟩, ⟨⟨3⟩, ()⟩, ⟨⟨4⟩, ()⟩],
            .removed true, .removed false, .removed false] ∧
        copiesIn log = [[⟨⟨1⟩, ()⟩, ⟨⟨3⟩, ()⟩, ⟨⟨4⟩, ()⟩]] ∧ (idsIn log).length = 4 ∧
        log.all (fun deed => !deed.action matches .clear _) = true ∧
        leftOn true log = [⟨⟨3⟩, ()⟩, ⟨⟨4⟩, ()⟩] :=
    ⟨_, _, rfl, rfl, rfl, rfl, rfl, rfl⟩
  have run := Run.ofActions done
  obtain ⟨kept, -, -, -, counts⟩ := subscriptions_are_kept run (by omega)
  obtain ⟨-, removals, direct, pool⟩ := counts true ()
  have registry : s.registry true = ⟨[⟨⟨3⟩, ()⟩, ⟨⟨4⟩, ()⟩]⟩ := by
    rw [← left, ← kept.entries]
  have two : (leftOn true log).countP (·.handler = ()) = 2 := by
    rw [left]
    rfl
  refine ⟨log, s, run, answers, kept.copies.trans copies, congrArg Registry.entries registry,
    removals ?_, ?_, ?_⟩
  · intro deed there cleared
    have other := List.all_eq_true.mp uncleared deed there
    rw [cleared] at other
    cases other
  · obtain ⟨b, c, d, before, first, during, reach, same, goes, after, answered, asked⟩ :
        ∃ b c d before first during,
          runAll (Direct.tick fun _ => "audit") (.new {})
            [.subscribe ⟨1⟩ (), .subscribe ⟨3⟩ (), .subscribe ⟨4⟩ (), .unsubscribe ()] =
              some (b, before) ∧
          b.registry = ⟨[⟨⟨3⟩, ()⟩, ⟨⟨4⟩, ()⟩]⟩ ∧
          b.step (fun _ => "audit") (.publish default shippedOrder) = some (c, first) ∧
          runAll (Direct.tick fun _ => "audit") c
            [.asked 0 true, .handled 0 (.ok ()), .asked 0 true, .handled 0 (.ok ())] =
              some (d, during) ∧
          (DirectNotice.about b.tickets (first ++ noticesOf during)).getLast? =
            some (.answered ⟨b.tickets, default, shippedOrder⟩ (.ok ())) ∧
          (DirectNotice.about b.tickets (first ++ noticesOf during)).all
            (fun notice => !notice matches .asked _ _ false) = true :=
      ⟨_, _, _, _, _, _, rfl, rfl, rfl, rfl, rfl, rfl⟩
    have later := Run.ofActions after
    have count := direct _ _ _ b c d _ _ first during (Run.ofActions reach)
      (same.trans registry.symm) goes later (List.mem_of_getLast? answered) (by
        intro entry interested told _
        cases interested with
        | false => cases List.all_eq_true.mp asked _ told
        | true => rfl)
    exact ⟨b, c, d, first, during, same.trans registry.symm, goes, later, count.trans two⟩
  · obtain ⟨prior, m, q, notices, more, b, deeds, first, starts, rest, same, gone, all, heard⟩ :
        ∃ prior m q notices more b deeds,
          runAll Broker.step (Broker.new (H := Unit) ⟨2, 1, true⟩)
            [.pool (.subscribe ⟨1⟩ ()), .pool (.subscribe ⟨3⟩ ()), .pool (.subscribe ⟨4⟩ ()),
              .pool (.unsubscribe ()), .pool (.publish default shippedOrder),
              .pool (.saved 0 (.ok ())), .pool .dispatch, .pool .dispatch] = some (m, prior) ∧
          m.step (.pool (.start 0)) = some (q, [.pool ⟨.start 0, notices⟩]) ∧
          runAll Broker.step q
            [.pool (.reply 0 (.named (.returned "audit"))),
              .pool (.reply 0 (.asked (.returned true))),
              .pool (.reply 0 (.handled (.returned (.ok ())))),
              .pool (.reply 0 (.named (.returned "audit"))),
              .pool (.reply 0 (.asked (.returned true))),
              .pool (.reply 0 (.handled (.returned (.ok ())))),
              .pool (.reply 0 (.marked (.returned (.ok ()))))] = some (b, more) ∧
          m.pool.registry = ⟨[⟨⟨3⟩, ()⟩, ⟨⟨4⟩, ()⟩]⟩ ∧ b.pool.worker? 0 = none ∧
          prior ++ ([.pool ⟨.start 0, notices⟩] ++ more) = deeds ∧
          (history deeds).heard 0 =
            [.named (.returned "audit"), .asked (.returned true), .handled (.returned (.ok ())),
              .named (.returned "audit"), .asked (.returned true), .handled (.returned (.ok ())),
              .marked (.returned (.ok ()))] :=
      ⟨_, _, _, _, _, _, _, rfl, rfl, rfl, rfl, rfl, rfl, rfl⟩
    have before := Run.ofActions first
    have run := before.trans ((Run.single starts).trans (Run.ofActions rest))
    rw [all] at run
    have cut : history deeds = history prior ++ ⟨.start 0, notices⟩ :: history more := by
      rw [← all, history_append]
      rfl
    have told {d : Dispatch} {call : Call Unit} (ticket : d.ticket = 0)
        (made : Pool.Made (.new ⟨2, 1, true⟩) (history deeds) d call) :
        call.kills = false ∧ ∀ entry outcome, call = .interest entry outcome →
          outcome = .returned true := by
      have told := made.known.2
      rw [ticket, heard] at told
      clear made ticket heard
      cases call with
      | name _ outcome =>
        obtain rfl : outcome = .returned "audit" := by simpa [Call.reply] using told
        exact ⟨rfl, fun _ _ same => by cases same⟩
      | interest _ outcome =>
        obtain rfl : outcome = .returned true := by simpa [Call.reply] using told
        exact ⟨rfl, fun _ _ same => (Call.interest.inj same).2.symm⟩
      | handler => exact ⟨rfl, fun _ _ same => by cases same⟩
      | report => simp [Call.reply] at told
      | mark _ outcome =>
        obtain rfl : outcome = .returned (.ok ()) := by simpa [Call.reply] using told
        exact ⟨rfl, fun _ _ same => by cases same⟩
    have count := pool ⟨2, 1, true⟩ deeds b _ _ 0 notices m.pool run cut (Broker.run_pool before)
      (same.trans registry.symm) gone (fun _ _ ticket made => (told ticket made).1)
      (fun _ _ _ ticket made _ => (told ticket made).2 _ _ rfl)
    exact ⟨deeds, b, run, count.trans two⟩

end Registries

end DomainEvents
