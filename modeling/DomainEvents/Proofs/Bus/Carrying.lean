import DomainEvents.Proofs.Bus.Delivering
import DomainEvents.Proofs.Bus.Replaying

/-!
# Contexts on their way through a bus

A bus of either kind takes a context along with each event, from the call of publish to the
handlers, and a replay takes one along to all its calls of publish. `Cargo.Goes` says so of one
step: the events that the bus has after it were there before, but for the one of a call that has
begun, which has the context that was given with the call or that of the replay whose turn it is;
and handlers are called only for events that were there. `Carrier.goes_of_step` says it of every
step.
-/

namespace DomainEvents.Bus

variable {H : Type}

/-! ## Actions -/

/-- The context that comes along with an event, if the action is to publish one. -/
def Action.given? : Action H → Option Context
  | .publish ctx _ => some ctx
  | _ => none

/-- The context that comes from outside with an action, if one does: that of an event or of a
replay. -/
def BrokerAction.given? : BrokerAction H → Option Context
  | .pool action => action.given?
  | .replay ctx _ _ => some ctx
  | _ => none

/-- The context that comes along with an event, if the action is to publish one. -/
def DirectAction.given? : DirectAction H → Option Context
  | .publish ctx _ => some ctx
  | _ => none

/-! ## Pools -/

namespace Pool

/-- The events for which handlers may yet be called. -/
def dispatches (p : Pool H) : List Dispatch := p.saving ++ p.queue ++ p.hand.toList ++ p.working

theorem mem_dispatches {p : Pool H} {d : Dispatch} :
    d ∈ p.dispatches ↔ d ∈ p.saving ∨ d ∈ p.queue ∨ d ∈ p.hand.toList ∨ d ∈ p.working := by
  simp only [dispatches, List.mem_append, or_assoc]

variable [DecidableEq H] {p q : Pool H} {action : Action H} {notices : List (Notice H)}

/-- An event that a pool has was there before, or has just been published. -/
theorem Rule.mem_dispatches (rule : Rule p action q notices) {d : Dispatch}
    (there : d ∈ q.dispatches) :
    d ∈ p.dispatches ∨ d.ticket = p.tickets ∧ action.given? = some d.ctx := by
  rw [Pool.mem_dispatches] at there ⊢
  cases rule with
  | ask =>
    rcases there with there | there
    · rcases List.mem_append.mp there with old | new
      · exact .inl (.inl old)
      · obtain rfl := List.mem_singleton.mp new
        exact .inr ⟨rfl, rfl⟩
    · exact .inl (.inr there)
  | refuseLate | forsake => exact .inl (there.imp_left List.mem_of_mem_eraseP)
  | accept waits =>
    rcases there with there | there | there
    · exact .inl (.inl (List.mem_of_mem_eraseP there))
    · rcases List.mem_append.mp there with old | moved
      · exact .inl (.inr (.inl old))
      · obtain rfl := List.mem_singleton.mp moved
        exact .inl (.inl (List.mem_of_find?_eq_some waits))
    · exact .inl (.inr (.inr there))
  | handOut hand =>
    rw [hand, Hand.toList_granted]
    rcases there with there | there | there | there
    · exact .inl (.inl there)
    · exact .inl (.inr (.inl there))
    · cases there
    · rw [working, List.map_append, List.mem_append] at there
      exact .inl (.inr (.inr there.symm))
  | take _ _ queue =>
    rw [queue, List.mem_cons]
    rcases there with there | there | there | there
    · exact .inl (.inl there)
    · exact .inl (.inr (.inl (.inr there)))
    · rw [toList_take] at there
      exact .inl (.inr (.inl (.inl (List.mem_singleton.mp there))))
    · exact .inl (.inr (.inr (.inr there)))
  | start | turn =>
    rw [← working_setPhase p _ _]
    exact .inl there
  | finish worker =>
    have back : (p.giveBack).hand.toList = p.hand.toList := Hand.toList_grant _
    rcases there with there | there | there | there
    · exact .inl (.inl there)
    · exact .inl (.inr (.inl there))
    · exact .inl (.inr (.inr (.inl (back ▸ there))))
    · exact .inl (.inr (.inr (.inr
        ((working_endWorker worker _).mem_iff.mpr (List.mem_cons_of_mem _ there)))))
  | _ => exact .inl there

/-- A call of publish takes a number. -/
theorem Rule.tickets_lt (rule : Rule p action q notices) (taken : action.given?.isSome) :
    p.tickets < q.tickets := by
  cases rule with
  | refuse | ask => exact Nat.lt_succ_self _
  | register _ changes =>
    cases action with
    | publish => cases changes
    | _ => cases taken
  | _ => cases taken

/-- Handlers are called for the events that there are. -/
theorem Rule.called_mem (rule : Rule p action q notices) {d : Dispatch}
    (told : d ∈ notices.filterMap Notice.called?) : d ∈ p.dispatches := by
  obtain ⟨n, there, calls⟩ := List.mem_filterMap.mp told
  cases n with
  | worker e act =>
    have working := rule.mem_working there
    cases act with
    | called =>
      obtain rfl := Option.some.inj calls
      exact Pool.mem_dispatches.mpr (.inr (.inr (.inr working)))
    | _ => cases calls
  | _ => cases calls

end Pool

/-! ## What a step does to contexts -/

/-- What a bus has to do with contexts. -/
structure Cargo where
  /-- the number of the next call -/
  tickets : Nat
  /-- the events for which handlers may yet be called, with their contexts -/
  dispatches : List Dispatch
  /-- the number of the next replay -/
  calls : Nat := 0
  /-- the contexts that replays take along, by the numbers of the replays -/
  taking : List (Nat × Context) := []

/-- What a bus tells of the contexts that it takes along. -/
structure Passing where
  /-- whether a call of publish has begun -/
  taken : Bool
  /-- the events for which handlers are called -/
  called : List Dispatch

/-- Where the context of an event comes from: from outside with the action, or else from the replay
whose turn it is. -/
inductive Source (taking : List (Nat × Context)) :
    Option Context → Option Nat → Context → Prop where
  | outside {ctx : Context} {turn? : Option Nat} : Source taking (some ctx) turn? ctx
  | replay {ctx : Context} {n : Nat} (there : (n, ctx) ∈ taking) : Source taking none (some n) ctx

/-- What a step may do: `given?` is the context that comes from outside with it, and `turn?` the
replay whose turn it is. -/
structure Cargo.Goes (a b : Cargo) (given? : Option Context) (turn? : Option Nat)
    (told : Passing) : Prop where
  tickets_le : a.tickets ≤ b.tickets
  tickets_lt : told.taken = true → a.tickets < b.tickets
  calls_le : a.calls ≤ b.calls
  /-- an event was there before, or it is published -/
  dispatches : ∀ d ∈ b.dispatches, d ∈ a.dispatches ∨
    told.taken = true ∧ d.ticket = a.tickets ∧ Source a.taking given? turn? d.ctx
  /-- a replay was there before, or comes in with a context from outside -/
  taking : ∀ r ∈ b.taking, r ∈ a.taking ∨ r.1 = a.calls ∧ a.calls < b.calls ∧ given? = some r.2
  /-- handlers are called for the events that were there -/
  called : ∀ d ∈ told.called, d ∈ a.dispatches

namespace Cargo.Goes

variable {a b : Cargo} {given? : Option Context} {turn? : Option Nat} {told : Passing}

/-- Nothing new has come. -/
theorem of_subset {dispatches called : List Dispatch} {taking : List (Nat × Context)}
    (fewer : dispatches ⊆ a.dispatches) (less : taking ⊆ a.taking) (known : called ⊆ a.dispatches) :
    a.Goes { a with dispatches, taking } given? turn? ⟨false, called⟩ where
  tickets_le := le_rfl
  tickets_lt := nofun
  calls_le := le_rfl
  dispatches _ there := .inl (fewer there)
  taking _ there := .inl (less there)
  called _ there := known there

/-- Some events are gone before a step. -/
theorem of_fewer {dispatches : List Dispatch} (fewer : dispatches ⊆ a.dispatches)
    (goes : Goes { a with dispatches } b given? turn? told) : a.Goes b given? turn? told :=
  { goes with
    dispatches := fun d there => (goes.dispatches d there).imp_left fun old => fewer old
    called := fun d there => fewer (goes.called d there) }

/-- Some replays are gone after a step. -/
theorem to_less {taking : List (Nat × Context)} (less : taking ⊆ b.taking)
    (goes : a.Goes b given? turn? told) : a.Goes { b with taking } given? turn? told :=
  { goes with taking := fun r there => goes.taking r (less there) }

end Cargo.Goes

/-! ## Buses with replays -/

namespace Broker

/-- What a bus with replays has to do with contexts. -/
def cargo (b : Broker H) : Cargo where
  tickets := b.pool.tickets
  dispatches := b.pool.dispatches
  calls := b.calls
  taking := b.replays.map fun call => (call.number, call.ctx)

theorem cargo_setWait (b : Broker H) (number : Nat) (wait : ReplayWait) :
    (b.setWait number wait).cargo = b.cargo := by
  have same : ((b.setWait number wait).replays.map fun call => (call.number, call.ctx)) =
      b.cargo.taking := by
    rw [cargo, setWait, List.map_map]
    refine List.map_congr_left fun call _ => ?_
    rw [Function.comp_apply]
    split <;> rfl
  rw [cargo, same]
  rfl

theorem taking_remove (b : Broker H) (number : Nat) :
    (b.remove number).cargo.taking ⊆ b.cargo.taking :=
  List.map_subset _ List.eraseP_subset

/-- What the deeds of a bus tell of contexts. -/
def passing (deeds : List (Deed H)) : Passing :=
  ⟨(history deeds).any (·.action.given?.isSome), (history deeds).called⟩

variable [DecidableEq H] {b c : Broker H} {call : ReplayCall}
  {whose : Option Nat} {deeds : List (Deed H)}

/-- A step of the pool, whatever makes it: a context that is given with an event comes from
outside, or is that of the replay whose turn it is. -/
theorem goes_of_rule {action : Action H} {pool : Pool H} {notices : List (Notice H)}
    (rule : Pool.Rule b.pool action pool notices) {given? : Option Context} {turn? : Option Nat}
    (source : ∀ ctx, action.given? = some ctx → Source b.cargo.taking given? turn? ctx) :
    b.cargo.Goes (cargo { b with pool }) given? turn? (passing [.pool ⟨action, notices⟩]) where
  tickets_le := rule.tickets_le
  tickets_lt taken := rule.tickets_lt (by simpa [passing] using taken)
  calls_le := le_rfl
  dispatches d there := by
    refine (rule.mem_dispatches there).imp_right ?_
    rintro ⟨ticket, published⟩
    exact ⟨by simp [passing, published], ticket, source _ published⟩
  taking _ there := .inl there
  called _ told := rule.called_mem (by simpa [passing, History.collect_cons] using told)

/-- A step of the pool in which nothing is published. -/
theorem goes_of_quiet {action : Action H} {pool : Pool H} {notices : List (Notice H)}
    (rule : Pool.Rule b.pool action pool notices) (quiet : action.given? = none)
    (given? : Option Context) (turn? : Option Nat) :
    b.cargo.Goes (cargo { b with pool }) given? turn? (passing [.pool ⟨action, notices⟩]) := by
  refine goes_of_rule rule fun ctx published => ?_
  rw [quiet] at published
  cases published

/-- A replay that has its turn publishes its next event with its own context. -/
theorem Turned.goes {step : ReplayStep} (turned : Turned b call step c deeds)
    (there : call ∈ b.replays) :
    b.cargo.Goes c.cargo none (some call.number) (passing deeds) := by
  have source (ctx : Context) (own : some call.ctx = some ctx) :
      Source b.cargo.taking none (some call.number) ctx := by
    obtain rfl := Option.some.inj own
    exact .replay (List.mem_map_of_mem there)
  cases turned with
  | answered => exact .of_subset (List.Subset.refl _) (b.taking_remove _) (List.nil_subset _)
  | @asks _ _ pool rule =>
    rw [cargo_setWait { b with pool }]
    exact goes_of_rule rule source
  | @refused _ _ pool _ rule =>
    exact (goes_of_rule rule source).to_less (taking_remove { b with pool } _)

/-- **What a bus with replays does to contexts in a step.** -/
theorem Rule.goes {action : BrokerAction H} (rule : Rule b action c whose deeds) :
    b.cargo.Goes c.cargo action.given? whose (passing deeds) := by
  cases rule with
  | act rule =>
    refine goes_of_rule rule fun ctx published => ?_
    rw [BrokerAction.given?, published]
    exact .outside
  | begins =>
    refine ⟨le_rfl, nofun, Nat.le_succ _, fun d there => .inl there, ?_, nofun⟩
    intro r there
    rw [cargo, List.map_append, List.mem_append] at there
    refine there.imp_right fun new => ?_
    obtain rfl := List.mem_singleton.mp new
    exact ⟨rfl, Nat.lt_succ_self _, rfl⟩
  | unloaded => exact .of_subset (List.Subset.refl _) (b.taking_remove _) (List.nil_subset _)
  | loaded waits turned =>
    obtain ⟨there, rfl, -⟩ := mem_of_loader? waits
    exact turned.goes there
  | @accepted t call replay d pool _ deeds waits _ rule turned =>
    have told : passing (.pool ⟨.saved t (.ok ()), [.accepted d, .answered d (.ok ())]⟩ :: deeds) =
        passing deeds := by
      simp [passing, Action.given?]
    have fewer : pool.dispatches ⊆ b.pool.dispatches := by
      intro d there
      rcases rule.mem_dispatches there with old | ⟨-, published⟩
      · exact old
      · cases published
    rw [told]
    have goes := turned.goes (mem_of_publisher? waits).1
    cases rule with
    | accept => exact goes.of_fewer fewer
  | @refused _ _ _ _ pool _ _ _ _ rule =>
    exact (goes_of_quiet rule rfl _ _).to_less (taking_remove { b with pool } _)
  | @forsaken _ _ _ pool _ rule =>
    exact (goes_of_quiet rule rfl _ _).to_less (taking_remove { b with pool } _)
  | gone => exact .of_subset (List.Subset.refl _) (b.taking_remove _) (List.nil_subset _)

end Broker

/-! ## Buses without a queue -/

/-- The event for which a handler is called, if the notice says so. -/
def DirectNotice.called? : DirectNotice H → Option Dispatch
  | .calling d _ => some d
  | _ => none

theorem DirectNotice.dispatch_of_called? {n : DirectNotice H} {d : Dispatch}
    (calls : n.called? = some d) : n.dispatch = d := by
  cases n with
  | calling => exact Option.some.inj calls
  | _ => cases calls

namespace Direct

/-- What a bus without a queue has to do with contexts. -/
def cargo (b : Direct H) : Cargo where
  tickets := b.tickets
  dispatches := b.calls.map (·.dispatch)

/-- What the step of a bus without a queue tells of contexts. -/
def passing (action : DirectAction H) (notices : List (DirectNotice H)) : Passing :=
  ⟨action.given?.isSome, notices.filterMap DirectNotice.called?⟩

variable {name : H → String} {b c : Direct H} {d : Dispatch} {action : DirectAction H}
  {notices : List (DirectNotice H)}

theorem dispatches_remove (b : Direct H) (t : Nat) :
    (b.remove t).cargo.dispatches ⊆ b.cargo.dispatches :=
  List.map_subset _ List.filter_sublist.subset

/-- When a delivery goes on there are no other events than before, but for its own. -/
theorem cargo_proceed (name : H → String) (b : Direct H) (d : Dispatch) (delivery : Delivery H) :
    ∃ dispatches ⊆ d :: b.cargo.dispatches,
      (b.proceed name d delivery).1.cargo = { b.cargo with dispatches } := by
  rw [proceed]
  cases delivery.result? name with
  | none => exact ⟨_, List.cons_subset_cons _ (b.dispatches_remove _), rfl⟩
  | some => exact ⟨_, List.subset_cons_of_subset _ (b.dispatches_remove _), rfl⟩

/-- **What a bus without a queue does to contexts in a step.** -/
theorem Rule.goes [DecidableEq H] (rule : Rule name b action c notices) :
    b.cargo.Goes c.cargo action.given? none (passing action notices) := by
  cases rule with
  | refuse =>
    exact ⟨Nat.le_succ _, fun _ => Nat.lt_succ_self _, le_rfl, fun _ there => .inl there,
      fun _ there => .inl there, nofun⟩
  | @begins ctx event _ check =>
    obtain rfl := Delivery.eq_turnTo_of_start check
    obtain ⟨dispatches, own, same⟩ := cargo_proceed name { b with tickets := b.tickets + 1 }
      ⟨b.tickets, ctx, event⟩ (.turnTo 0 b.registry.entries)
    rw [same]
    refine ⟨Nat.le_succ _, fun _ => Nat.lt_succ_self _, le_rfl, fun d there => ?_,
      fun _ there => .inl there, ?_⟩
    · rcases List.mem_cons.mp (own there) with rfl | old
      · exact .inr ⟨rfl, rfl, .outside⟩
      · exact .inl old
    · -- a delivery begins with a handler that is asked, not with one that is called
      cases b.registry.entries <;> nofun
  | @hears action d delivery after reply call waits heard =>
    have known : d ∈ b.cargo.dispatches := List.mem_map_of_mem (List.mem_of_find?_eq_some waits)
    have own : ∀ n ∈ call.heard d ++ after.notices name d, n.dispatch = d :=
      List.forall_mem_append.mpr ⟨Call.dispatch_of_heard, Delivery.dispatch_of_notices⟩
    have hears := (heard d.ticket).trans (if_pos rfl)
    have plain : action.given? = none := by
      cases action with
      | publish => cases hears
      | _ => rfl
    obtain ⟨dispatches, fewer, same⟩ := cargo_proceed name b d after
    have fewer : dispatches ⊆ b.cargo.dispatches :=
      List.Subset.trans fewer (List.cons_subset.mpr ⟨known, List.Subset.refl _⟩)
    rw [same, passing, plain]
    refine .of_subset fewer (List.Subset.refl _) fun e told => ?_
    obtain ⟨n, there, calls⟩ := List.mem_filterMap.mp told
    rw [← DirectNotice.dispatch_of_called? calls, own n there]
    exact known
  | forsake => exact .of_subset (dispatches_remove _ _) (List.Subset.refl _) (List.nil_subset _)
  | @register action registers =>
    cases action with
    | subscribe | unsubscribe | off | clear =>
      exact .of_subset (List.Subset.refl _) (List.Subset.refl _) (List.nil_subset _)
    | _ => cases registers

end Direct

/-! ## Buses of either kind -/

/-- A bus of either kind. -/
inductive Carrier (H : Type) where
  | direct (bus : Direct H)
  | broker (bus : Broker H)

/-- How a bus of either kind is set up. -/
inductive CarrierConfig where
  | direct (config : DirectConfig)
  | broker (config : PoolConfig)

/-- Something that happens to a bus of either kind. -/
inductive CarrierAction (H : Type) where
  | direct (action : DirectAction H)
  | broker (action : BrokerAction H)

/-- The context that comes from outside with an action, if one does. -/
def CarrierAction.given? : CarrierAction H → Option Context
  | .direct action => action.given?
  | .broker action => action.given?

namespace Carrier

/-- A new bus. -/
def new : CarrierConfig → Carrier H
  | .direct config => .direct (.new config)
  | .broker config => .broker (.new config)

/-- What a bus has to do with contexts. -/
def cargo : Carrier H → Cargo
  | .direct bus => bus.cargo
  | .broker bus => bus.cargo

theorem cargo_new (config : CarrierConfig) :
    (new config : Carrier H).cargo = { tickets := 0, dispatches := [] } := by
  cases config <;> rfl

/-- The replay whose turn it is in a step, if it is the turn of one. -/
def turn? : Carrier H → CarrierAction H → Option Nat
  | .broker bus, .broker action => bus.turnOf action
  | _, _ => none

variable [DecidableEq H]

/-- The bus after something has happened to it, and what it tells of contexts; handlers are known
by name. -/
def step (name : H → String) : Carrier H → CarrierAction H → Option (Carrier H × Passing)
  | .direct bus, .direct action =>
    (bus.step name action).map fun (after, notices) =>
      (.direct after, Direct.passing action notices)
  | .broker bus, .broker action =>
    (bus.step action).map fun (after, deeds) => (.broker after, Broker.passing deeds)
  | _, _ => none

/-- **What a bus does to contexts in a step**, whichever kind it is of. -/
theorem goes_of_step {name : H → String} {b c : Carrier H} {action : CarrierAction H}
    {told : Passing} (step : b.step name action = some (c, told)) :
    b.cargo.Goes c.cargo action.given? (b.turn? action) told := by
  cases b with
  | direct bus =>
    cases action with
    | direct action =>
      obtain ⟨⟨after, notices⟩, goes, same⟩ := Option.map_eq_some_iff.mp step
      obtain ⟨rfl, rfl⟩ := Prod.mk.inj same
      exact (Direct.Rule.of_step goes).goes
    | broker => cases step
  | broker bus =>
    cases action with
    | direct => cases step
    | broker action =>
      obtain ⟨⟨after, deeds⟩, goes, same⟩ := Option.map_eq_some_iff.mp step
      obtain ⟨rfl, rfl⟩ := Prod.mk.inj same
      exact (Broker.Rule.of_step goes).goes

end Carrier

end DomainEvents.Bus
