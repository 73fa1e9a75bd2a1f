import DomainEvents.Proofs.Bus.Carrying
import Mathlib.Logic.Function.Basic

/-!
# Contexts of a process

Whoever holds a context may copy it, adjust the copy, cancel it and give it to a bus, which gives a
copy to each handler that it calls. `Contexts.step` is all that can happen to the contexts of a
process with any number of buses, while a clock goes on. It numbers the contexts and remembers which
one each was made from, so that it can be told which are kin: those that go back to the same new
context. The buses are the real ones, and of them it is enough to know where the contexts come from
that they take along (`Bus.Carrier.goes_of_step`).

A run keeps that families of contexts are kin (`Forest`), that an event on its way has the context
that was given with it (`Contexts.Fits`), and that a family is cancelled when a context of it was
(`Contexts.Kept`).
-/

namespace DomainEvents

open Bus (Carrier CarrierAction CarrierConfig Cargo Dispatch Passing Source)

/-! ## Kin -/

/-- A context that was made. -/
structure Held where
  /-- the number of the one it was made from; none if it was made anew -/
  parent : Option Nat
  context : Context
deriving DecidableEq

/-- A context goes back to one that was made anew. -/
inductive ComesFrom (held : List Held) : Nat → Nat → Prop where
  | root {n : Nat} {ctx : Context} (new : held[n]? = some ⟨none, ctx⟩) : ComesFrom held n n
  | made {n m root : Nat} {ctx : Context} (copy : held[n]? = some ⟨some m, ctx⟩)
      (comes : ComesFrom held m root) : ComesFrom held n root

/-- Two contexts that go back to the same new one. -/
def Kin (held : List Held) (m n : Nat) : Prop :=
  ∃ root, ComesFrom held m root ∧ ComesFrom held n root

variable {held more : List Held} {m n root : Nat} {ctx : Context} {families : Nat}

theorem ComesFrom.unique {other : Nat} (one : ComesFrom held n root)
    (two : ComesFrom held n other) : root = other := by
  induction one with
  | root new =>
    cases two with
    | root => rfl
    | made copy => cases new.symm.trans copy
  | made copy _ ih =>
    cases two with
    | root new => cases copy.symm.trans new
    | made copied comes =>
      cases copy.symm.trans copied
      exact ih comes

theorem getElem?_of_prefix {p : Held} (first : held <+: more) (there : held[n]? = some p) :
    more[n]? = some p := by
  obtain ⟨h, rfl⟩ := List.getElem?_eq_some_iff.mp there
  exact List.prefix_iff_getElem?.mp first n h

/-- What is at some place was there before, or has come later. -/
theorem getElem?_append_cases {h : Held} (there : (held ++ more)[n]? = some h) :
    held[n]? = some h ∨ held.length ≤ n ∧ h ∈ more := by
  rw [List.getElem?_append] at there
  split at there
  case isTrue => exact .inl there
  case isFalse late => exact .inr ⟨Nat.le_of_not_lt late, List.mem_of_getElem? there⟩

/-- The families of contexts are what they should be: a context is made from an earlier one and is
of its family, and each new one has a family of its own. -/
structure Forest (held : List Held) (families : Nat) : Prop where
  known : ∀ h ∈ held, h.context.family < families
  made : ∀ {n m : Nat} {ctx : Context}, held[n]? = some ⟨some m, ctx⟩ →
    m < n ∧ ∃ p, held[m]? = some p ∧ p.context.family = ctx.family
  new : ∀ {m n : Nat} {ctx other : Context}, held[m]? = some ⟨none, ctx⟩ →
    held[n]? = some ⟨none, other⟩ → ctx.family = other.family → m = n

namespace Forest

/-- A context goes back to a new one of its family. -/
theorem comes (forest : Forest held families) {h : Held} (there : held[n]? = some h) :
    ∃ root ctx, ComesFrom held n root ∧ held[root]? = some ⟨none, ctx⟩ ∧
      ctx.family = h.context.family := by
  induction n using Nat.strongRecOn generalizing h with
  | ind n ih =>
    obtain ⟨_ | m, ctx⟩ := h
    · exact ⟨n, ctx, .root there, there, rfl⟩
    · obtain ⟨before, p, parent, family⟩ := forest.made there
      obtain ⟨root, first, comes, new, same⟩ := ih m before parent
      exact ⟨root, first, .made there comes, new, same.trans family⟩

/-- **A family of contexts is all that are kin.** -/
theorem kin_iff (forest : Forest held families) {g h : Held} (one : held[m]? = some g)
    (two : held[n]? = some h) : Kin held m n ↔ g.context.family = h.context.family := by
  obtain ⟨r, c, comes, new, same⟩ := forest.comes one
  obtain ⟨r', c', comes', new', same'⟩ := forest.comes two
  constructor
  · rintro ⟨root, left, right⟩
    obtain rfl := left.unique comes
    obtain rfl := right.unique comes'
    cases new.symm.trans new'
    exact same.symm.trans same'
  · intro family
    obtain rfl := forest.new new new' (same.trans (family.trans same'.symm))
    exact ⟨r, comes, comes'⟩

theorem empty : Forest [] families := ⟨nofun, nofun, nofun⟩

/-- A new context has a family that there was not before. -/
theorem concat_new (forest : Forest held families) (ctx : Context) (own : ctx.family = families) :
    Forest (held ++ [⟨none, ctx⟩]) (families + 1) := by
  have fresh {n : Nat} {other : Context} (there : held[n]? = some ⟨none, other⟩) :
      other.family ≠ ctx.family := by
    rw [own]
    exact (forest.known _ (List.mem_of_getElem? there)).ne
  refine ⟨?_, ?_, ?_⟩
  · rintro h there
    rcases List.mem_append.mp there with old | last
    · exact Nat.lt_succ_of_lt (forest.known h old)
    · obtain rfl := List.mem_singleton.mp last
      exact own ▸ Nat.lt_succ_self _
  · rintro n m c there
    rcases getElem?_append_cases there with old | ⟨-, last⟩
    · obtain ⟨before, p, parent, family⟩ := forest.made old
      exact ⟨before, p, getElem?_of_prefix (List.prefix_append ..) parent, family⟩
    · cases List.mem_singleton.mp last
  · rintro m n c other one two family
    rcases getElem?_append_cases one with old | ⟨late, last⟩
    · rcases getElem?_append_cases two with old' | ⟨-, last'⟩
      · exact forest.new old old' family
      · cases List.mem_singleton.mp last'
        exact absurd family (fresh old)
    · rcases getElem?_append_cases two with old' | ⟨late', -⟩
      · cases List.mem_singleton.mp last
        exact absurd family.symm (fresh old')
      · have bound {k : Nat} {h : Held} (there : (held ++ [⟨none, ctx⟩])[k]? = some h) :
            k < held.length + 1 := by
          obtain ⟨lt, -⟩ := List.getElem?_eq_some_iff.mp there
          simpa using lt
        have := bound one
        have := bound two
        omega

/-- Copies are of the families of what they were made from. -/
theorem append_made (forest : Forest held families)
    (made : ∀ h ∈ more, ∃ m p, h.parent = some m ∧ held[m]? = some p ∧
      p.context.family = h.context.family) : Forest (held ++ more) families := by
  refine ⟨?_, ?_, ?_⟩
  · rintro h there
    rcases List.mem_append.mp there with old | later
    · exact forest.known h old
    · obtain ⟨m, p, -, parent, family⟩ := made h later
      exact family ▸ forest.known p (List.mem_of_getElem? parent)
  · rintro n m ctx there
    rcases getElem?_append_cases there with old | ⟨late, later⟩
    · obtain ⟨before, p, parent, family⟩ := forest.made old
      exact ⟨before, p, getElem?_of_prefix (List.prefix_append ..) parent, family⟩
    · obtain ⟨k, p, own, parent, family⟩ := made _ later
      obtain rfl := Option.some.inj own
      obtain ⟨before, -⟩ := List.getElem?_eq_some_iff.mp parent
      exact ⟨Nat.lt_of_lt_of_le before late, p,
        getElem?_of_prefix (List.prefix_append ..) parent, family⟩
  · have old {k : Nat} {c : Context} (there : (held ++ more)[k]? = some ⟨none, c⟩) :
        held[k]? = some ⟨none, c⟩ := by
      refine (getElem?_append_cases there).resolve_right ?_
      rintro ⟨-, later⟩
      obtain ⟨m, p, own, -⟩ := made _ later
      cases own
    intro m n ctx other one two
    exact forest.new (old one) (old two)

end Forest

/-! ## The contexts of a process -/

/-- A bus of a process, and which contexts were given to it. -/
structure Line (H : Type) where
  bus : Carrier H
  /-- the context that came with a call of publish, by the number of the call -/
  given : Nat → Option Nat := fun _ => none
  /-- the context that came with a replay, by the number of the replay -/
  asked : Nat → Option Nat := fun _ => none

/-- The contexts of a process, with its buses and its clock. -/
structure Contexts (B H : Type) where
  now : Moment := ⟨0⟩
  cancellations : Cancellations := {}
  /-- the contexts that were made, numbered in the order in which they were made -/
  held : List Held := []
  line : B → Line H

/-- Something that happens to the contexts of a process. -/
inductive ContextAction (B H : Type) where
  | new (correlationId : Uuid)
  | clone (n : Nat)
  | withCorrelationId (n : Nat) (id : Uuid)
  | withDeadline (n : Nat) (deadline : Moment)
  | withTimeout (n : Nat) (span : Time.Span)
  | cancel (n : Nat)
  /-- some time goes by -/
  | wait (nanos : Nat)
  /-- a bus is given a context along with what it is to do -/
  | give (bus : B) (n : Nat) (action : CarrierAction H)
  /-- something else happens to a bus -/
  | go (bus : B) (action : CarrierAction H)

/-- What there is to tell of contexts. -/
inductive ContextDeed (B : Type) where
  /-- a context was made anew -/
  | made (n : Nat)
  | cancelled (n : Nat)
  /-- a call of publish on a bus has begun, for which this context was given -/
  | published (bus : B) (ticket n : Nat)
  /-- a handler is called for an event, and gets this context -/
  | called (bus : B) (d : Dispatch) (n : Nat)

namespace Line

variable {H : Type}

/-- The context that an action of a bus is about: that which is given to it, or else that of the
replay whose turn it is. -/
def source (line : Line H) (given : Option Nat) (action : CarrierAction H) : Option Nat :=
  given.or ((line.bus.turn? action).bind line.asked)

/-- The bus after an action. If a number was given out, it stands for the context of the action. -/
def next (line : Line H) (bus : Carrier H) (source : Option Nat) : Line H where
  bus
  given := Function.update line.given line.bus.cargo.tickets source
  asked := Function.update line.asked line.bus.cargo.calls source

theorem given_next (line : Line H) (bus : Carrier H) (source : Option Nat) (t : Nat) :
    (line.next bus source).given t =
      if t = line.bus.cargo.tickets then source else line.given t :=
  Function.update_apply ..

theorem asked_next (line : Line H) (bus : Carrier H) (source : Option Nat) (n : Nat) :
    (line.next bus source).asked n = if n = line.bus.cargo.calls then source else line.asked n :=
  Function.update_apply ..

end Line

namespace Contexts

variable {B H : Type}

/-- A process in which nothing has happened yet. -/
def new (configs : B → CarrierConfig) : Contexts B H where
  line bus := { bus := .new (configs bus) }

/-- A context by its number. -/
def context? (s : Contexts B H) (n : Nat) : Option Context := s.held[n]?.map (·.context)

/-- A context is made from another one. -/
def adjust (s : Contexts B H) (n : Nat) (f : Context → Context) :
    Option (Contexts B H × List (ContextDeed B)) :=
  (s.context? n).map fun ctx => ({ s with held := s.held ++ [⟨some n, f ctx⟩] }, [])

/-! ## What holds of them -/

variable {s t : Contexts B H} {log told : List (ContextDeed B)} {bus : B} {given : Option Nat}
  {act : CarrierAction H}

/-- What no step takes away: the contexts that were made, the time that has gone by, and the
families that were cancelled. -/
structure Grows (s t : Contexts B H) : Prop where
  held : s.held <+: t.held
  now : s.now.nanos ≤ t.now.nanos
  cancelled : ∀ {family : Nat}, s.cancellations.isCancelled family = true →
    t.cancellations.isCancelled family = true

theorem Grows.trans {u : Contexts B H} (one : Grows s t) (two : Grows t u) : Grows s u :=
  ⟨one.held.trans two.held, one.now.trans two.now, two.cancelled ∘ one.cancelled⟩

theorem Grows.context? (grows : Grows s t) {n : Nat} {ctx : Context}
    (known : s.context? n = some ctx) : t.context? n = some ctx := by
  obtain ⟨h, there, rfl⟩ := Option.map_eq_some_iff.mp known
  exact Option.map_eq_some_iff.mpr ⟨h, getElem?_of_prefix grows.held there, rfl⟩

/-- Once a context is cancelled it stays so. -/
theorem Grows.isCancelled (grows : Grows s t) {ctx : Context}
    (cancelled : ctx.isCancelled s.cancellations s.now = true) :
    ctx.isCancelled t.cancellations t.now = true := by
  rw [Context.isCancelled, Bool.or_eq_true] at cancelled ⊢
  refine cancelled.imp grows.cancelled fun late => ?_
  obtain ⟨deadline, own, past⟩ := (Option.any_eq_true ..).mp late
  refine (Option.any_eq_true ..).mpr ⟨deadline, own, ?_⟩
  exact decide_eq_true ((of_decide_eq_true past).trans grows.now)

/-- What happens to a bus comes with a context or without one. -/
inductive Suits (s : Contexts B H) : Option Nat → Option Context → Prop where
  | without : Suits s none none
  | given {n : Nat} {ctx : Context} (known : s.context? n = some ctx) : Suits s (some n) (some ctx)

/-- The events and the replays of a bus have the contexts that were given with them. -/
structure Fits (log : List (ContextDeed B)) (s : Contexts B H) (bus : B) : Prop where
  published : ∀ {t m : Nat}, .published bus t m ∈ log →
    t < (s.line bus).bus.cargo.tickets ∧ (s.line bus).given t = some m
  dispatches : ∀ d ∈ (s.line bus).bus.cargo.dispatches,
    ∃ m, .published bus d.ticket m ∈ log ∧ s.context? m = some d.ctx
  taking : ∀ r ∈ (s.line bus).bus.cargo.taking, r.1 < (s.line bus).bus.cargo.calls ∧
    ∃ m, (s.line bus).asked r.1 = some m ∧ s.context? m = some r.2

/-- A context comes to a bus under the number of one that was made. -/
theorem Fits.source (fits : Fits log s bus) (suits : s.Suits given act.given?) {ctx : Context}
    (comes : Source (s.line bus).bus.cargo.taking act.given? ((s.line bus).bus.turn? act) ctx) :
    ∃ m, (s.line bus).source given act = some m ∧ s.context? m = some ctx := by
  rw [Line.source]
  generalize act.given? = outside at suits comes
  generalize (s.line bus).bus.turn? act = turn? at comes
  cases comes with
  | outside =>
    cases suits with
    | given known => exact ⟨_, rfl, known⟩
  | replay there =>
    cases suits with
    | without =>
      obtain ⟨-, m, asked, known⟩ := fits.taking _ there
      exact ⟨m, asked, known⟩

/-- A handler gets a copy of the context that was given with the event. -/
theorem Fits.parent (fits : Fits log s bus) {d : Dispatch}
    (there : d ∈ (s.line bus).bus.cargo.dispatches) :
    ∃ m, .published bus d.ticket m ∈ log ∧ (s.line bus).given d.ticket = some m ∧
      s.context? m = some d.ctx := by
  obtain ⟨m, published, known⟩ := fits.dispatches d there
  exact ⟨m, published, (fits.published published).2, known⟩

/-- Nothing has happened to a bus. -/
theorem Fits.grow (fits : Fits log s bus) (grows : Grows s t) (same : t.line bus = s.line bus)
    (silent : ∀ {u m : Nat}, .published bus u m ∉ told) : Fits (log ++ told) t bus where
  published there := by
    rw [same]
    exact fits.published ((List.mem_append.mp there).resolve_right silent)
  dispatches d there := by
    rw [same] at there
    obtain ⟨m, published, known⟩ := fits.dispatches d there
    exact ⟨m, List.mem_append_left _ published, grows.context? known⟩
  taking r there := by
    rw [same] at there ⊢
    obtain ⟨before, m, asked, known⟩ := fits.taking r there
    exact ⟨before, m, asked, grows.context? known⟩

/-- What holds after every history. -/
structure Kept (log : List (ContextDeed B)) (s : Contexts B H) : Prop where
  forest : Forest s.held s.cancellations.families
  made : ∀ {n : Nat} {ctx : Context}, s.held[n]? = some ⟨none, ctx⟩ → .made n ∈ log
  fits : ∀ bus, Fits log s bus
  called : ∀ {bus : B} {d : Dispatch} {n : Nat}, .called bus d n ∈ log →
    ∃ m, .published bus d.ticket m ∈ log ∧ s.held[n]? = some ⟨some m, d.ctx⟩ ∧
      s.context? m = some d.ctx
  cancelled : ∀ {m : Nat}, .cancelled m ∈ log →
    ∃ ctx, s.context? m = some ctx ∧ s.cancellations.isCancelled ctx.family = true
  asked : ∀ {family : Nat}, s.cancellations.isCancelled family = true →
    ∃ m ctx, .cancelled m ∈ log ∧ s.context? m = some ctx ∧ ctx.family = family

theorem Kept.start (configs : B → CarrierConfig) : Kept [] (new configs : Contexts B H) := by
  have idle (bus : B) : ((new configs : Contexts B H).line bus).bus.cargo =
      { tickets := 0, dispatches := [] } := Carrier.cargo_new _
  refine ⟨.empty, nofun, fun bus => ⟨nofun, fun d there => ?_, fun r there => ?_⟩, nofun, nofun,
    nofun⟩
  · rw [idle] at there
    cases there
  · rw [idle] at there
    cases there

theorem Kept.isCancelled_iff (kept : Kept log s) {n : Nat} {ctx : Context}
    (known : s.context? n = some ctx) : s.cancellations.isCancelled ctx.family = true ↔
      ∃ m, .cancelled m ∈ log ∧ Kin s.held m n := by
  obtain ⟨h, there, rfl⟩ := Option.map_eq_some_iff.mp known
  constructor
  · intro cancelled
    obtain ⟨m, c, asked, own, family⟩ := kept.asked cancelled
    obtain ⟨g, one, rfl⟩ := Option.map_eq_some_iff.mp own
    exact ⟨m, asked, (kept.forest.kin_iff one there).mpr family⟩
  · rintro ⟨m, asked, kin⟩
    obtain ⟨c, own, cancelled⟩ := kept.cancelled asked
    obtain ⟨g, one, rfl⟩ := Option.map_eq_some_iff.mp own
    exact (kept.forest.kin_iff one there).mp kin ▸ cancelled

/-! ## Steps -/

variable [DecidableEq B]

/-- A bus has come to something that is about a context, and each handler that it calls gets a
context of its own. -/
def carried (s : Contexts B H) (bus : B) (source : Option Nat) (after : Carrier H)
    (told : Passing) : Contexts B H × List (ContextDeed B) :=
  let line := s.line bus
  ({ s with
      line := Function.update s.line bus (line.next after source)
      held := s.held ++ told.called.map fun d => ⟨line.given d.ticket, d.ctx⟩ },
    (if told.taken then source.toList.map (.published bus line.bus.cargo.tickets) else []) ++
      (told.called.zipIdx s.held.length).map fun (d, n) => .called bus d n)

section

variable {s : Contexts B H} {bus b : B} {source : Option Nat} {after : Carrier H} {told : Passing}
  {d : Dispatch} {t m n : Nat}

theorem mem_carried {deed : ContextDeed B} : deed ∈ (s.carried bus source after told).2 ↔
    (∃ m, told.taken = true ∧ source = some m ∧
      deed = .published bus (s.line bus).bus.cargo.tickets m) ∨
    ∃ d n, (s.held.length ≤ n ∧ told.called[n - s.held.length]? = some d) ∧
      deed = .called bus d n := by
  rw [carried, List.mem_append, List.mem_map]
  refine or_congr ?_ ⟨?_, ?_⟩
  · cases told.taken <;> simp [eq_comm]
  · rintro ⟨⟨d, n⟩, there, rfl⟩
    exact ⟨d, n, List.mk_mem_zipIdx_iff_le_and_getElem?_sub.mp there, rfl⟩
  · rintro ⟨d, n, there, rfl⟩
    exact ⟨(d, n), List.mk_mem_zipIdx_iff_le_and_getElem?_sub.mpr there, rfl⟩

theorem published_mem_carried : .published b t m ∈ (s.carried bus source after told).2 ↔
    told.taken = true ∧ source = some m ∧ b = bus ∧ t = (s.line bus).bus.cargo.tickets := by
  rw [mem_carried]
  constructor
  · rintro (⟨k, taken, given, same⟩ | ⟨_, _, _, same⟩)
    · cases same
      exact ⟨taken, given, rfl, rfl⟩
    · cases same
  · rintro ⟨taken, given, rfl, rfl⟩
    exact .inl ⟨m, taken, given, rfl⟩

/-- A handler that was called has one of the contexts that were made. -/
theorem called_of_mem_carried (there : .called b d n ∈ (s.carried bus source after told).2) :
    b = bus ∧ d ∈ told.called ∧
      (s.carried bus source after told).1.held[n]? =
        some ⟨(s.line bus).given d.ticket, d.ctx⟩ := by
  rcases mem_carried.mp there with ⟨_, _, _, same⟩ | ⟨_, _, ⟨late, found⟩, same⟩
  · cases same
  · cases same
    refine ⟨rfl, List.mem_of_getElem? found, ?_⟩
    rw [carried, List.getElem?_append_right late, List.getElem?_map, found, Option.map_some]

theorem cancelled_not_mem_carried : .cancelled n ∉ (s.carried bus source after told).2 := by
  rw [mem_carried]
  rintro (⟨_, _, _, same⟩ | ⟨_, _, _, same⟩) <;> cases same

end

variable [DecidableEq H]

/-- Something happens to a bus. -/
def carry (name : H → String) (s : Contexts B H) (bus : B) (given : Option Nat)
    (action : CarrierAction H) : Option (Contexts B H × List (ContextDeed B)) :=
  ((s.line bus).bus.step name action).map fun (after, told) =>
    s.carried bus ((s.line bus).source given action) after told

/-- The contexts of a process after something has happened to them. -/
def step (name : H → String) (s : Contexts B H) :
    ContextAction B H → Option (Contexts B H × List (ContextDeed B))
  | .new correlationId =>
    let (ctx, cancellations) := s.cancellations.newContext correlationId
    some ({ s with cancellations, held := s.held ++ [⟨none, ctx⟩] }, [.made s.held.length])
  | .clone n => s.adjust n id
  | .withCorrelationId n id => s.adjust n (·.withCorrelationId id)
  | .withDeadline n deadline => s.adjust n (·.withDeadline deadline)
  | .withTimeout n span => s.adjust n (·.withTimeout s.now span)
  | .cancel n =>
    (s.context? n).map fun ctx =>
      ({ s with cancellations := s.cancellations.cancel ctx }, [.cancelled n])
  | .wait nanos => some ({ s with now := ⟨s.now.nanos + nanos⟩ }, [])
  | .give bus n action =>
    if action.given?.isSome && action.given? == s.context? n then s.carry name bus (some n) action
    else none
  | .go bus action => if action.given?.isNone then s.carry name bus none action else none

/-! ## Rules -/

/-- The steps of a process: what each takes, what it does to contexts and what is told. -/
inductive Rule (name : H → String) (s : Contexts B H) :
    ContextAction B H → Contexts B H → List (ContextDeed B) → Prop where
  /-- a new context is of a new family -/
  | new {id : Uuid} :
    Rule name s (.new id)
      { s with
        cancellations := (s.cancellations.newContext id).2
        held := s.held ++ [⟨none, (s.cancellations.newContext id).1⟩] }
      [.made s.held.length]
  /-- a context is made from another one and is of its family -/
  | adjust {action : ContextAction B H} {n : Nat} {ctx copy : Context}
      (known : s.context? n = some ctx) (kin : copy.family = ctx.family) :
    Rule name s action { s with held := s.held ++ [⟨some n, copy⟩] } []
  | cancel {n : Nat} {ctx : Context} (known : s.context? n = some ctx) :
    Rule name s (.cancel n) { s with cancellations := s.cancellations.cancel ctx } [.cancelled n]
  | wait {nanos : Nat} : Rule name s (.wait nanos) { s with now := ⟨s.now.nanos + nanos⟩ } []
  /-- something happens to a bus -/
  | carry {act : ContextAction B H} {bus : B} {given : Option Nat} {action : CarrierAction H}
      {after : Carrier H} {told : Passing} (suits : s.Suits given action.given?)
      (goes : (s.line bus).bus.step name action = some (after, told)) :
    Rule name s act (s.carried bus ((s.line bus).source given action) after told).1
      (s.carried bus ((s.line bus).source given action) after told).2

variable {name : H → String} {s t : Contexts B H} {action : ContextAction B H}
  {told : List (ContextDeed B)}

theorem Rule.of_adjust {n : Nat} {f : Context → Context} (adjusts : s.adjust n f = some (t, told))
    (same : ∀ ctx, (f ctx).family = ctx.family) : Rule name s action t told := by
  obtain ⟨ctx, known, after⟩ := Option.map_eq_some_iff.mp adjusts
  obtain ⟨rfl, rfl⟩ := Prod.mk.inj after
  exact .adjust known (same ctx)

theorem carry_of_give {bus : B} {n : Nat} {act : CarrierAction H}
    (goes : s.step name (.give bus n act) = some (t, told)) :
    s.Suits (some n) act.given? ∧ s.carry name bus (some n) act = some (t, told) := by
  rw [step] at goes
  split at goes
  case isTrue given =>
    obtain ⟨some, same⟩ := Bool.and_eq_true_iff.mp given
    obtain ⟨ctx, comes⟩ := Option.isSome_iff_exists.mp some
    rw [comes] at same ⊢
    exact ⟨.given (eq_of_beq same).symm, goes⟩
  case isFalse => cases goes

theorem carry_of_go {bus : B} {act : CarrierAction H}
    (goes : s.step name (.go bus act) = some (t, told)) :
    s.Suits none act.given? ∧ s.carry name bus none act = some (t, told) := by
  rw [step] at goes
  split at goes
  case isTrue without =>
    rw [Option.isNone_iff_eq_none.mp without]
    exact ⟨.without, goes⟩
  case isFalse => cases goes

theorem carried_of_carry {bus : B} {given : Option Nat} {act : CarrierAction H}
    (carries : s.carry name bus given act = some (t, told)) :
    ∃ after passing, (s.line bus).bus.step name act = some (after, passing) ∧
      (s.carried bus ((s.line bus).source given act) after passing).1 = t ∧
      (s.carried bus ((s.line bus).source given act) after passing).2 = told := by
  obtain ⟨⟨after, passing⟩, goes, same⟩ := Option.map_eq_some_iff.mp carries
  exact ⟨after, passing, goes, congrArg Prod.fst same, congrArg Prod.snd same⟩

theorem Rule.of_carry {bus : B} {given : Option Nat} {act : CarrierAction H}
    (suits : s.Suits given act.given?) (carries : s.carry name bus given act = some (t, told)) :
    Rule name s action t told := by
  obtain ⟨after, passing, goes, rfl, rfl⟩ := carried_of_carry carries
  exact .carry suits goes

/-- Every step is by one of the rules. -/
theorem Rule.of_step (goes : s.step name action = some (t, told)) : Rule name s action t told := by
  cases action with
  | new id =>
    obtain ⟨rfl, rfl⟩ := Prod.mk.inj (Option.some.inj goes)
    exact .new
  | clone | withCorrelationId | withDeadline => exact .of_adjust goes fun _ => rfl
  | withTimeout =>
    rw [step] at goes
    exact .of_adjust goes fun _ => by rw [Context.withTimeout]
  | cancel n =>
    obtain ⟨ctx, known, after⟩ := Option.map_eq_some_iff.mp goes
    obtain ⟨rfl, rfl⟩ := Prod.mk.inj after
    exact .cancel known
  | wait nanos =>
    obtain ⟨rfl, rfl⟩ := Prod.mk.inj (Option.some.inj goes)
    exact .wait
  | give =>
    obtain ⟨suits, carries⟩ := carry_of_give goes
    exact .of_carry suits carries
  | go =>
    obtain ⟨suits, carries⟩ := carry_of_go goes
    exact .of_carry suits carries

theorem Rule.grows (rule : Rule name s action t told) : Grows s t := by
  cases rule with
  | new | adjust => exact ⟨List.prefix_append .., le_rfl, id⟩
  | cancel =>
    refine ⟨List.prefix_refl _, le_rfl, fun cancelled => ?_⟩
    rw [Cancellations.isCancelled_cancel, cancelled, Bool.or_true]
  | wait => exact ⟨List.prefix_refl _, Nat.le_add_right _ _, id⟩
  | carry => exact ⟨List.prefix_append .., le_rfl, id⟩

/-- The families stay what they should be. -/
theorem Kept.forest_of_rule (kept : Kept log s) (rule : Rule name s action t told) :
    Forest t.held t.cancellations.families := by
  cases rule with
  | new => exact kept.forest.concat_new _ rfl
  | adjust known kin =>
    obtain ⟨p, parent, rfl⟩ := Option.map_eq_some_iff.mp known
    refine kept.forest.append_made fun h there => ?_
    obtain rfl := List.mem_singleton.mp there
    exact ⟨_, p, rfl, parent, kin.symm⟩
  | cancel | wait => exact kept.forest
  | @carry _ bus _ _ _ passing _ goes =>
    refine kept.forest.append_made fun h there => ?_
    obtain ⟨d, called, rfl⟩ := List.mem_map.mp there
    obtain ⟨m, -, given, known⟩ :=
      (kept.fits bus).parent ((Carrier.goes_of_step goes).called d called)
    obtain ⟨p, parent, same⟩ := Option.map_eq_some_iff.mp known
    exact ⟨m, p, given, parent, congrArg Context.family same⟩

/-- A context that was not made from another one was made anew. -/
theorem Kept.made_of_rule (kept : Kept log s) (rule : Rule name s action t told) {n : Nat}
    {ctx : Context} (there : t.held[n]? = some ⟨none, ctx⟩) : .made n ∈ log ++ told := by
  have old (before : s.held[n]? = some ⟨none, ctx⟩) : .made n ∈ log ++ told :=
    List.mem_append_left _ (kept.made before)
  cases rule with
  | new =>
    rcases getElem?_append_cases there with before | ⟨late, -⟩
    · exact old before
    · obtain ⟨lt, -⟩ := List.getElem?_eq_some_iff.mp there
      rw [List.length_append, List.length_singleton] at lt
      obtain rfl : n = s.held.length := by omega
      exact List.mem_append_right _ List.mem_cons_self
  | adjust =>
    refine old ((getElem?_append_cases there).resolve_right fun later => ?_)
    cases List.mem_singleton.mp later.2
  | cancel | wait => exact old there
  | @carry _ bus _ _ _ _ _ goes =>
    refine old ((getElem?_append_cases there).resolve_right fun later => ?_)
    obtain ⟨d, called, copy⟩ := List.mem_map.mp later.2
    obtain ⟨m, -, given, -⟩ :=
      (kept.fits bus).parent ((Carrier.goes_of_step goes).called d called)
    cases given.symm.trans (congrArg Held.parent copy)

/-- Something has happened to a bus. -/
theorem Fits.carried {after : Carrier H} {passing : Passing} (fits : Fits log s bus)
    (suits : s.Suits given act.given?)
    (goes : (s.line bus).bus.step name act = some (after, passing)) :
    Fits (log ++ (s.carried bus ((s.line bus).source given act) after passing).2)
      (s.carried bus ((s.line bus).source given act) after passing).1 bus := by
  have rule : Rule name s (.go bus act) _ _ := .carry suits goes
  have grows := rule.grows
  have step := Carrier.goes_of_step goes
  have line : (s.carried bus ((s.line bus).source given act) after passing).1.line bus =
      (s.line bus).next after ((s.line bus).source given act) := Function.update_self ..
  refine ⟨fun {u m} there => ?_, fun d there => ?_, fun r there => ?_⟩
  · rw [line]
    rcases List.mem_append.mp there with old | new
    · obtain ⟨before, known⟩ := fits.published old
      refine ⟨Nat.lt_of_lt_of_le before step.tickets_le, ?_⟩
      rw [Line.given_next, if_neg before.ne, known]
    · obtain ⟨taken, source, -, rfl⟩ := published_mem_carried.mp new
      refine ⟨step.tickets_lt taken, ?_⟩
      rw [Line.given_next, if_pos rfl, source]
  · rw [line] at there
    rcases step.dispatches d there with old | ⟨taken, ticket, comes⟩
    · obtain ⟨m, published, known⟩ := fits.dispatches d old
      exact ⟨m, List.mem_append_left _ published, grows.context? known⟩
    · obtain ⟨m, source, known⟩ := fits.source suits comes
      exact ⟨m, List.mem_append_right _ (published_mem_carried.mpr ⟨taken, source, rfl, ticket⟩),
        grows.context? known⟩
  · rw [line] at there ⊢
    rcases step.taking r there with old | ⟨number, before, outside⟩
    · obtain ⟨before, m, asked, known⟩ := fits.taking r old
      refine ⟨Nat.lt_of_lt_of_le before step.calls_le, m, ?_, grows.context? known⟩
      rw [Line.asked_next, if_neg before.ne, asked]
    · have comes : Source (s.line bus).bus.cargo.taking act.given?
          ((s.line bus).bus.turn? act) r.2 := outside ▸ .outside
      obtain ⟨m, source, known⟩ := fits.source suits comes
      refine ⟨number ▸ before, m, ?_, grows.context? known⟩
      rw [number, Line.asked_next, if_pos rfl, source]

/-- What is on its way still has the contexts that were given with it. -/
theorem Kept.fits_of_rule (kept : Kept log s) (rule : Rule name s action t told) (bus : B) :
    Fits (log ++ told) t bus := by
  have grows := rule.grows
  cases rule with
  | adjust | wait => exact (kept.fits bus).grow grows rfl nofun
  | new | cancel =>
    refine (kept.fits bus).grow grows rfl fun there => ?_
    cases List.mem_singleton.mp there
  | @carry _ own _ _ _ _ suits goes =>
    by_cases same : bus = own
    · subst same
      exact (kept.fits bus).carried suits goes
    · refine (kept.fits bus).grow grows (Function.update_of_ne same ..) fun there => ?_
      obtain ⟨-, -, is, -⟩ := published_mem_carried.mp there
      exact same is

/-- A handler that was called has a copy of the context that was given with its event. -/
theorem Kept.called_of_rule (kept : Kept log s) (rule : Rule name s action t told) {bus : B}
    {d : Dispatch} {n : Nat} (there : .called bus d n ∈ log ++ told) :
    ∃ m, .published bus d.ticket m ∈ log ++ told ∧ t.held[n]? = some ⟨some m, d.ctx⟩ ∧
      t.context? m = some d.ctx := by
  have grows := rule.grows
  rcases List.mem_append.mp there with old | new
  · obtain ⟨m, published, copy, known⟩ := kept.called old
    exact ⟨m, List.mem_append_left _ published, getElem?_of_prefix grows.held copy,
      grows.context? known⟩
  · cases rule with
    | adjust | wait => cases new
    | new | cancel => cases List.mem_singleton.mp new
    | carry suits goes =>
      obtain ⟨rfl, calls, copy⟩ := called_of_mem_carried new
      obtain ⟨m, published, given, known⟩ :=
        (kept.fits bus).parent ((Carrier.goes_of_step goes).called d calls)
      exact ⟨m, List.mem_append_left _ published, given ▸ copy, grows.context? known⟩

/-- The family of a context that was cancelled is cancelled. -/
theorem Kept.cancelled_of_rule (kept : Kept log s) (rule : Rule name s action t told) {m : Nat}
    (there : .cancelled m ∈ log ++ told) :
    ∃ ctx, t.context? m = some ctx ∧ t.cancellations.isCancelled ctx.family = true := by
  have grows := rule.grows
  rcases List.mem_append.mp there with old | new
  · obtain ⟨ctx, known, cancelled⟩ := kept.cancelled old
    exact ⟨ctx, grows.context? known, grows.cancelled cancelled⟩
  · cases rule with
    | adjust | wait => cases new
    | new => cases List.mem_singleton.mp new
    | @cancel _ ctx known =>
      cases List.mem_singleton.mp new
      refine ⟨ctx, known, ?_⟩
      rw [Cancellations.isCancelled_cancel, decide_eq_true rfl, Bool.true_or]
    | carry => exact absurd new cancelled_not_mem_carried

/-- A family is cancelled only when a context of it was. -/
theorem Kept.asked_of_rule (kept : Kept log s) (rule : Rule name s action t told) {family : Nat}
    (cancelled : t.cancellations.isCancelled family = true) :
    ∃ m ctx, .cancelled m ∈ log ++ told ∧ t.context? m = some ctx ∧ ctx.family = family := by
  have grows := rule.grows
  have old (before : s.cancellations.isCancelled family = true) :
      ∃ m ctx, .cancelled m ∈ log ++ told ∧ t.context? m = some ctx ∧ ctx.family = family := by
    obtain ⟨m, ctx, there, known, own⟩ := kept.asked before
    exact ⟨m, ctx, List.mem_append_left _ there, grows.context? known, own⟩
  cases rule with
  | new | adjust | wait | carry => exact old cancelled
  | @cancel n ctx known =>
    rw [Cancellations.isCancelled_cancel, Bool.or_eq_true, decide_eq_true_iff] at cancelled
    rcases cancelled with own | before
    · exact ⟨n, ctx, List.mem_append_right _ List.mem_cons_self, known, own.symm⟩
    · exact old before

theorem Kept.of_rule (kept : Kept log s) (rule : Rule name s action t told) :
    Kept (log ++ told) t where
  forest := kept.forest_of_rule rule
  made := kept.made_of_rule rule
  fits := kept.fits_of_rule rule
  called := kept.called_of_rule rule
  cancelled := kept.cancelled_of_rule rule
  asked := kept.asked_of_rule rule

/-! ## Runs -/

variable {configs : B → CarrierConfig}

theorem Kept.of_run (run : Run (step name) (new configs) log s) : Kept log s :=
  run.invariant (.start configs) fun kept goes => kept.of_rule (.of_step goes)

theorem Grows.of_run (run : Run (step name) s told t) : Grows s t := by
  induction run with
  | refl => exact ⟨List.prefix_refl _, le_rfl, id⟩
  | snoc _ goes ih => exact ih.trans (Rule.of_step goes).grows

/-- Whatever happens to a bus, it cancels nothing. -/
theorem carry_cancels_nothing (carries : s.carry name bus given act = some (t, told)) :
    t.cancellations = s.cancellations ∧ t.now = s.now ∧ ∀ m, .cancelled m ∉ told := by
  obtain ⟨after, passing, -, rfl, rfl⟩ := carried_of_carry carries
  exact ⟨rfl, rfl, fun _ => cancelled_not_mem_carried⟩

/-- What those find who hold contexts. -/
structure Observed (log : List (ContextDeed B)) (s : Contexts B H) : Prop where
  /-- a context goes back to one that was made anew, and to only one -/
  origin : ∀ n < s.held.length, ∃ root, .made root ∈ log ∧
    ∀ other, ComesFrom s.held n other ↔ other = root
  /-- it is cancelled if one of its kin was, or if its own deadline has come -/
  isCancelled_iff : ∀ {n : Nat} {ctx : Context}, s.context? n = some ctx →
    (ctx.isCancelled s.cancellations s.now = true ↔
      (∃ m, .cancelled m ∈ log ∧ Kin s.held m n) ∨
        ∃ deadline, ctx.deadline = some deadline ∧ deadline.nanos ≤ s.now.nanos)
  /-- nothing is left to it if its own deadline has come -/
  remaining_iff : ∀ {n : Nat} {ctx : Context}, s.context? n = some ctx →
    (ctx.remaining s.now = some 0 ↔
      ∃ deadline, ctx.deadline = some deadline ∧ deadline.nanos ≤ s.now.nanos)
  /-- only one context was given for a call of publish -/
  published : ∀ {bus : B} {t m n : Nat}, .published bus t m ∈ log → .published bus t n ∈ log → m = n
  /-- a handler that was called has a copy of it, and sees when it or one of its kin is cancelled -/
  called : ∀ {bus : B} {d : Dispatch} {n : Nat}, .called bus d n ∈ log →
    ∃ m, .published bus d.ticket m ∈ log ∧ s.context? m = some d.ctx ∧
      s.held[n]? = some ⟨some m, d.ctx⟩ ∧
      ∀ k, .cancelled k ∈ log → Kin s.held k m → d.ctx.isCancelled s.cancellations s.now = true

/-- **Contexts are cancelled by families, for ever, and only by those who hold them.** After every
history a context is cancelled if one was that goes back to the same new context, or if its own
deadline has come. A handler has a copy of the context that was given with its event, whenever it
was called. What happens later changes no context and takes no cancelling back, and a bus cancels
nothing. -/
theorem cancelling_is_family_wide (run : Run (step name) (new configs) log s) :
    Observed log s ∧
    (∀ {told t}, Run (step name) s told t →
      s.held <+: t.held ∧ ∀ ctx : Context, ctx.isCancelled s.cancellations s.now = true →
        ctx.isCancelled t.cancellations t.now = true) ∧
    ∀ {bus n action told t}, step name s (.give bus n action) = some (t, told) ∨
        step name s (.go bus action) = some (t, told) →
      t.cancellations = s.cancellations ∧ t.now = s.now ∧ ∀ m, .cancelled m ∉ told := by
  have kept := Kept.of_run run
  refine ⟨⟨?_, ?_, ?_, ?_, ?_⟩, ?_, ?_⟩
  · intro n there
    obtain ⟨root, ctx, comes, new, -⟩ := kept.forest.comes (List.getElem?_eq_getElem there)
    refine ⟨root, kept.made new, fun other => ⟨fun one => one.unique comes, ?_⟩⟩
    rintro rfl
    exact comes
  · intro n ctx known
    rw [Context.isCancelled, Bool.or_eq_true, kept.isCancelled_iff known, Option.any_eq_true]
    simp only [decide_eq_true_iff]
  · intro n ctx _
    rw [Context.remaining, Option.map_eq_some_iff]
    simp only [Nat.sub_eq_zero_iff_le]
  · intro bus t m n one two
    exact Option.some.inj (((kept.fits bus).published one).2.symm.trans
      ((kept.fits bus).published two).2)
  · intro bus d n there
    obtain ⟨m, published, copy, known⟩ := kept.called there
    refine ⟨m, published, known, copy, fun k cancelled kin => ?_⟩
    rw [Context.isCancelled, (kept.isCancelled_iff known).mpr ⟨k, cancelled, kin⟩, Bool.true_or]
  · intro told t more
    have grows := Grows.of_run more
    exact ⟨grows.held, fun ctx => grows.isCancelled⟩
  · intro bus n action told t goes
    rcases goes with goes | goes
    · exact carry_cancels_nothing (carry_of_give goes).2
    · exact carry_cancels_nothing (carry_of_go goes).2

/-- A context is given to a bus with an event. When the call of publish has its answer a copy of it
is cancelled, and so is the context of the handler that is called for the event afterwards. Another
context is not, but a copy of that one with a deadline is when the time has come. -/
theorem cancelling_is_family_wide_queued :
    ∃ (log : List (ContextDeed Unit)) (s : Contexts Unit Unit) (own other late : Context),
      Run (step fun _ => "audit") (new fun _ => .broker ⟨2, 1, true⟩) log s ∧
      log = [.made 0, .made 2, .published () 0 0, .cancelled 1,
        .called () ⟨0, own, Bus.shippedOrder⟩ 4] ∧
      own.isCancelled s.cancellations s.now = true ∧
      s.context? 2 = some other ∧ other.isCancelled s.cancellations s.now = false ∧
      s.context? 3 = some late ∧ late.isCancelled s.cancellations s.now = true ∧
        late.remaining s.now = some 0 := by
  obtain ⟨log, s, own, other, done, told, held, now, rest⟩ :
      ∃ log s own other, runAll (step fun _ => "audit")
          (new fun _ => .broker ⟨2, 1, true⟩ : Contexts Unit Unit)
          [.new ⟨7⟩, .withCorrelationId 0 ⟨9⟩, .new ⟨8⟩, .withDeadline 2 ⟨5⟩,
            .go () (.broker (.pool (.subscribe ⟨1⟩ ()))),
            .give () 0 (.broker (.pool (.publish ⟨⟨7⟩, none, 0⟩ Bus.shippedOrder))),
            .go () (.broker (.pool (.saved 0 (.ok ())))), .cancel 1,
            .go () (.broker (.pool .dispatch)), .go () (.broker (.pool .dispatch)),
            .go () (.broker (.pool (.start 0))),
            .go () (.broker (.pool (.reply 0 (.named (.returned "audit"))))),
            .go () (.broker (.pool (.reply 0 (.asked (.returned true))))), .wait 5] =
          some (s, log) ∧
        log = [.made 0, .made 2, .published () 0 0, .cancelled 1,
          .called () ⟨0, own, Bus.shippedOrder⟩ 4] ∧
        s.held = [⟨none, own⟩, ⟨some 0, own.withCorrelationId ⟨9⟩⟩, ⟨none, other⟩,
          ⟨some 2, other.withDeadline ⟨5⟩⟩, ⟨some 0, own⟩] ∧ s.now = ⟨5⟩ ∧
        other.isCancelled s.cancellations s.now = false :=
    ⟨_, _, _, _, rfl, rfl, rfl, rfl, rfl⟩
  have run := Run.ofActions done
  obtain ⟨observed, -, -⟩ := cancelling_is_family_wide run
  have kin : Kin s.held 1 0 := by
    rw [held]
    exact ⟨0, .made rfl (.root rfl), .root rfl⟩
  have given : .published () 0 0 ∈ log := by simp [told]
  have cancelled : .cancelled 1 ∈ log := by simp [told]
  have called : .called () ⟨0, own, Bus.shippedOrder⟩ 4 ∈ log := by simp [told]
  obtain ⟨m, published, -, -, sees⟩ := observed.called called
  obtain rfl := observed.published published given
  have late : s.context? 3 = some (other.withDeadline ⟨5⟩) := by
    rw [context?, held]
    rfl
  have past : ∃ deadline, (other.withDeadline ⟨5⟩).deadline = some deadline ∧
      deadline.nanos ≤ s.now.nanos := ⟨⟨5⟩, rfl, now ▸ le_rfl⟩
  refine ⟨log, s, own, other, _, run, told, sees 1 cancelled kin, ?_, rest, late,
    (observed.isCancelled_iff late).mpr (.inr past), (observed.remaining_iff late).mpr past⟩
  rw [context?, held]
  rfl

end Contexts

end DomainEvents
