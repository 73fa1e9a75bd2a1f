import DomainEvents.Bus.Direct
import DomainEvents.Proofs.Bus.Delivery
import Mathlib.Order.Nat

/-!
# Publishing on a bus without a queue

On a bus without a queue a call of publish goes through the subscriptions that there are when it
comes in. Between two of its steps anything else may happen to the bus: handlers subscribe and
unsubscribe, and publish events in turn. `Direct.Rule` says what a step of the bus can do, and
`Direct.Fate` what it means for one call: it hears of the end of the handler that it waits for, or
it stays as it was. So what is told of a call follows from the subscriptions that it began with and
from what its own handlers have said (`Direct.Delivering`), whatever else has happened meanwhile.
-/

namespace DomainEvents.Bus

variable {H : Type}

/-- An action of a bus without a queue and what it gave notice of. -/
structure DirectEntry (H : Type) where
  action : DirectAction H
  notices : List (DirectNotice H)

/-- All notices of a history of a bus without a queue. -/
def noticesOf (log : List (DirectEntry H)) : List (DirectNotice H) := log.flatMap (·.notices)

theorem noticesOf_concat (log : List (DirectEntry H)) (e : DirectEntry H) :
    noticesOf (log ++ [e]) = noticesOf log ++ e.notices := by
  rw [noticesOf, List.flatMap_append, List.flatMap_singleton, ← noticesOf]

namespace DirectAction

/-- The change that an action makes to the subscriptions. -/
def change [DecidableEq H] : DirectAction H → Registry H → Registry H
  | .subscribe id handler, r => r.subscribe id handler
  | .unsubscribe handler, r => r.unsubscribe handler
  | .off id, r => r.off id
  | .clear, r => r.clear
  | _, r => r

/-- Whether an action is about the subscriptions. -/
def registers : DirectAction H → Bool
  | .subscribe _ _ | .unsubscribe _ | .off _ | .clear => true
  | _ => false

/-- What the call of a number hears of the end of a handler. -/
def heardBy? (t : Nat) : DirectAction H → Option Reply
  | .asked ticket interested => if ticket = t then some (.asked (.returned interested)) else none
  | .handled ticket result => if ticket = t then some (.handled (.returned result)) else none
  | _ => none

end DirectAction

/-- All that the handlers of a call have said to it. -/
def heardBy (t : Nat) (log : List (DirectEntry H)) : List Reply :=
  log.filterMap (·.action.heardBy? t)

theorem heardBy_concat (t : Nat) (log : List (DirectEntry H)) (e : DirectEntry H) :
    heardBy t (log ++ [e]) = heardBy t log ++ (e.action.heardBy? t).toList := by
  rw [heardBy, List.filterMap_append, ← heardBy, List.filterMap_cons, List.filterMap_nil]
  cases e.action.heardBy? t <;> rfl

namespace DirectNotice

/-- The call of publish that a notice is about. -/
def dispatch : DirectNotice H → Dispatch
  | .asking d _ | .asked d _ _ | .calling d _ | .called d _ _ | .delivered d _ | .answered d _ => d

/-- The notices about the call of a number. -/
def about (t : Nat) (notices : List (DirectNotice H)) : List (DirectNotice H) :=
  notices.filter (·.dispatch.ticket == t)

/-- The subscription whose handler is asked for its interest, if the notice says so. -/
def asking? : DirectNotice H → Option (Subscription H)
  | .asking _ entry => some entry
  | _ => none

/-- The subscription whose handler is called, if the notice says so. -/
def calling? : DirectNotice H → Option (Subscription H)
  | .calling _ entry => some entry
  | _ => none

theorem about_append (t : Nat) (l m : List (DirectNotice H)) :
    about t (l ++ m) = about t l ++ about t m :=
  List.filter_append ..

theorem about_self {d : Dispatch} {l : List (DirectNotice H)} (own : ∀ n ∈ l, n.dispatch = d) :
    about d.ticket l = l := by
  refine List.filter_eq_self.mpr fun n there => ?_
  rw [own n there]
  exact beq_self_eq_true _

theorem about_other {t : Nat} {d : Dispatch} {l : List (DirectNotice H)}
    (own : ∀ n ∈ l, n.dispatch = d) (ne : d.ticket ≠ t) : about t l = [] := by
  refine List.filter_eq_nil_iff.mpr fun n there => ?_
  rw [own n there, beq_iff_eq]
  exact ne

end DirectNotice

open DirectNotice (about about_append about_self about_other)

/-! ## What is told of a delivery -/

namespace Call

/-- What is told when a call of a handler begins. -/
def opening (d : Dispatch) : Call H → List (DirectNotice H)
  | .interest entry _ => [.asking d entry]
  | .handler entry _ => [.calling d entry]
  | _ => []

/-- What is told when a delivery hears of the end of a call. -/
def heard (d : Dispatch) : Call H → List (DirectNotice H)
  | .interest entry (.returned interested) => [.asked d entry interested]
  | .handler entry (.returned result) => [.called d entry result]
  | _ => []

/-- All that is told of a call of a handler. -/
def transcript (d : Dispatch) (call : Call H) : List (DirectNotice H) :=
  call.opening d ++ call.heard d

variable {d : Dispatch} {call : Call H}

theorem dispatch_of_heard : ∀ n ∈ call.heard d, n.dispatch = d := by
  rcases call with _ | ⟨_, _ | _⟩ | ⟨_, _ | _⟩ | _ | _ <;> simp [heard, DirectNotice.dispatch]

theorem not_answered_transcript (answer : Except BusError Unit) :
    .answered d answer ∉ call.transcript d := by
  rcases call with _ | ⟨_, _ | _⟩ | ⟨_, _ | _⟩ | _ | _ <;> simp [transcript, opening, heard]

end Call

namespace Delivery

variable {name : H → String} {d : Dispatch} {delivery after : Delivery H} {reply : Reply}
  {told calls : List (Call H)} {entries : List (Subscription H)}

theorem dispatch_of_notices : ∀ n ∈ delivery.notices name d, n.dispatch = d := by
  cases delivery <;> simp [notices, result?, DirectNotice.dispatch]

/-- A delivery that goes on hears of one call, and this is the one of which it has told. -/
theorem call_of_hear (goes : delivery.hear reply = some (after, told)) :
    ∃ call, told = [call] ∧ (∀ d, call.heard d ≠ []) ∧
      ∀ name d, delivery.notices name d ++ call.heard d = call.transcript d := by
  revert goes
  fun_cases Delivery.hear
  all_goals intro goes; cases goes
  all_goals exact ⟨_, rfl, fun _ => List.cons_ne_nil _ _, fun _ _ => rfl⟩

/-- There is notice of the end of every call that a delivery has heard of. -/
theorem heard_ne_nil {start : Delivery H} (run : Run hear start calls delivery) :
    ∀ call ∈ calls, ∀ d, call.heard d ≠ [] := by
  refine run.invariant (P := fun calls _ => ∀ call ∈ calls, ∀ d, call.heard d ≠ []) nofun ?_
  intro calls delivery reply after told heard goes
  obtain ⟨call, rfl, ends, -⟩ := call_of_hear goes
  exact List.forall_mem_append.mpr ⟨heard, List.forall_mem_singleton.mpr ends⟩

/-- A delivery makes one call for each that it hears of. -/
theorem length_of_hears {replies : List Reply} :
    ∀ {start : Delivery H} {calls : List (Call H)},
      runAll hear start replies = some (delivery, calls) → calls.length = replies.length := by
  induction replies with
  | nil =>
    intro start calls heard
    cases heard
    rfl
  | cons reply rest ih =>
    intro start calls heard
    rw [runAll] at heard
    split at heard
    · cases heard
    · rename_i goes
      obtain ⟨⟨_, later⟩, hears, same⟩ := Option.map_eq_some_iff.mp heard
      cases same
      obtain ⟨call, rfl, -, -⟩ := call_of_hear goes
      rw [List.length_append, List.length_singleton, ih hears, List.length_cons, Nat.add_comm]

/-- There is notice of an answer when the delivery has come to it. -/
theorem answered_mem_notices {answer : Except BusError Unit} :
    .answered d answer ∈ delivery.notices name d ↔ delivery.result? name = some answer := by
  cases delivery <;> simp [notices, result?, eq_comm]

/-- In their turns, all subscriptions are asked. -/
theorem asking_transcript (turns : List (Turn H)) :
    ((turns.flatMap callsOf).flatMap (Call.transcript d)).filterMap DirectNotice.asking? =
      turns.map (·.entry) := by
  induction turns with
  | nil => rfl
  | cons turn turns ih =>
    obtain ⟨entry, told, verdict⟩ := turn
    rw [List.flatMap_cons, List.flatMap_append, List.filterMap_append, ih]
    cases verdict <;> rfl

/-- In their turns, those that are interested are called. -/
theorem calling_transcript (turns : List (Turn H)) :
    ((turns.flatMap callsOf).flatMap (Call.transcript d)).filterMap DirectNotice.calling? =
      interested turns := by
  induction turns with
  | nil => rfl
  | cons turn turns ih =>
    rw [List.flatMap_cons, List.flatMap_append, List.filterMap_append, ih, interested_cons]
    obtain ⟨entry, told, verdict⟩ := turn
    cases verdict <;> rfl

/-- Whoever has been asked was asked in the order of the subscriptions. -/
theorem SoFar.asked {turns : List (Turn H)} (soFar : SoFar name entries turns calls delivery) :
    (calls.flatMap (Call.transcript d) ++ delivery.notices name d).filterMap
      DirectNotice.asking? <+: entries := by
  cases soFar with
  | @turning rest count split =>
    rw [List.filterMap_append, asking_transcript, ← split]
    refine (List.prefix_append_right_inj _).mpr ?_
    cases rest with
    | nil => exact List.nil_prefix
    | cons entry rest => exact ⟨rest, rfl⟩
  | @handling entry rest count split =>
    rw [List.flatMap_append, List.filterMap_append, List.filterMap_append, asking_transcript,
      ← split]
    exact ⟨rest, (congrArg (· ++ rest) (List.append_assoc ..)).trans (List.append_assoc ..)⟩
  | @stopped entry source rest split =>
    rw [List.filterMap_append, asking_transcript, ← split]
    exact ⟨rest, congrArg (· ++ rest) (List.append_nil _)⟩

end Delivery

/-- An order is shipped, which says all there is to say. -/
def shippedOrder : Event := { (default : Event) with name := "order.shipped" }

namespace Direct

/-! ## Calls that go on -/

variable {name : H → String} {b c : Direct H} {t : Nat} {d : Dispatch}
  {entries : List (Subscription H)} {first : List (DirectNotice H)}
  {log during : List (DirectEntry H)} {calls : List (Call H)} {delivery : Delivery H}

theorem ticket_of_call? {call : DirectCall H} (waits : b.call? t = some call) :
    call.dispatch.ticket = t := by
  simpa using List.find?_some waits

theorem call?_remove (b : Direct H) (t u : Nat) :
    (b.remove t).call? u = if u = t then none else b.call? u := by
  rw [call?, remove, List.find?_filter]
  by_cases same : u = t
  · rw [if_pos same, same]
    exact List.find?_eq_none.mpr fun call _ => by simp
  · rw [if_neg same, call?]
    refine congrArg (List.find? · b.calls) (funext fun call => ?_)
    by_cases mine : call.dispatch.ticket = u
    · simp [mine, same]
    · simp [mine]

/-- Where a call stands whose delivery has come to something. -/
def standing (name : H → String) (d : Dispatch) (delivery : Delivery H) : Option (DirectCall H) :=
  if (delivery.result? name).isSome then none else some ⟨d, delivery⟩

theorem standing_eq_some {call : DirectCall H} (stands : standing name d delivery = some call) :
    call = ⟨d, delivery⟩ := by
  rw [standing] at stands
  split at stands
  · cases stands
  · exact (Option.some.inj stands).symm

@[simp] theorem registry_proceed (name : H → String) (b : Direct H) (d : Dispatch)
    (delivery : Delivery H) : (b.proceed name d delivery).1.registry = b.registry := by
  rw [proceed]
  cases delivery.result? name <;> rfl

@[simp] theorem tickets_proceed (name : H → String) (b : Direct H) (d : Dispatch)
    (delivery : Delivery H) : (b.proceed name d delivery).1.tickets = b.tickets := by
  rw [proceed]
  cases delivery.result? name <;> rfl

/-- Where the calls stand when the delivery of one of them has come to something. -/
theorem call?_proceed (name : H → String) (b : Direct H) (d : Dispatch) (delivery : Delivery H)
    (t : Nat) :
    (b.proceed name d delivery).1.call? t =
      if t = d.ticket then standing name d delivery else b.call? t := by
  have others := call?_remove b d.ticket t
  rw [proceed, standing]
  rcases answered : delivery.result? name with _ | answer
  · by_cases mine : t = d.ticket
    · rw [if_pos mine, mine]
      simp [call?]
    · rw [if_neg mine] at others ⊢
      rw [← others, call?, List.find?_cons_of_neg]
      · rfl
      · simpa using Ne.symm mine
  · exact others

/-- How a call of publish fares whose event goes to the given subscriptions: `first` is what was
told when it came in, and `during` has happened since then. -/
structure Delivering (name : H → String) (d : Dispatch) (entries : List (Subscription H))
    (first : List (DirectNotice H)) (during : List (DirectEntry H)) (b : Direct H)
    (calls : List (Call H)) (delivery : Delivery H) : Prop where
  /-- its delivery has come to what its own handlers have said, whatever else has happened -/
  hears : runAll Delivery.hear (.turnTo 0 entries) (heardBy d.ticket during) =
    some (delivery, calls)
  /-- there was notice of all that it has heard, and of what it waits for -/
  tells : about d.ticket (first ++ noticesOf during) =
    calls.flatMap (·.transcript d) ++ delivery.notices name d
  /-- it goes on if it has no answer, unless it was forsaken -/
  stands : b.call? d.ticket = standing name d delivery ∨
    b.call? d.ticket = none ∧ ∃ e ∈ during, e.action = .forsake d.ticket
  /-- no other call will have its number -/
  given : d.ticket < b.tickets

/-- There is notice of an answer when the delivery has come to it. -/
theorem Delivering.answered_iff (del : Delivering name d entries first during b calls delivery)
    (answer : Except BusError Unit) :
    .answered d answer ∈ about d.ticket (first ++ noticesOf during) ↔
      delivery.result? name = some answer := by
  rw [del.tells, List.mem_append, Delivery.answered_mem_notices, or_iff_right]
  intro there
  obtain ⟨call, -, there⟩ := List.mem_flatMap.mp there
  exact Call.not_answered_transcript answer there

/-- A call begins with nothing heard. -/
theorem Delivering.begins (name : H → String) (b : Direct H) (d : Dispatch)
    (entries : List (Subscription H)) (given : d.ticket < b.tickets) :
    Delivering name d entries ((Delivery.turnTo 0 entries).notices name d) []
      (b.proceed name d (.turnTo 0 entries)).1 [] (.turnTo 0 entries) := by
  refine ⟨rfl, ?_, .inl ?_, ?_⟩
  · rw [noticesOf, List.flatMap_nil, List.append_nil]
    exact about_self Delivery.dispatch_of_notices
  · rw [call?_proceed, if_pos rfl]
  · rw [tickets_proceed]
    exact given

/-! ## Rules -/

/-- A step of a bus without a queue that remembers its action. -/
def tick [DecidableEq H] (name : H → String) (b : Direct H) (action : DirectAction H) :
    Option (Direct H × List (DirectEntry H)) :=
  (b.step name action).map fun (after, notices) => (after, [⟨action, notices⟩])

/-- The steps of a bus without a queue, each with what it takes and what it does. -/
inductive Rule [DecidableEq H] (name : H → String) (b : Direct H) :
    DirectAction H → Direct H → List (DirectNotice H) → Prop where
  /-- a malformed event is refused -/
  | refuse {ctx : Context} {event : Event} {invalid : ValidationError}
      (check : Delivery.start b.config b.registry.entries event = .error invalid) :
      Rule name b (.publish ctx event) { b with tickets := b.tickets + 1 }
        [.answered ⟨b.tickets, ctx, event⟩ (.error (.validation invalid))]
  /-- a call of publish begins, with the subscriptions that there are -/
  | begins {ctx : Context} {event : Event} {delivery : Delivery H}
      (check : Delivery.start b.config b.registry.entries event = .ok delivery) :
      Rule name b (.publish ctx event)
        (proceed name { b with tickets := b.tickets + 1 } ⟨b.tickets, ctx, event⟩ delivery).1
        (delivery.notices name ⟨b.tickets, ctx, event⟩)
  /-- a call of publish hears of the end of a handler -/
  | hears {action : DirectAction H} {d : Dispatch} {delivery after : Delivery H} {reply : Reply}
      {call : Call H} (waits : b.call? d.ticket = some ⟨d, delivery⟩)
      (heard : ∀ t, action.heardBy? t = if d.ticket = t then some reply else none)
      (keeps : action.registers = false)
      (goes : delivery.hear reply = some (after, [call])) :
      Rule name b action (b.proceed name d after).1 (call.heard d ++ after.notices name d)
  /-- a call of publish ends without an answer -/
  | forsake {t : Nat} {call : DirectCall H} (waits : b.call? t = some call) :
      Rule name b (.forsake t) (b.remove t) []
  /-- the subscriptions change -/
  | register {action : DirectAction H} (registers : action.registers = true) :
      Rule name b action { b with registry := action.change b.registry } []

variable [DecidableEq H] {action : DirectAction H} {notices : List (DirectNotice H)}

/-- Every step is by one of the rules. -/
theorem Rule.of_step (goes : b.step name action = some (c, notices)) :
    Rule name b action c notices := by
  cases action with
  | publish ctx event =>
    rcases check : Delivery.start b.config b.registry.entries event with invalid | delivery
    all_goals simp only [step, publish, check] at goes
    all_goals cases goes
    · exact .refuse check
    · exact .begins check
  | asked ticket interested =>
    rw [step] at goes
    split at goes
    · rename_i d entry rest delivered waits
      obtain rfl := ticket_of_call? waits
      have hears : (Delivery.asking entry rest delivered).hear (.asked (.returned interested)) =
        some (_, [.interest entry (.returned interested)]) := rfl
      cases goes
      exact .hears waits (fun _ => rfl) rfl hears
    · cases goes
  | handled ticket result =>
    rw [step] at goes
    split at goes
    · rename_i d entry rest delivered waits
      obtain rfl := ticket_of_call? waits
      have hears : (Delivery.handling entry rest delivered).hear (.handled (.returned result)) =
        some (_, [.handler entry (.returned result)]) := rfl
      cases goes
      exact .hears waits (fun _ => rfl) rfl hears
    · cases goes
  | forsake t =>
    obtain ⟨call, waits, same⟩ := Option.map_eq_some_iff.mp goes
    cases same
    exact .forsake waits
  | subscribe | unsubscribe | off | clear =>
    cases goes
    exact .register rfl

/-! ## What a step means for one call -/

/-- What a step means for the call of a number. -/
inductive Fate (name : H → String) (b c : Direct H) (action : DirectAction H)
    (notices : List (DirectNotice H)) (t : Nat) : Prop where
  /-- nothing: it stays where it is, if it is there -/
  | apart (same : c.call? t = b.call? t) (deaf : action.heardBy? t = none)
      (silent : about t notices = [])
  /-- it hears of the end of the handler that it waits for -/
  | hears {d : Dispatch} {delivery after : Delivery H} {reply : Reply} {call : Call H}
      (waits : b.call? t = some ⟨d, delivery⟩) (heard : action.heardBy? t = some reply)
      (goes : delivery.hear reply = some (after, [call]))
      (stands : c.call? t = standing name d after)
      (told : about t notices = call.heard d ++ after.notices name d)
  /-- it ends without an answer -/
  | forsaken (gone : c.call? t = none) (act : action = .forsake t)
      (silent : about t notices = [])

/-- **A step is about one call at most.** The others stay as they are. -/
theorem Rule.fate (rule : Rule name b action c notices) (given : t < b.tickets) :
    Fate name b c action notices t := by
  cases rule with
  | @refuse ctx event =>
    refine .apart rfl rfl (about_other (d := ⟨b.tickets, ctx, event⟩) ?_ given.ne')
    exact List.forall_mem_singleton.mpr rfl
  | @begins ctx event =>
    refine .apart ?_ rfl
      (about_other (d := ⟨b.tickets, ctx, event⟩) Delivery.dispatch_of_notices given.ne')
    rw [call?_proceed, if_neg given.ne]
    rfl
  | @hears _ d delivery after reply call waits heard _ goes =>
    have own : ∀ n ∈ call.heard d ++ after.notices name d, n.dispatch = d :=
      List.forall_mem_append.mpr ⟨Call.dispatch_of_heard, Delivery.dispatch_of_notices⟩
    by_cases mine : d.ticket = t
    · subst mine
      refine .hears waits ?_ goes ?_ (about_self own)
      · rw [heard, if_pos rfl]
      · rw [call?_proceed, if_pos rfl]
    · refine .apart ?_ ?_ (about_other own mine)
      · rw [call?_proceed, if_neg (Ne.symm mine)]
      · rw [heard, if_neg mine]
  | @forsake u =>
    by_cases mine : t = u
    · subst mine
      refine .forsaken ?_ rfl rfl
      rw [call?_remove, if_pos rfl]
    · refine .apart ?_ rfl rfl
      rw [call?_remove, if_neg mine]
  | register registers =>
    refine .apart rfl ?_ rfl
    cases action with
    | subscribe | unsubscribe | off | clear => rfl
    | publish | asked | handled | forsake => cases registers

/-- Only the actions that are about the subscriptions change them. -/
theorem Rule.registry_eq (rule : Rule name b action c notices) :
    c.registry = action.change b.registry := by
  cases rule with
  | refuse | forsake | register => rfl
  | begins => exact registry_proceed ..
  | hears _ _ keeps =>
    rw [registry_proceed]
    cases action with
    | subscribe | unsubscribe | off | clear => cases keeps
    | publish | asked | handled | forsake => rfl

/-- The number of a call is given out once. -/
theorem Rule.tickets_le (rule : Rule name b action c notices) : b.tickets ≤ c.tickets := by
  cases rule with
  | refuse => exact Nat.le_succ _
  | forsake | register => exact le_rfl
  | begins => simp
  | hears => simp

/-! ## Runs -/

/-- **Invariants of buses without a queue.** What holds at the start and is kept by every rule holds
after every run. -/
theorem run_induction {P : List (DirectEntry H) → Direct H → Prop} (start : P [] b)
    (keep : ∀ {log : List (DirectEntry H)} {q r : Direct H} {action : DirectAction H}
      {notices : List (DirectNotice H)},
      P log q → Rule name q action r notices → P (log ++ [⟨action, notices⟩]) r)
    (run : Run (tick name) b log c) : P log c := by
  refine run.invariant start ?_
  intro log q action r told holds ticks
  obtain ⟨⟨r, notices⟩, goes, same⟩ := Option.map_eq_some_iff.mp ticks
  cases same
  exact keep holds (.of_step goes)

/-- The subscriptions are what the changes have made of them, one after the other. -/
theorem registry_of_run (run : Run (tick name) b log c) :
    c.registry = log.foldl (fun registry e => e.action.change registry) b.registry := by
  refine run_induction (P := fun log c =>
    c.registry = log.foldl (fun registry e => e.action.change registry) b.registry) rfl ?_ run
  intro log q r action notices same rule
  rw [rule.registry_eq, same, List.foldl_append]
  rfl

/-- No call has a number that has not been given out. -/
theorem call?_of_run {config : DirectConfig} (run : Run (tick name) (.new config) log b) :
    b.call? b.tickets = none := by
  refine run_induction (P := fun _ b => ∀ t, b.tickets ≤ t → b.call? t = none)
    (fun _ _ => rfl) ?_ run b.tickets le_rfl
  intro log q r action notices fresh rule t later
  have before : q.call? t = none := fresh t (rule.tickets_le.trans later)
  cases rule with
  | refuse | register => exact before
  | begins =>
    rw [call?_proceed, if_neg]
    · exact before
    · rw [tickets_proceed] at later
      exact (Nat.lt_of_succ_le later).ne'
  | @hears _ d _ after _ _ waits =>
    rw [call?_proceed, if_neg]
    · exact before
    · rintro rfl
      rw [before] at waits
      cases waits
  | forsake => rw [call?_remove, before, ite_self]

/-- Nothing more is told of a call that is over. -/
theorem silent_of_gone (run : Run (tick name) b during c) (given : t < b.tickets)
    (gone : b.call? t = none) : about t (noticesOf during) = [] := by
  refine (run_induction (P := fun during c =>
    about t (noticesOf during) = [] ∧ t < c.tickets ∧ c.call? t = none)
    ⟨rfl, given, gone⟩ ?_ run).1
  rintro during q r action notices ⟨silent, given, gone⟩ rule
  rw [noticesOf_concat, about_append, silent, List.nil_append]
  have later := given.trans_le rule.tickets_le
  cases rule.fate given with
  | apart same _ silent => exact ⟨silent, later, same.trans gone⟩
  | forsaken gone _ silent => exact ⟨silent, later, gone⟩
  | hears waits =>
    rw [gone] at waits
    cases waits

/-- Every step keeps a call under way. -/
theorem Delivering.keep (del : Delivering name d entries first during b calls delivery)
    (rule : Rule name b action c notices) :
    ∃ calls delivery,
      Delivering name d entries first (during ++ [⟨action, notices⟩]) c calls delivery := by
  have heard := heardBy_concat d.ticket during ⟨action, notices⟩
  have told : about d.ticket (first ++ noticesOf (during ++ [⟨action, notices⟩])) =
      about d.ticket (first ++ noticesOf during) ++ about d.ticket notices := by
    rw [noticesOf_concat, ← List.append_assoc, about_append]
  have given := del.given.trans_le rule.tickets_le
  cases rule.fate del.given with
  | apart same deaf silent =>
    refine ⟨calls, delivery, ?_, ?_, ?_, given⟩
    · rw [heard, deaf, Option.toList_none, List.append_nil]
      exact del.hears
    · rw [told, silent, List.append_nil]
      exact del.tells
    · rw [same]
      refine del.stands.imp_right ?_
      rintro ⟨gone, e, there, act⟩
      exact ⟨gone, e, List.mem_append_left _ there, act⟩
  | @hears e _ after reply call waits hears goes stands tells =>
    -- what hears is the delivery of this very call, as nothing else has its number
    obtain ⟨⟩ : (⟨e, _⟩ : DirectCall H) = ⟨d, delivery⟩ := by
      rcases del.stands with same | ⟨gone, -⟩
      · exact standing_eq_some (same.symm.trans waits)
      · rw [gone] at waits
        cases waits
    obtain ⟨_, ⟨⟩, -, whole⟩ := Delivery.call_of_hear goes
    refine ⟨calls ++ [call], after, ?_, ?_, .inl stands, given⟩
    · rw [heard, hears]
      exact runAll_concat goes del.hears
    · rw [told, del.tells, tells, List.flatMap_append, List.flatMap_singleton,
        ← whole name]
      simp only [List.append_assoc]
  | forsaken gone act silent =>
    refine ⟨calls, delivery, ?_, ?_, .inr ⟨gone, _, List.mem_append_right _
      (List.mem_singleton_self _), act⟩, given⟩
    · rw [heard, act]
      exact (congrArg _ (List.append_nil _)).trans del.hears
    · rw [told, silent, List.append_nil]
      exact del.tells

/-- Every run keeps a call under way. -/
theorem Delivering.of_run (start : Delivering name d entries first [] b calls delivery)
    (run : Run (tick name) b during c) :
    ∃ calls delivery, Delivering name d entries first during c calls delivery := by
  refine run_induction (P := fun during c =>
    ∃ calls delivery, Delivering name d entries first during c calls delivery)
    ⟨calls, delivery, start⟩ ?_ run
  rintro during q r action notices ⟨calls, delivery, del⟩ rule
  exact del.keep rule

/-! ## A call of publish -/

/-- A call of publish that comes in is refused, as the event is malformed, or it is under way. -/
theorem publish_cases {ctx : Context} {event : Event}
    (goes : b.step name (.publish ctx event) = some (c, first)) :
    (∃ invalid, b.config.validateEvents = true ∧ event.validate = .error invalid ∧
        c = { b with tickets := b.tickets + 1 } ∧
        first = [.answered ⟨b.tickets, ctx, event⟩ (.error (.validation invalid))]) ∨
      (b.config.validateEvents = true → event.validate = .ok ()) ∧
        Delivering name ⟨b.tickets, ctx, event⟩ b.registry.entries first [] c []
          (.turnTo 0 b.registry.entries) := by
  cases Rule.of_step goes with
  | refuse check =>
    obtain ⟨validates, malformed⟩ := Delivery.start_eq_error_iff.mp check
    exact .inl ⟨_, validates, malformed, rfl, rfl⟩
  | begins check =>
    obtain rfl := Delivery.eq_turnTo_of_start check
    refine .inr ⟨?_, .begins name _ ⟨b.tickets, ctx, event⟩ _ (Nat.lt_succ_self _)⟩
    intro validates
    rcases look : event.validate with invalid | ⟨⟨⟩⟩
    · rw [Delivery.start_eq_error_iff.mpr ⟨validates, look⟩] at check
      cases check
    · rfl
  -- the other rules are not about a call that comes in
  | @hears _ d _ _ reply _ _ heard =>
    have hears : none = some reply := (heard d.ticket).trans (if_pos rfl)
    cases hears
  | register registers => cases registers

/-- How a call of publish fares with the subscriptions that it began with: `told` is all that there
was notice of about it, and `during` has happened to the bus since it came in. -/
structure FailFast (name : H → String) (d : Dispatch) (entries : List (Subscription H))
    (during : List (DirectEntry H)) (told : List (DirectNotice H)) (b : Direct H) : Prop where
  /-- all of it follows from those subscriptions and from what their handlers have said to the call,
  so that nothing else that has happened makes a difference -/
  follows : ∃ delivery calls,
    runAll Delivery.hear (.turnTo 0 entries) (heardBy d.ticket during) = some (delivery, calls) ∧
      told = calls.flatMap (·.transcript d) ++ delivery.notices name d
  /-- the subscriptions are asked one after the other -/
  ordered : told.filterMap DirectNotice.asking? <+: entries
  /-- the call hears of each of them twice at most -/
  bounded : (heardBy d.ticket during).length ≤ 2 * entries.length
  /-- unless it has been forsaken it has its answer, or it has not heard so often and goes on
  whatever the handler says that it waits for -/
  goesOn : (∀ e ∈ during, e.action ≠ .forsake d.ticket) →
    (∃ answer, .answered d answer ∈ told) ∨
      (heardBy d.ticket during).length < 2 * entries.length ∧
        ((∀ interested, (b.step name (.asked d.ticket interested)).isSome) ∨
          ∀ result, (b.step name (.handled d.ticket result)).isSome)
  /-- an answer comes after some turns of which none fails but the last, those who have had their
  turn were asked, and those of them who were interested were called -/
  answers : ∀ answer, .answered d answer ∈ told → ∃ turns ended,
    Delivery.Answers name entries turns answer ∧
      told = (turns.flatMap Delivery.callsOf).flatMap (·.transcript d) ++
        [.delivered d ended, .answered d answer] ∧
      told.filterMap DirectNotice.asking? = turns.map (·.entry) ∧
      told.filterMap DirectNotice.calling? = interested turns

/-- A call under way is ordered and fails fast. -/
theorem Delivering.failFast (del : Delivering name d entries first during b calls delivery) :
    FailFast name d entries during (about d.ticket (first ++ noticesOf during)) b := by
  have run := Run.ofActions del.hears
  have heard := (Delivery.length_of_hears del.hears).symm
  obtain ⟨turns, -, soFar⟩ := Delivery.soFar_of_run name run
  refine ⟨⟨delivery, calls, del.hears, del.tells⟩, ?_, ?_, ?_, ?_⟩
  · rw [del.tells]
    exact soFar.asked
  · rw [heard]
    exact soFar.length_calls.1
  · intro unharmed
    rw [heard]
    have waits : b.call? d.ticket = standing name d delivery := by
      refine del.stands.resolve_right ?_
      rintro ⟨-, e, there, act⟩
      exact unharmed e there act
    cases delivery with
    | asking =>
      refine .inr ⟨soFar.length_calls.2 rfl, .inl fun interested => ?_⟩
      rw [step, waits]
      rfl
    | handling =>
      refine .inr ⟨soFar.length_calls.2 rfl, .inr fun result => ?_⟩
      rw [step, waits]
      rfl
    | completed => exact .inl ⟨_, (del.answered_iff _).mpr rfl⟩
    | stopped => exact .inl ⟨_, (del.answered_iff _).mpr rfl⟩
  · intro answer there
    have answered := (del.answered_iff answer).mp there
    obtain ⟨turns, answers, rfl, -⟩ := Delivery.answers_of_run run answered
    have ends : delivery.notices name d = [.delivered d delivery, .answered d answer] := by
      cases delivery with
      | asking | handling => cases answered
      | completed | stopped => cases answered; rfl
    rw [del.tells, ends]
    refine ⟨turns, delivery, answers, rfl, ?_, ?_⟩
    · rw [List.filterMap_append, Delivery.asking_transcript]
      exact List.append_nil _
    · rw [List.filterMap_append, Delivery.calling_transcript]
      exact List.append_nil _

/-- **Publishing is an ordered fold that fails fast.** Take any state that a bus without a queue can
come to, and publish an event. The call has the number that is next, and from then on anything may
happen to the bus: its handlers change the subscriptions and publish events in turn, and so may
anybody else. The subscriptions are at each moment what these changes have made of those that there
were. If the bus validates events and the event is malformed, its answer is that, and there is
notice of nothing else about the call. Otherwise the call fares as `FailFast` says, with the
subscriptions that there were when it came in. -/
theorem publish_is_fail_fast {config : DirectConfig} {log : List (DirectEntry H)} {s : Direct H}
    (reach : Run (tick name) (.new config) log s) (ctx : Context) (event : Event) :
    ∃ s₁ first, s.step name (.publish ctx event) = some (s₁, first) ∧
      ∀ during t, Run (tick name) s₁ during t →
        t.registry = during.foldl (fun registry e => e.action.change registry) s.registry ∧
        (∀ invalid, s.config.validateEvents = true → event.validate = .error invalid →
          about s.tickets (first ++ noticesOf during) =
            [.answered ⟨s.tickets, ctx, event⟩ (.error (.validation invalid))]) ∧
        ((s.config.validateEvents = true → event.validate = .ok ()) →
          FailFast name ⟨s.tickets, ctx, event⟩ s.registry.entries during
            (about s.tickets (first ++ noticesOf during)) t) := by
  obtain ⟨⟨s₁, first⟩, goes⟩ : ∃ next, s.step name (.publish ctx event) = some next := ⟨_, rfl⟩
  refine ⟨s₁, first, goes, ?_⟩
  intro during t run
  have registry := registry_of_run run
  rw [(Rule.of_step goes).registry_eq] at registry
  refine ⟨registry, ?_⟩
  rcases publish_cases goes with ⟨invalid, validates, malformed, rfl, rfl⟩ | ⟨valid, begun⟩
  · refine ⟨?_, ?_⟩
    · intro other _ same
      obtain rfl := Except.error.inj (malformed.symm.trans same)
      have silent := silent_of_gone run (Nat.lt_succ_self s.tickets) (call?_of_run reach)
      rw [about_append, silent, List.append_nil]
      exact about_self (d := ⟨s.tickets, ctx, event⟩) (List.forall_mem_singleton.mpr rfl)
    · intro valid
      rw [valid validates] at malformed
      cases malformed
  · refine ⟨?_, ?_⟩
    · intro invalid validates malformed
      rw [valid validates] at malformed
      cases malformed
    · intro _
      obtain ⟨calls, delivery, del⟩ := begun.of_run run
      exact del.failFast

/-- While the handler `false` is run it takes away the subscription of `true`, makes another one for
itself and publishes the event again. The call of publish that waits for it goes on with the
subscriptions that it began with: it calls `true`, which fails. The other call, which came in later,
goes by the new subscriptions. -/
theorem publish_is_fail_fast_nested :
    ∃ (s s₁ t : Direct Bool) (log during : List (DirectEntry Bool))
      (first : List (DirectNotice Bool)) (turns : List (Turn Bool)),
      Run (tick toString) (.new {}) log s ∧
      s.step toString (.publish default shippedOrder) = some (s₁, first) ∧
      Run (tick toString) s₁ during t ∧
      t.registry.entries = [⟨⟨1⟩, false⟩, ⟨⟨3⟩, false⟩] ∧
      (about 1 (noticesOf during)).filterMap DirectNotice.asking? = t.registry.entries ∧
      Delivery.Answers toString s.registry.entries turns (.error (.handler "true" .cancelled)) ∧
      interested turns = [⟨⟨1⟩, false⟩, ⟨⟨2⟩, true⟩] := by
  obtain ⟨s, s₁, t, log, during, first, before, goes, after, entries, answered, inner, calling,
      valid⟩ :
      ∃ s s₁ t log during first,
        runAll (tick toString) (.new {})
          [.subscribe ⟨1⟩ false, .subscribe ⟨2⟩ true] = some (s, log) ∧
        s.step toString (.publish default shippedOrder) = some (s₁, first) ∧
        runAll (tick toString) s₁
          [.asked 0 true, .off ⟨2⟩, .subscribe ⟨3⟩ false, .publish default shippedOrder,
            .asked 1 false, .asked 1 false, .handled 0 (.ok ()), .asked 0 true,
            .handled 0 (.error .cancelled)] = some (t, during) ∧
        during.foldl (fun registry e => e.action.change registry) s.registry =
          ⟨[⟨⟨1⟩, false⟩, ⟨⟨3⟩, false⟩]⟩ ∧
        (about s.tickets (first ++ noticesOf during)).getLast? =
          some (.answered ⟨s.tickets, default, shippedOrder⟩
            (.error (.handler "true" .cancelled))) ∧
        (about 1 (noticesOf during)).filterMap DirectNotice.asking? =
          [⟨⟨1⟩, false⟩, ⟨⟨3⟩, false⟩] ∧
        (about s.tickets (first ++ noticesOf during)).filterMap DirectNotice.calling? =
          [⟨⟨1⟩, false⟩, ⟨⟨2⟩, true⟩] ∧
        shippedOrder.validate = .ok () :=
    ⟨_, _, _, _, _, _, rfl, rfl, rfl, rfl, rfl, rfl, rfl, rfl⟩
  have reach := Run.ofActions before
  have run := Run.ofActions after
  obtain ⟨s₂, opening, begins, fares⟩ := publish_is_fail_fast reach default shippedOrder
  obtain ⟨rfl, rfl⟩ := Prod.mk.inj (Option.some.inj (begins.symm.trans goes))
  obtain ⟨registry, -, failFast⟩ := fares during t run
  rw [entries] at registry
  obtain ⟨turns, -, answers, -, -, called⟩ :=
    (failFast fun _ => valid).answers _ (List.mem_of_getLast? answered)
  refine ⟨s, s₂, t, log, during, opening, turns, reach, begins, run, ?_, ?_, answers, ?_⟩
  · rw [registry]
  · rw [registry]
    exact inner
  · rw [← called]
    exact calling

end Direct

end DomainEvents.Bus
