import DomainEvents.Bus.Delivery
import DomainEvents.Proofs.Bus.Called

/-!
# The turns of a delivery

A delivery goes through its subscriptions in turns, as a worker does, but it stops at the first
handler that fails, and a panic takes the publisher along. It makes none but the calls in which a
handler is asked and run (`Delivery.callsOf`), and goes on when it hears how they have ended
(`Delivery.hear`). What it has called and where it stands go together, which is what
`Delivery.SoFar` says; so its answer is known from its turns (`Delivery.Answers`).
-/

namespace DomainEvents.Bus

variable {H : Type}

namespace Delivery

variable {entries : List (Subscription H)}

/-! ## The beginning -/

theorem start_eq (config : DirectConfig) (entries : List (Subscription H)) (event : Event) :
    start config entries event =
      (if config.validateEvents then event.validate else .ok ()).map fun _ => turnTo 0 entries := by
  rw [start]
  cases config.validateEvents with
  | false => rfl
  | true => cases event.validate <;> rfl

theorem eq_turnTo_of_start {config : DirectConfig} {event : Event} {delivery : Delivery H}
    (accepted : start config entries event = .ok delivery) : delivery = turnTo 0 entries := by
  rw [start_eq] at accepted
  cases look : (if config.validateEvents then event.validate else .ok ()) with
  | error =>
    rw [look] at accepted
    cases accepted
  | ok =>
    rw [look] at accepted
    exact (Except.ok.inj accepted).symm

/-- An event is refused if the bus validates events and this one is malformed. -/
theorem start_eq_error_iff {config : DirectConfig} {event : Event} {invalid : ValidationError} :
    start config entries event = .error invalid ↔
      config.validateEvents = true ∧ event.validate = .error invalid := by
  rw [start_eq]
  cases config.validateEvents <;> cases event.validate <;> simp [Except.map]

/-! ## Turns -/

/-- The calls of a turn in which its handler is asked and run; a delivery makes no others. -/
def callsOf (turn : Turn H) : List (Call H) := turn.verdict.calls turn.entry

/-- A delivery goes on when it hears how the call has ended for which it waits. It does not go on
from a panic, which takes the publisher along. -/
def hear : Delivery H → Reply → Option (Delivery H × List (Call H))
  | .asking entry rest count, .asked (.returned interested) =>
    some ((asking entry rest count).asked interested, [.interest entry (.returned interested)])
  | .handling entry rest count, .handled (.returned result) =>
    some ((handling entry rest count).handled result, [.handler entry (.returned result)])
  | _, _ => none

/-- Where a delivery to the given subscriptions stands after some turns, and what it has called. -/
inductive SoFar (names : H → String) (entries : List (Subscription H)) (turns : List (Turn H)) :
    List (Call H) → Delivery H → Prop where
  /-- no handler has failed in the turns that are over, and it turns to the rest -/
  | turning {rest : List (Subscription H)} (count : Nat)
      (split : turns.map (·.entry) ++ rest = entries)
      (succeed : turns.filterMap Turn.failure? = []) :
      SoFar names entries turns (turns.flatMap callsOf) (turnTo count rest)
  | handling {entry : Subscription H} {rest : List (Subscription H)} (count : Nat)
      (split : turns.map (·.entry) ++ entry :: rest = entries)
      (succeed : turns.filterMap Turn.failure? = []) :
      SoFar names entries turns (turns.flatMap callsOf ++ [.interest entry (.returned true)])
        (.handling entry rest count)
  /-- the handler of the last turn has failed -/
  | stopped {entry : Subscription H} {source : HandlerError} {rest : List (Subscription H)}
      (split : turns.map (·.entry) ++ rest = entries)
      (fails : turns.filterMap Turn.failure? = [.handler (names entry.handler) source]) :
      SoFar names entries turns (turns.flatMap callsOf) (.stopped entry source)

variable {names : H → String} {calls told : List (Call H)} {delivery after : Delivery H}
  {reply : Reply}

/-- When a turn is over the delivery turns to the rest. -/
theorem SoFar.turned {turns : List (Turn H)} {rest : List (Subscription H)} (turn : Turn H)
    (count : Nat) (split : turns.map (·.entry) ++ turn.entry :: rest = entries)
    (before : turns.filterMap Turn.failure? = []) (succeeds : turn.failure? = none)
    (same : calls = turns.flatMap callsOf ++ callsOf turn) :
    SoFar names entries (turns ++ [turn]) calls (turnTo count rest) := by
  have whole : calls = (turns ++ [turn]).flatMap callsOf := by simpa using same
  rw [whole]
  exact .turning count (by simpa using split) (by simp [before, succeeds])

/-- When a handler fails the delivery stops. -/
theorem SoFar.failing {turns : List (Turn H)} {rest : List (Subscription H)} (turn : Turn H)
    {source : HandlerError} (split : turns.map (·.entry) ++ turn.entry :: rest = entries)
    (before : turns.filterMap Turn.failure? = [])
    (fails : turn.failure? = some (.handler (names turn.entry.handler) source))
    (same : calls = turns.flatMap callsOf ++ callsOf turn) :
    SoFar names entries (turns ++ [turn]) calls (.stopped turn.entry source) := by
  have whole : calls = (turns ++ [turn]).flatMap callsOf := by simpa using same
  rw [whole]
  have split : (turns ++ [turn]).map (·.entry) ++ rest = entries := by simpa using split
  exact .stopped split (by simp [before, fails])

/-- **A delivery goes through turns.** Each call leads on from where it stands. -/
theorem SoFar.hear {turns : List (Turn H)}
    (soFar : SoFar names entries turns calls delivery)
    (named : ∀ turn ∈ turns, turn.name = names turn.entry.handler)
    (goes : delivery.hear reply = some (after, told)) :
    ∃ turns, (∀ turn ∈ turns, turn.name = names turn.entry.handler) ∧
      SoFar names entries turns (calls ++ told) after := by
  have longer (turn : Turn H) (mine : turn.name = names turn.entry.handler) :
      ∀ other ∈ turns ++ [turn], other.name = names other.entry.handler :=
    List.forall_mem_append.mpr ⟨named, List.forall_mem_singleton.mpr mine⟩
  cases soFar with
  | @turning rest count split succeed =>
    cases rest with
    | nil => cases goes
    | cons entry rest =>
      rcases reply with _ | ((_ | _) | _) | _ | _ | _
      case asked.returned.false =>
        cases goes
        exact ⟨_, longer ⟨entry, names entry.handler, .declined⟩ rfl,
          .turned _ count split succeed rfl rfl⟩
      case asked.returned.true =>
        cases goes
        exact ⟨turns, named, .handling count split succeed⟩
      all_goals cases goes
  | @handling entry rest count split succeed =>
    rcases reply with _ | _ | ((source | ⟨⟨⟩⟩) | _) | _ | _
    case handled.returned.error =>
      cases goes
      exact ⟨_, longer ⟨entry, names entry.handler, .failed source⟩ rfl,
        .failing _ split succeed rfl (List.append_assoc ..)⟩
    case handled.returned.ok =>
      cases goes
      exact ⟨_, longer ⟨entry, names entry.handler, .handled⟩ rfl,
        .turned _ (count + 1) split succeed rfl (List.append_assoc ..)⟩
    all_goals cases goes
  | stopped => cases goes

/-- Wherever a run of a delivery stands, it stands after some turns. -/
theorem soFar_of_run (names : H → String)
    (run : Run Delivery.hear (.turnTo 0 entries) calls delivery) :
    ∃ turns, (∀ turn ∈ turns, turn.name = names turn.entry.handler) ∧
      SoFar names entries turns calls delivery := by
  refine run.invariant (P := fun calls delivery =>
    ∃ turns, (∀ turn ∈ turns, turn.name = names turn.entry.handler) ∧
      SoFar names entries turns calls delivery) ⟨[], nofun, .turning 0 rfl rfl⟩ ?_
  rintro calls delivery reply after told ⟨turns, named, soFar⟩ goes
  exact soFar.hear named goes

/-- A delivery that is complete has been through all subscriptions. -/
theorem SoFar.all_of_completed {turns : List (Turn H)} {count : Nat}
    (soFar : SoFar names entries turns calls (.completed count)) :
    turns.map (·.entry) = entries := by
  generalize ends : Delivery.completed count = delivery at soFar
  cases soFar with
  | @turning rest _ split =>
    cases rest with
    | nil => simpa using split
    | cons => cases ends
  | handling => cases ends
  | stopped => cases ends

theorem called_callsOf (turns : List (Turn H)) :
    (turns.flatMap callsOf).filterMap Call.called? = interested turns := by
  induction turns with
  | nil => rfl
  | cons turn turns ih =>
    rw [List.flatMap_cons, List.filterMap_append, ih, interested_cons]
    obtain ⟨entry, name, verdict⟩ := turn
    cases verdict <;> rfl

theorem length_callsOf (turns : List (Turn H)) :
    (turns.flatMap callsOf).length ≤ 2 * turns.length := by
  induction turns with
  | nil => exact Nat.le_refl _
  | cons turn turns ih =>
    have two : (callsOf turn).length ≤ 2 := by
      obtain ⟨entry, told, verdict⟩ := turn
      cases verdict <;> simp [callsOf, Verdict.calls]
    rw [List.flatMap_cons, List.length_append, List.length_cons]
    omega

/-- A delivery hears twice of a subscription at most, and less often before it is over. -/
theorem SoFar.length_calls {turns : List (Turn H)}
    (soFar : SoFar names entries turns calls delivery) :
    calls.length ≤ 2 * entries.length ∧
      (delivery.result? names = none → calls.length < 2 * entries.length) := by
  have few := length_callsOf turns
  cases soFar with
  | @turning rest count split =>
    have all := congrArg List.length split
    rw [List.length_append, List.length_map] at all
    refine ⟨by omega, ?_⟩
    intro waits
    cases rest with
    | nil => cases waits
    | cons entry rest =>
      rw [List.length_cons] at all
      omega
  | handling count split =>
    have all := congrArg List.length split
    rw [List.length_append, List.length_map, List.length_cons] at all
    rw [List.length_append, List.length_singleton]
    exact ⟨by omega, fun _ => by omega⟩
  | stopped split =>
    have all := congrArg List.length split
    rw [List.length_append, List.length_map] at all
    exact ⟨by omega, nofun⟩

/-! ## Answers -/

/-- A delivery stops when it hears that a handler has failed. -/
theorem handling_of_hear {entry : Subscription H} {source : HandlerError}
    (goes : delivery.hear reply = some (.stopped entry source, told)) :
    ∃ rest count, delivery = .handling entry rest count ∧
      told = [.handler entry (.returned (.error source))] := by
  revert goes
  fun_cases Delivery.hear with
  | case1 entry rest count interested =>
    intro goes
    obtain ⟨stops, -⟩ := Prod.mk.inj (Option.some.inj goes)
    cases interested <;> cases rest <;> cases stops
  | case2 entry rest count result =>
    intro goes
    obtain ⟨stops, rfl⟩ := Prod.mk.inj (Option.some.inj goes)
    rcases result with source | ⟨⟨⟩⟩
    · cases stops
      exact ⟨rest, count, rfl, rfl⟩
    · cases rest <;> cases stops
  | case3 => nofun

/-- How a delivery comes to its answer: after some turns, of which none fails but the last. -/
inductive Answers (name : H → String) (entries : List (Subscription H)) :
    List (Turn H) → Except BusError Unit → Prop where
  /-- all subscriptions have had their turn, and no handler has failed -/
  | success {turns : List (Turn H)} (all : turns.map (·.entry) = entries)
      (succeed : ∀ turn ∈ turns, turn.failure? = none) : Answers name entries turns (.ok ())
  /-- a handler has failed, the ones before it have not, and the rest do not have their turn -/
  | failure {before : List (Turn H)} {entry : Subscription H} {rest : List (Subscription H)}
      {source : HandlerError} (split : before.map (·.entry) ++ entry :: rest = entries)
      (succeed : ∀ turn ∈ before, turn.failure? = none) :
      Answers name entries (before ++ [⟨entry, name entry.handler, .failed source⟩])
        (.error (.handler (name entry.handler) source))

/-- A delivery that has come to its end has an answer, and its turns say which. -/
theorem answers_of_run {answer : Except BusError Unit}
    (run : Run Delivery.hear (.turnTo 0 entries) calls delivery)
    (answered : delivery.result? names = some answer) :
    ∃ turns, Answers names entries turns answer ∧ calls = turns.flatMap callsOf ∧
      ∀ turn ∈ turns, turn.name = names turn.entry.handler := by
  have none_of {turns : List (Turn H)} (succeed : turns.filterMap Turn.failure? = []) :
      ∀ turn ∈ turns, turn.failure? = none := List.filterMap_eq_nil_iff.mp succeed
  cases delivery with
  | asking | handling => cases answered
  | completed count =>
    obtain ⟨turns, named, soFar⟩ := soFar_of_run names run
    have all := soFar.all_of_completed
    generalize ends : Delivery.completed count = delivery at soFar
    cases soFar with
    | turning _ _ succeed =>
      obtain rfl := Option.some.inj answered
      exact ⟨turns, .success all (none_of succeed), rfl, named⟩
    | handling | stopped => cases ends
  | stopped entry source =>
    obtain rfl := Option.some.inj answered
    -- it has stopped when it heard that the handler has failed
    generalize ends : Delivery.stopped entry source = delivery at run
    cases run with
    | refl => cases entries <;> cases ends
    | snoc run goes =>
      subst ends
      obtain ⟨rest, count, rfl, rfl⟩ := handling_of_hear goes
      obtain ⟨turns, named, soFar⟩ := soFar_of_run names run
      generalize waits : Delivery.handling entry rest count = delivery at soFar
      cases soFar with
      | @turning rest => cases rest <;> cases waits
      | handling _ split succeed =>
        cases waits
        refine ⟨_, .failure split (none_of succeed), ?_, ?_⟩
        · rw [List.flatMap_append, List.append_assoc]
          rfl
        · exact List.forall_mem_append.mpr ⟨named, List.forall_mem_singleton.mpr rfl⟩
      | stopped => cases waits

end Delivery

end DomainEvents.Bus
