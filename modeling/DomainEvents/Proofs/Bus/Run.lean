import DomainEvents.Bus.Broker
import DomainEvents.Proofs.Bus.Rule

/-!
# Runs of pools and brokers

A broker only ever changes its pool by steps of the pool: a run of the broker, with all that its
replays do, is also a run of the pool, and `history` reads off what it tells (`Broker.run_pool`). So
what holds after all runs of a pool holds for a bus with replays.

What is kept by the rules of a pool holds after every run (`Pool.run_induction`), and as each step
tells one entry of the history, a run can be cut wherever its history can (`Pool.run_append`).
-/

namespace DomainEvents.Bus

variable {H : Type} [DecidableEq H]

/-! ## Runs of pools -/

namespace Pool

variable {p q r : Pool H} {h k : History H} {action : Action H} {notices : List (Notice H)}

/-- A step of a pool is a run with one entry. -/
theorem run_step (step : p.step action = some (q, notices)) :
    Run Pool.tick p [⟨action, notices⟩] q :=
  .single (tick_eq_some.mpr ⟨notices, step, rfl⟩)

/-- **Invariants of pools.** What holds at the start and is kept by every rule holds after every
run. -/
theorem run_induction {P : History H → Pool H → Prop} (start : P [] p)
    (keep : ∀ {h : History H} {q r : Pool H} {action : Action H} {notices : List (Notice H)},
      P h q → Rule q action r notices → P (h ++ [⟨action, notices⟩]) r)
    (run : Run Pool.tick p h q) : P h q := by
  refine run.invariant start ?_
  intro h q action r told hP ticks
  obtain ⟨notices, step, rfl⟩ := tick_eq_some.mp ticks
  exact keep hP (.of_step step)

/-- A run can be cut wherever its history can. -/
theorem run_append (run : Run Pool.tick p (h ++ k) r) :
    ∃ q, Run Pool.tick p h q ∧ Run Pool.tick q k r := by
  -- by induction on the run, whose last step is in `k` unless `k` is empty
  generalize whole : h ++ k = log at run
  induction run generalizing k with
  | refl =>
    obtain ⟨rfl, rfl⟩ := List.append_eq_nil_iff.mp whole
    exact ⟨p, .refl, .refl⟩
  | snoc init ticks ih =>
    obtain ⟨notices, step, rfl⟩ := tick_eq_some.mp ticks
    rcases List.eq_nil_or_concat k with rfl | ⟨k, e, rfl⟩
    · rw [List.append_nil] at whole
      rw [whole]
      exact ⟨_, init.snoc ticks, .refl⟩
    · rw [List.concat_eq_append, ← List.append_assoc] at whole
      obtain ⟨whole, last⟩ := List.append_inj' whole rfl
      obtain ⟨q, before, after⟩ := ih whole
      rw [List.concat_eq_append, last]
      exact ⟨q, before, after.snoc ticks⟩

/-- A run that has told nothing has done nothing. -/
theorem eq_of_run_nil (run : Run Pool.tick p [] q) : p = q := by
  generalize whole : ([] : History H) = log at run
  cases run with
  | refl => rfl
  | snoc _ ticks =>
    obtain ⟨notices, _, rfl⟩ := tick_eq_some.mp ticks
    cases List.append_eq_nil_iff.mp whole.symm with
    | intro _ last => cases last

/-- The first step of a run, and what comes after it. -/
theorem run_cons {e : Entry H} (run : Run Pool.tick p (e :: h) r) :
    ∃ q, p.step e.action = some (q, e.notices) ∧ Run Pool.tick q h r := by
  obtain ⟨q, first, after⟩ := run_append (show Run Pool.tick p ([e] ++ h) r from run)
  refine ⟨q, ?_, after⟩
  generalize whole : [e] = log at first
  cases first with
  | refl => cases whole
  | snoc init ticks =>
    obtain ⟨notices, step, rfl⟩ := tick_eq_some.mp ticks
    rw [← List.nil_append [e]] at whole
    obtain ⟨nil, last⟩ := List.append_inj' whole rfl
    rw [← nil] at init
    obtain rfl := eq_of_run_nil init
    obtain rfl := List.singleton_inj.mp last
    exact step

/-- A run can be cut at any of its steps. -/
theorem run_cut {e : Entry H} (run : Run Pool.tick p (h ++ e :: k) r) :
    ∃ m q, Run Pool.tick p h m ∧ m.step e.action = some (q, e.notices) ∧ Run Pool.tick q k r := by
  obtain ⟨m, before, rest⟩ := run_append run
  obtain ⟨q, step, after⟩ := run_cons rest
  exact ⟨m, q, before, step, after⟩

/-- What has happened to a pool tells what it is like. -/
theorem run_unique (one : Run Pool.tick p h q) (other : Run Pool.tick p h r) : q = r := by
  induction h generalizing p with
  | nil => exact (eq_of_run_nil one).symm.trans (eq_of_run_nil other)
  | cons e h ih =>
    obtain ⟨m, first, one⟩ := run_cons one
    obtain ⟨n, second, other⟩ := run_cons other
    obtain ⟨rfl, -⟩ := Prod.mk.inj (Option.some.inj (first.symm.trans second))
    exact ih one other

end Pool

/-! ## Runs of brokers -/

namespace Broker

variable {b c : Broker H}

/-- A step of the pool that a broker lets happen is a run of the pool. -/
theorem run_act {action : Action H} {deeds : List (Deed H)} (h : b.act action = some (c, deeds)) :
    Run Pool.tick b.pool (history deeds) c.pool := by
  obtain ⟨⟨pool, notices⟩, step, same⟩ := Option.map_eq_some_iff.mp h
  obtain ⟨rfl, rfl⟩ := Prod.mk.inj same
  exact Pool.run_step step

/-- A replay that goes on publishes into the pool or leaves it as it is. -/
theorem run_turn {call : ReplayCall} {step : ReplayStep} {deeds : List (Deed H)}
    (h : b.turn call step = some (c, deeds)) : Run Pool.tick b.pool (history deeds) c.pool := by
  cases step with
  | answered result =>
    obtain ⟨rfl, rfl⟩ := Prod.mk.inj (Option.some.inj h)
    exact .refl
  | publish event replay =>
    rw [turn] at h
    split at h
    case h_1 => cases h
    case h_2 pool notices step =>
      split at h
      case h_1 =>
        obtain ⟨rfl, rfl⟩ := Prod.mk.inj (Option.some.inj h)
        exact Pool.run_step step
      case h_2 =>
        obtain ⟨rfl, rfl⟩ := Prod.mk.inj (Option.some.inj h)
        exact Pool.run_step step

/-- The answer of a store to a call of publish is a step of the pool, and then the replay that made
the call goes on. -/
theorem run_saved {t : Nat} {result : Except StoreError Unit} {deeds : List (Deed H)}
    (h : b.saved t result = some (c, deeds)) : Run Pool.tick b.pool (history deeds) c.pool := by
  rw [saved] at h
  split at h
  case h_1 => cases h
  case h_2 pool notices step =>
    split at h
    case h_1 =>
      obtain ⟨rfl, rfl⟩ := Prod.mk.inj (Option.some.inj h)
      exact Pool.run_step step
    case h_2 =>
      -- the replay has its turn within the same step of the broker
      obtain ⟨⟨after, told⟩, turn, same⟩ := Option.map_eq_some_iff.mp h
      obtain ⟨rfl, rfl⟩ := Prod.mk.inj same
      exact (Pool.run_step step).trans (run_turn turn)
    case h_3 =>
      obtain ⟨rfl, rfl⟩ := Prod.mk.inj (Option.some.inj h)
      exact Pool.run_step step

theorem run_forsake {t : Nat} {deeds : List (Deed H)} (h : b.forsake t = some (c, deeds)) :
    Run Pool.tick b.pool (history deeds) c.pool := by
  obtain ⟨⟨after, told⟩, act, same⟩ := Option.map_eq_some_iff.mp h
  have ran := run_act act
  rcases found : b.publisher? t with _ | ⟨call, _⟩
  · rw [found] at same
    obtain ⟨rfl, rfl⟩ := Prod.mk.inj same
    exact ran
  · rw [found] at same
    obtain ⟨rfl, rfl⟩ := Prod.mk.inj same
    exact ran

theorem run_loaded {number : Nat} {result : Except StoreError (List Event)}
    {deeds : List (Deed H)} (h : b.loaded number result = some (c, deeds)) :
    Run Pool.tick b.pool (history deeds) c.pool := by
  rw [loaded] at h
  split at h
  case h_1 => cases h
  case h_2 call _ =>
    obtain ⟨⟨after, told⟩, turn, same⟩ := Option.map_eq_some_iff.mp h
    obtain ⟨rfl, rfl⟩ := Prod.mk.inj same
    rw [history_append]
    cases result with
    | ok events => exact run_turn turn
    | error source => exact run_turn turn

/-- A step of a broker is a run of its pool. -/
theorem run_step {action : BrokerAction H} {deeds : List (Deed H)}
    (h : b.step action = some (c, deeds)) : Run Pool.tick b.pool (history deeds) c.pool := by
  rw [Broker.step.eq_def] at h
  split at h
  case h_1 => exact run_saved h
  case h_2 => exact run_forsake h
  case h_3 =>
    split at h
    case isTrue => exact run_act h
    case isFalse => cases h
  case h_4 => exact run_act h
  case h_5 =>
    rw [replay] at h
    split at h
    case isTrue =>
      obtain ⟨rfl, rfl⟩ := Prod.mk.inj (Option.some.inj h)
      exact .refl
    case isFalse => cases h
  case h_6 => exact run_loaded h
  case h_7 =>
    obtain ⟨_, _, same⟩ := Option.map_eq_some_iff.mp h
    obtain ⟨rfl, rfl⟩ := Prod.mk.inj same
    exact .refl

/-- **A run of a broker is a run of its pool.** -/
theorem run_pool {log : List (Deed H)} (run : Run Broker.step b log c) :
    Run Pool.tick b.pool (history log) c.pool := by
  induction run with
  | refl => exact .refl
  | snoc _ step ih =>
    rw [history_append]
    exact ih.trans (run_step step)

end Broker

end DomainEvents.Bus
