import DomainEvents.Bus.Config

/-!
# What comes of settings

A bus is put together from settings, one after the other, and then built. Each setting writes some
fields of the configuration and leaves the others alone, so that a field ends up as it was written
last (`ofSettings_eq_lastWins`), whatever the settings are and however often they come.

`Builds` has the ways in which building can end. A size of zero is refused with an error that names
it, and every other size is accepted. But only so many slots and permits can be counted, and there
is no such check at that end: a configuration that asks for more is accepted, and then building it
ends with a panic (`build_eq_panicked`).
-/

namespace DomainEvents.Bus.PoolConfig

/-! ## Settings -/

namespace Setting

/-- The size of the queue that a setting writes, if it writes one. -/
def queueSize? : Setting → Option Nat
  | .queueSize n => some n
  | .all config => some config.queueSize
  | _ => none

/-- The number of workers that a setting writes, if it writes one. -/
def workerCount? : Setting → Option Nat
  | .workerCount n => some n
  | .all config => some config.workerCount
  | _ => none

/-- Whether malformed events are refused, if a setting writes that. -/
def validation? : Setting → Option Bool
  | .validation on => some on
  | .all config => some config.validateEvents
  | _ => none

/-- All sizes that a setting writes. -/
def sizes (s : Setting) : List Nat := s.queueSize?.toList ++ s.workerCount?.toList

end Setting

/-- What is written last, or else what was there before. -/
def lastOf {α : Type} (value? : Setting → Option α) (preset : α) (settings : List Setting) : α :=
  (settings.filterMap value?).getLast?.getD preset

/-- The configuration in which every field is as it was written last. -/
def lastWins (settings : List Setting) : PoolConfig where
  queueSize := lastOf Setting.queueSize? 1024 settings
  workerCount := lastOf Setting.workerCount? 16 settings
  validateEvents := lastOf Setting.validation? true settings

/-- A field that each setting writes or leaves alone ends up as it was written last. -/
theorem foldl_apply {α : Type} (field : PoolConfig → α) (value? : Setting → Option α)
    (each : ∀ c s, field (apply c s) = (value? s).getD (field c)) (settings : List Setting)
    (c : PoolConfig) : field (settings.foldl apply c) = lastOf value? (field c) settings := by
  induction settings generalizing c with
  | nil => rfl
  | cons s rest ih =>
    rw [List.foldl_cons, ih, each, lastOf, lastOf, List.filterMap_cons]
    cases value? s with
    | none => rfl
    | some value => rw [List.getLast?_cons, Option.getD_some, Option.getD_some]

/-- **The last setting wins, field by field.** -/
theorem ofSettings_eq_lastWins (settings : List Setting) :
    ofSettings settings = lastWins settings := by
  have queue := foldl_apply queueSize Setting.queueSize? (fun c s => by cases s <;> rfl) settings {}
  have workers :=
    foldl_apply workerCount Setting.workerCount? (fun c s => by cases s <;> rfl) settings {}
  have validation :=
    foldl_apply validateEvents Setting.validation? (fun c s => by cases s <;> rfl) settings {}
  rw [lastWins, ← queue, ← workers, ← validation]
  rfl

/-! ## Building -/

variable {c : PoolConfig} {inRuntime : Bool} {outcome : BuildOutcome}

/-- The ways in which building can end, each with when it does. -/
inductive Builds (c : PoolConfig) : Bool → BuildOutcome → Prop where
  | noQueue {inRuntime : Bool} (none : c.queueSize = 0) :
      Builds c inRuntime (.refused (.configuration "queue_size must be greater than 0"))
  | noWorkers {inRuntime : Bool} (queue : 0 < c.queueSize) (none : c.workerCount = 0) :
      Builds c inRuntime (.refused (.configuration "worker_count must be greater than 0"))
  | noRuntime (queue : 0 < c.queueSize) (workers : 0 < c.workerCount) :
      Builds c false
        (.refused (.configuration "AsyncEventBus must be built inside a Tokio runtime"))
  | tooMany (queue : 0 < c.queueSize) (workers : 0 < c.workerCount)
      (many : maxPermits < c.workerCount ∨ maxPermits < c.queueSize) : Builds c true .panicked
  | built (queue : 0 < c.queueSize) (workers : 0 < c.workerCount)
      (workers_le : c.workerCount ≤ maxPermits) (queue_le : c.queueSize ≤ maxPermits) :
      Builds c true (.built c)

/-- A configuration is accepted if there is room in the queue and a worker. -/
theorem validate_eq_ok (queue : 0 < c.queueSize) (workers : 0 < c.workerCount) :
    c.validate = .ok () := by
  rw [validate, if_neg (Nat.ne_of_gt queue), if_neg (Nat.ne_of_gt workers)]

/-- Building ends in one of these ways. -/
theorem builds (c : PoolConfig) (inRuntime : Bool) : Builds c inRuntime (c.build inRuntime) := by
  by_cases noQueue : c.queueSize = 0
  · rw [build, validate, if_pos noQueue]
    exact .noQueue noQueue
  have queue := Nat.pos_of_ne_zero noQueue
  by_cases noWorkers : c.workerCount = 0
  · rw [build, validate, if_neg noQueue, if_pos noWorkers]
    exact .noWorkers queue noWorkers
  have workers := Nat.pos_of_ne_zero noWorkers
  rw [build, validate_eq_ok queue workers]
  cases inRuntime with
  | false => exact .noRuntime queue workers
  | true =>
    by_cases many : maxPermits < c.workerCount ∨ maxPermits < c.queueSize
    · simpa [many] using Builds.tooMany queue workers many
    · obtain ⟨workers_le, queue_le⟩ := not_or.mp many
      simpa [many] using
        Builds.built queue workers (Nat.le_of_not_lt workers_le) (Nat.le_of_not_lt queue_le)

/-- There is only one way for a configuration. -/
theorem Builds.unique {other : BuildOutcome} (builds : Builds c inRuntime outcome)
    (again : Builds c inRuntime other) : outcome = other := by
  cases builds <;> cases again <;> first | rfl | omega

theorem build_eq_iff : c.build inRuntime = outcome ↔ Builds c inRuntime outcome := by
  constructor
  · rintro rfl
    exact builds c inRuntime
  · exact (builds c inRuntime).unique

/-- A panic is the end of an accepted configuration with a size beyond what can be counted. -/
theorem build_eq_panicked : c.build true = .panicked ↔
    c.validate = .ok () ∧ (maxPermits < c.workerCount ∨ maxPermits < c.queueSize) := by
  constructor
  · intro panics
    cases build_eq_iff.mp panics with
    | tooMany queue workers many => exact ⟨validate_eq_ok queue workers, many⟩
  · rintro ⟨valid, many⟩
    rw [build, valid]
    simp [many]

/-- What is written last is within a bound if all that is written is, and what was there before. -/
theorem lastOf_le {value? : Setting → Option Nat} {preset bound : Nat} {settings : List Setting}
    (preset_le : preset ≤ bound) (written_le : ∀ s ∈ settings, ∀ n ∈ value? s, n ≤ bound) :
    lastOf value? preset settings ≤ bound := by
  rw [lastOf]
  cases last : (settings.filterMap value?).getLast? with
  | none => exact preset_le
  | some n =>
    obtain ⟨s, there, written⟩ := List.mem_filterMap.mp (List.mem_of_getLast? last)
    exact written_le s there n written

/-- No size is beyond what can be counted if none that is written is. -/
theorem lastWins_le {settings : List Setting}
    (few : ∀ s ∈ settings, ∀ n ∈ s.sizes, n ≤ maxPermits) :
    (lastWins settings).queueSize ≤ maxPermits ∧
      (lastWins settings).workerCount ≤ maxPermits := by
  constructor <;> refine lastOf_le (by decide) fun s there n written => few s there n ?_
  · exact List.mem_append_left _ (Option.mem_toList.mpr written)
  · exact List.mem_append_right _ (Option.mem_toList.mpr written)

/-- **What comes of settings.** For every list of settings, the configuration has each field as it
was written last. Building it ends in the one way that fits it: with an error that names the size
that is zero, outside of a runtime with an error that says so, and else with a bus of that
configuration, unless a size is beyond what can be counted. Then, and only then, it ends with a
panic, although the configuration was accepted; so it never does where no setting writes such a
size. -/
theorem build_of_settings (settings : List Setting) :
    ofSettings settings = lastWins settings ∧
    (∀ inRuntime outcome, (ofSettings settings).build inRuntime = outcome ↔
      Builds (lastWins settings) inRuntime outcome) ∧
    ((ofSettings settings).build true = .panicked ↔
      (lastWins settings).validate = .ok () ∧
        (maxPermits < (lastWins settings).workerCount ∨
          maxPermits < (lastWins settings).queueSize)) ∧
    ((∀ s ∈ settings, ∀ n ∈ s.sizes, n ≤ maxPermits) →
      ∀ inRuntime, (ofSettings settings).build inRuntime ≠ .panicked) := by
  rw [ofSettings_eq_lastWins]
  refine ⟨rfl, fun _ _ => build_eq_iff, build_eq_panicked, ?_⟩
  intro few inRuntime panics
  obtain ⟨queue_le, workers_le⟩ := lastWins_le few
  cases build_eq_iff.mp panics with
  | tooMany _ _ many => omega

/-- A bus is built with the sizes that were written last, whatever was written before. -/
theorem build_of_settings_last :
    (ofSettings [.queueSize 0, .all ⟨7, 3, false⟩, .workerCount maxPermits]).build true ≠
        .panicked ∧
      (ofSettings [.queueSize 0, .all ⟨7, 3, false⟩, .workerCount maxPermits]).build true =
        .built ⟨7, maxPermits, false⟩ := by
  obtain ⟨-, ends, -, fine⟩ :=
    build_of_settings [.queueSize 0, .all ⟨7, 3, false⟩, .workerCount maxPermits]
  refine ⟨fine (by decide) true, (ends true _).mpr ?_⟩
  exact .built (by decide) (by decide) (by decide) (by decide)

/-- Not every configuration of sizes of 64 bits gives a bus or an error. -/
theorem build_may_panic :
    ¬ ∀ settings : List Setting, (∀ s ∈ settings, ∀ n ∈ s.sizes, n < Nat.pow 2 64) →
      (ofSettings settings).build true = .built (lastWins settings) ∨
        ∃ message, (ofSettings settings).build true = .refused (.configuration message) := by
  intro fine
  have panics : (ofSettings [.queueSize (Nat.pow 2 61)]).build true = .panicked := by decide
  rcases fine [.queueSize (Nat.pow 2 61)] (by decide) with built | ⟨message, refused⟩
  · rw [panics] at built
    cases built
  · rw [panics] at refused
    cases refused

end DomainEvents.Bus.PoolConfig
