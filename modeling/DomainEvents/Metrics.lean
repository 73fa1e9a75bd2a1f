import DomainEvents.Error

/-!
# Metrics

What a bus counts. It gives a `Signal` whenever something worth counting happens, and the series add
the signals up. Before it counts, it puts its metrics on record in a collector, under names that
nobody else must have taken there.
-/

namespace DomainEvents

/-- Something worth counting. -/
inductive Signal where
  /-- an event was accepted -/
  | published
  /-- an event was refused -/
  | rejected (error : BusError)
  /-- the handlers of an event have all run -/
  | processed
  /-- a handler failed or panicked -/
  | handlerFailed
  /-- a worker has started -/
  | workerStarted
  /-- a worker has ended -/
  | workerFinished
deriving DecidableEq, Repr

/-- Whether a signal tells of an answer of a kind to a call of publish. -/
def Signal.settles (kind : Except BusError Unit → Bool) : Signal → Bool
  | .published => kind (.ok ())
  | .rejected error => kind (.error error)
  | _ => false

/-- The metrics of a bus. -/
inductive Metric where
  | published
  | rejected
  | processed
  | handlerFailures
  | inFlight
deriving DecidableEq, Repr

namespace Metric

/-- All metrics, in the order in which they are put on record. -/
def all : List Metric := [.published, .rejected, .processed, .handlerFailures, .inFlight]

/-- The name of a metric without the part that all have in common. -/
def shortName : Metric → String
  | .published => "events_published_total"
  | .rejected => "events_rejected_total"
  | .processed => "events_processed_total"
  | .handlerFailures => "handler_failures_total"
  | .inFlight => "workers_in_flight"

/-- The name of a metric. -/
def name (m : Metric) : String := "domainbus_" ++ m.shortName

/-- What a metric tells. -/
def help : Metric → String
  | .published => "Events accepted into the dispatch queue"
  | .rejected => "Events refused by publish, by reason"
  | .processed => "Events whose handlers have all run"
  | .handlerFailures => "Handler errors and panics reported to the error callback"
  | .inFlight => "Per-event workers currently running"

/-- Whether a metric may go down. -/
def isGauge : Metric → Bool
  | .inFlight => true
  | _ => false

end Metric

/-- Why an event was refused, as the label of a series. -/
def BusError.rejectReason : BusError → String
  | .shuttingDown => "shutting_down"
  | .validation _ => "invalid"
  | .queueFull _ => "queue_full"
  | _ => "persistence"

/-- Whether an answer to a call of publish is a failure for the given reason. -/
def failsFor (reason : String) : Except BusError Unit → Bool
  | .ok () => false
  | .error error => error.rejectReason == reason

/-- The numbers that a bus counts. -/
structure Series where
  published : Nat := 0
  /-- the refused events by reason, for every reason that was asked for or met -/
  rejected : List (String × Nat) := []
  processed : Nat := 0
  handlerFailures : Nat := 0
  inFlight : Int := 0
deriving DecidableEq, Repr, Inhabited

namespace Series

/-- Adds to the count of a reason, which starts at zero. -/
def addReason (reason : String) (n : Nat) : List (String × Nat) → List (String × Nat)
  | [] => [(reason, n)]
  | (known, count) :: rest =>
    if known = reason then (known, count + n) :: rest else (known, count) :: addReason reason n rest

/-- The count of a reason. -/
def rejectedFor (s : Series) (reason : String) : Nat :=
  ((s.rejected.find? (·.1 == reason)).map (·.2)).getD 0

/-- The counts of some reasons together. -/
def total : List (String × Nat) → Nat
  | [] => 0
  | (_, count) :: rest => count + total rest

/-- The count of all reasons together. -/
def rejectedTotal (s : Series) : Nat := total s.rejected

/-- Counts a refusal. -/
def reject (s : Series) (reason : String) : Series :=
  { s with rejected := addReason reason 1 s.rejected }

/-- Makes sure that a reason has a series. -/
def touch (s : Series) (reason : String) : Series :=
  { s with rejected := addReason reason 0 s.rejected }

/-- Counts a signal. -/
def record (s : Series) : Signal → Series
  | .published => { s with published := s.published + 1 }
  | .rejected error => s.reject error.rejectReason
  | .processed => { s with processed := s.processed + 1 }
  | .handlerFailed => { s with handlerFailures := s.handlerFailures + 1 }
  | .workerStarted => { s with inFlight := s.inFlight + 1 }
  | .workerFinished => { s with inFlight := s.inFlight - 1 }

theorem total_addReason (reason : String) (n : Nat) (counts : List (String × Nat)) :
    total (addReason reason n counts) = total counts + n := by
  induction counts with
  | nil => simp [addReason, total]
  | cons entry rest ih =>
    unfold addReason
    split <;> simp only [total, ih] <;> omega

/-- What is added to the count of a reason is added to no other count. -/
theorem find?_addReason (reason other : String) (n : Nat) (counts : List (String × Nat)) :
    (((addReason reason n counts).find? (·.1 == other)).map (·.2)).getD 0 =
      ((counts.find? (·.1 == other)).map (·.2)).getD 0 + if reason = other then n else 0 := by
  induction counts with
  | nil => by_cases same : reason = other <;> simp [addReason, same]
  | cons entry rest ih =>
    obtain ⟨known, count⟩ := entry
    rw [addReason]
    by_cases here : known = reason
    · subst here
      by_cases same : known = other <;> simp [same]
    · by_cases there : known = other
      · subst there
        simp [here, Ne.symm here]
      · simpa [here, there] using ih

theorem rejectedFor_reject (s : Series) (reason other : String) :
    (s.reject reason).rejectedFor other =
      s.rejectedFor other + if reason = other then 1 else 0 :=
  find?_addReason reason other 1 s.rejected

theorem rejectedTotal_reject (s : Series) (reason : String) :
    (s.reject reason).rejectedTotal = s.rejectedTotal + 1 :=
  total_addReason reason 1 s.rejected

/-- A number that each signal of a kind raises by one, and no other signal changes, counts the
signals of that kind. -/
theorem foldl_record {f : Series → Nat} {kind : Signal → Bool}
    (each : ∀ s signal, f (record s signal) = f s + if kind signal then 1 else 0)
    (signals : List Signal) (s : Series) :
    f (signals.foldl record s) = f s + signals.countP kind := by
  induction signals generalizing s with
  | nil => rfl
  | cons signal rest ih =>
    rw [List.foldl_cons, ih, each, List.countP_cons]
    omega

theorem published_foldl_record (signals : List Signal) (s : Series) :
    (signals.foldl record s).published = s.published + signals.countP (·.settles (·.isOk)) :=
  foldl_record (by intro s signal; cases signal <;> rfl) signals s

theorem rejectedFor_foldl_record (reason : String) (signals : List Signal) (s : Series) :
    (signals.foldl record s).rejectedFor reason =
      s.rejectedFor reason + signals.countP (·.settles (failsFor reason)) := by
  refine foldl_record (f := (·.rejectedFor reason)) ?_ signals s
  intro s signal
  cases signal with
  | rejected error => simp [record, rejectedFor_reject, Signal.settles, failsFor]
  | _ => rfl

theorem rejectedTotal_foldl_record (signals : List Signal) (s : Series) :
    (signals.foldl record s).rejectedTotal =
      s.rejectedTotal + signals.countP (·.settles (!·.isOk)) := by
  refine foldl_record (f := rejectedTotal) ?_ signals s
  intro s signal
  cases signal with
  | rejected error => exact rejectedTotal_reject s error.rejectReason
  | _ => rfl

theorem processed_foldl_record (signals : List Signal) (s : Series) :
    (signals.foldl record s).processed = s.processed + signals.countP (· == .processed) :=
  foldl_record (by intro s signal; cases signal <;> rfl) signals s

theorem handlerFailures_foldl_record (signals : List Signal) (s : Series) :
    (signals.foldl record s).handlerFailures =
      s.handlerFailures + signals.countP (· == .handlerFailed) :=
  foldl_record (by intro s signal; cases signal <;> rfl) signals s

/-- The gauge counts the workers that have started and takes off those that have ended. -/
theorem inFlight_foldl_record (signals : List Signal) (s : Series) :
    (signals.foldl record s).inFlight =
      s.inFlight + signals.countP (· == .workerStarted) -
        signals.countP (· == .workerFinished) := by
  induction signals generalizing s with
  | nil => simp
  | cons signal rest ih =>
    rw [List.foldl_cons, ih, List.countP_cons, List.countP_cons]
    cases signal <;> simp [record, reject] <;> omega

end Series

/-! ## Collectors -/

/-- A place where metrics of any origin are on record, each under its own name. -/
structure Collector where
  names : List String := []
deriving DecidableEq, Repr, Inhabited

namespace Collector

/-- Puts a name on record; refused if it is taken. -/
def register? (c : Collector) (name : String) : Option Collector :=
  if name ∈ c.names then none else some ⟨c.names ++ [name]⟩

/-- Puts names on record one after the other, up to the first that is taken. The names before it
stay on record. -/
def registerAll (c : Collector) : List String → Collector × Bool
  | [] => (c, true)
  | name :: rest =>
    match c.register? name with
    | some c => c.registerAll rest
    | none => (c, false)

/-- Puts the metrics of a bus on record; tells whether none of their names was taken. -/
def registerMetrics (c : Collector) : Collector × Bool :=
  c.registerAll (Metric.all.map Metric.name)

/-- What is said of a name that is taken. -/
def duplicateMessage : String := "Duplicate metrics collector registration attempted"

end Collector

end DomainEvents
