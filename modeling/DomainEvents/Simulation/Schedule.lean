import DomainEvents.Simulation.Task

/-!
# Schedules

Which task goes on when. Tasks that are ready run in the order in which they became ready, each
until it waits or ends. Time passes only when no task is ready; it goes to the earliest alarm, and
alarms for the same time go off in the order in which they were set.
-/

namespace DomainEvents.Simulation

/-- How many steps a run may take. It bounds runs that would never end. -/
def patience : Nat := 10000000

namespace World

/-- Runs a task until it waits or ends; then there is an answer. -/
def runTask : Nat → World → Owner → List Frame → Mode → World × Option Answer
  | 0, w, _, _, _ => (w, some .nothing)
  | steps + 1, w, owner, frames, mode =>
    match w.step frames mode with
    | (w, .go frames mode) => runTask steps w.wake owner frames mode
    | (w, .wait frames cue alarm) =>
      let w := w.wake
      ({ w with parked := w.parked ++ [⟨⟨owner, frames, .run⟩, cue, alarm⟩] }, none)
    | (w, .done answer) => (w.wake, some answer)

/-- Whether a call holds the bus while it lasts. -/
def holdsBus : Request → Bool
  | .handle _ _ _ => false
  | _ => true

/-- The end of a task that was made for a call. -/
def endTask (w : World) (task : Nat) (holds : Bool) (answer : Answer) : World :=
  let w := if holds then w.letGo.wake else w
  { w with endedTasks := w.endedTasks ++ [(task, answer)] }.wake

/-- Runs a ready task that is not the one of the user. -/
def runReady (w : World) (job : Job) : World :=
  match runTask patience w job.owner job.frames job.mode with
  | (w, none) => w
  | (w, some answer) =>
    match job.owner with
    | .background task holds => w.endTask task holds answer
    | _ => w

/-- Runs all tasks that are ready or become so, without letting time pass. -/
def settle : Nat → World → World
  | 0, w => w
  | steps + 1, w =>
    match w.ready with
    | [] => w
    | job :: ready => settle steps (runReady { w with ready } job)

/-- The earliest time for which an alarm is set. -/
def nextAlarm (w : World) : Option Nat :=
  (w.parked.filterMap fun p => p.alarm.map (·.1)).min?

/-- Lets time pass, and wakes the tasks whose alarms go off. -/
def passTo (w : World) (time : Nat) : World :=
  let rings (p : Parked) : Bool := p.alarm.any fun a => a.1 ≤ time
  let (rung, parked) := w.parked.partition rings
  let order := rung.mergeSort fun p q =>
    match p.alarm, q.alarm with
    | some a, some b => !Alarm.before b a
    | _, _ => true
  { w with now := time, ready := w.ready ++ order.map (·.job), parked }

/-- Runs tasks until the one of the user has its answer. Without a task that is ready or has an
alarm there will be none. -/
def awaitUser : Nat → World → World × Answer
  | 0, w => (w, .nothing)
  | steps + 1, w =>
    match w.ready with
    | job :: ready =>
      let w := { w with ready }
      if job.owner = .user then
        match runTask patience w job.owner job.frames job.mode with
        | (w, some answer) => (w, answer)
        | (w, none) => awaitUser steps w
      else awaitUser steps (w.runReady job)
    | [] =>
      match w.nextAlarm with
      | some time => awaitUser steps (w.passTo time)
      | none => (w, .nothing)

/-- The user does something that may take its time. -/
def await (w : World) (frames : List Frame) : World × Answer :=
  match runTask patience w .user frames .run with
  | (w, some answer) => (w, answer)
  | (w, none) => awaitUser patience w

end World

end DomainEvents.Simulation
