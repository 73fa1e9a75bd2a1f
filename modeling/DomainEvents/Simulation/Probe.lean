import DomainEvents.Bus.Config

/-!
# Probes

A probe is a handler that holds every call until it is released, and counts how many calls it holds
at once. Its calls may run on several threads, so that each update of a counter is a step of its own
(`Probe.advance?`): others may take their steps in between, or read the counters. Permits that are
released go to the calls that wait, in the order in which they began to, and those left over are for
calls to come.
-/

namespace DomainEvents.Simulation

/-- How far a call of a probe has come. -/
inductive ProbeStage where
  /-- it is counted as live, and knows how many were live with it -/
  | counted (seen : Nat)
  /-- it has raised the mark of the most that were live -/
  | marked
  /-- it is counted as started -/
  | begun
  /-- it waits for a permit -/
  | waiting
  /-- it has its permit -/
  | admitted
  /-- it is no longer counted as live -/
  | leaving
deriving DecidableEq, Repr

/-- Whether a call waits for a permit. -/
def ProbeStage.isWaiting : ProbeStage → Bool
  | .waiting => true
  | _ => false

/-- A call of a probe. -/
structure ProbeCall where
  /-- how many calls came in before it -/
  id : Nat
  stage : ProbeStage
deriving DecidableEq, Repr

/-- The counters of a probe, the permits at its gate, and its calls. -/
structure Probe where
  /-- calls that are counted as live -/
  live : Nat := 0
  /-- the mark of the most that were live at once -/
  maxLive : Nat := 0
  /-- calls that have started -/
  started : Nat := 0
  /-- calls that have finished -/
  finished : Nat := 0
  /-- permits that no call has taken -/
  permits : Nat := 0
  /-- calls that have come in -/
  arrived : Nat := 0
  /-- calls that have come in and not finished, in the order of their last own steps -/
  calls : List ProbeCall := []
deriving DecidableEq, Repr, Inhabited

namespace Probe

/-- The call of a number, while it has not finished. -/
def call? (p : Probe) (id : Nat) : Option ProbeCall := p.calls.find? (·.id == id)

/-- How many calls are at certain stages. -/
def count (p : Probe) (among : ProbeStage → Bool) : Nat := p.calls.countP (among ·.stage)

/-- Whether a call has its permit and has not gone on yet. -/
def isAdmitted (p : Probe) (id : Nat) : Bool := p.calls.contains ⟨id, .admitted⟩

/-- A call comes in: it counts itself as live, and remembers the count. -/
def enter (p : Probe) : Probe :=
  { p with
    live := p.live + 1
    arrived := p.arrived + 1
    calls := p.calls ++ [⟨p.arrived, .counted (p.live + 1)⟩] }

/-- A call takes its next step, unless it has to wait. It raises the mark, counts itself as started,
takes a permit or waits for one, then takes itself from the live ones, and finishes; its permit is
used up. -/
def advance? (p : Probe) (id : Nat) : Option Probe := do
  let call ← p.call? id
  let others := p.calls.erase call
  match call.stage with
  | .counted seen =>
    return { p with maxLive := max p.maxLive seen, calls := others ++ [⟨id, .marked⟩] }
  | .marked => return { p with started := p.started + 1, calls := others ++ [⟨id, .begun⟩] }
  | .begun =>
    if 0 < p.permits then
      return { p with permits := p.permits - 1, calls := others ++ [⟨id, .admitted⟩] }
    else return { p with calls := others ++ [⟨id, .waiting⟩] }
  | .waiting => none
  | .admitted => return { p with live := p.live - 1, calls := others ++ [⟨id, .leaving⟩] }
  | .leaving => return { p with finished := p.finished + 1, calls := others }

/-- Gives permits to the first calls that wait. -/
def serve : Nat → List ProbeCall → List ProbeCall
  | _, [] => []
  | 0, calls => calls
  | count + 1, call :: calls =>
    if call.stage.isWaiting then { call with stage := .admitted } :: serve count calls
    else call :: serve (count + 1) calls

theorem serve_of_waiting {call : ProbeCall} (waits : call.stage.isWaiting = true) (count : Nat)
    (calls : List ProbeCall) :
    serve (count + 1) (call :: calls) = { call with stage := .admitted } :: serve count calls := by
  rw [serve, if_pos waits]

theorem serve_of_not_waiting {call : ProbeCall} (goes : ¬ call.stage.isWaiting = true) (count : Nat)
    (calls : List ProbeCall) :
    serve (count + 1) (call :: calls) = call :: serve (count + 1) calls := by
  rw [serve, if_neg goes]

/-- How many calls wait for a permit. -/
def queued (p : Probe) : Nat := p.count ProbeStage.isWaiting

/-- Releases permits. There may be no more left over than can be counted; `none` is the panic of
somebody who releases more. -/
def release? (p : Probe) (count : Nat) : Option Probe :=
  let permits := p.permits + (count - p.queued)
  if permits ≤ Bus.PoolConfig.maxPermits then some { p with permits, calls := serve count p.calls }
  else none

/-! ## Calls that nothing interrupts -/

/-- A call takes some steps, or those until it has to wait. -/
def advance (p : Probe) (id : Nat) : Nat → Probe
  | 0 => p
  | steps + 1 =>
    match p.advance? id with
    | some p => p.advance id steps
    | none => p

/-- A call comes in and goes on until it has its permit or waits for it. -/
def call (p : Probe) : Probe := p.enter.advance p.arrived 3

/-- A call that has its permit goes on to its end. -/
def leave? (p : Probe) (id : Nat) : Option Probe :=
  if p.isAdmitted id then some (p.advance id 2) else none

end Probe

end DomainEvents.Simulation
