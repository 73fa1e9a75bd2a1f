import DomainEvents.Run
import DomainEvents.Simulation.Probe
import Mathlib.Algebra.Ring.Nat
import Mathlib.Data.List.Nodup

/-!
# What a probe counts

Calls come in to a probe and take their steps, each of which updates one counter or is about one
permit, and permits are released. `Probe.step` is all that can happen to a probe, in any order of
the steps of its calls, and `ProbeHistory` is what has happened, with the probe as it was after each
step. So a history tells what the counters should be: how many calls have come in and finished, how
many permits were released, and which counts of live calls somebody could have read.

A call has not told all counters of itself while it is between two of its steps, and so the counters
need not agree then. `Probe.Kept` says what a run keeps instead: each counter has counted the calls
of certain stages. The stages in which a call has told one counter and not yet the next one make the
difference between the counters, which is none if no call is at such a stage (`Probe.Settled`).
`Probe.Measures` has both.
-/

namespace DomainEvents.Simulation

/-! ## Histories of probes -/

/-- Something that happens to a probe. -/
inductive ProbeAction where
  /-- a call comes in -/
  | enter
  /-- a call takes its next step -/
  | advance (id : Nat)
  /-- permits are released -/
  | release (count : Nat)
deriving DecidableEq, Repr

/-- How many permits an action releases. -/
def ProbeAction.permits : ProbeAction → Nat
  | .release count => count
  | _ => 0

/-- Something that has happened to a probe, and the probe as it was then. -/
structure ProbeEntry where
  action : ProbeAction
  after : Probe
deriving DecidableEq, Repr

/-- The call that has finished, if it was the last step of one. -/
def ProbeEntry.left? (e : ProbeEntry) : Option Nat :=
  match e.action with
  | .advance id => if (e.after.call? id).isSome then none else some id
  | _ => none

/-- What has happened to a probe, the first to come first. -/
abbrev ProbeHistory := List ProbeEntry

namespace ProbeHistory

/-- How many calls have come in. -/
def entered (h : ProbeHistory) : Nat := h.countP (·.action = .enter)

/-- The calls that have finished. -/
def left (h : ProbeHistory) : List Nat := h.filterMap ProbeEntry.left?

/-- How many permits were released. -/
def released (h : ProbeHistory) : Nat := (h.map (·.action.permits)).sum

/-- The values that the counter of live calls has had, from the beginning on. -/
def lives (h : ProbeHistory) : List Nat := 0 :: h.map (·.after.live)

variable (h : ProbeHistory) (e : ProbeEntry)

theorem entered_concat : entered (h ++ [e]) = h.entered + if e.action = .enter then 1 else 0 := by
  simp [entered]

theorem left_concat : left (h ++ [e]) = h.left ++ e.left?.toList := by
  rw [left, List.filterMap_append, List.filterMap_cons]
  cases e.left? <;> rfl

theorem released_concat : released (h ++ [e]) = h.released + e.action.permits := by
  simp [released]

theorem lives_concat : lives (h ++ [e]) = h.lives ++ [e.after.live] := by
  simp [lives]

end ProbeHistory

/-! ## Stages -/

namespace ProbeStage

/-- The stages in which a call is live and not counted as started yet. -/
def isNew : ProbeStage → Bool
  | .counted _ | .marked => true
  | _ => false

/-- The stages in which a call is counted as started. -/
def hasStarted (stage : ProbeStage) : Bool := !stage.isNew

/-- The stage in which a call is no longer live and not counted as finished yet. -/
def isLeaving : ProbeStage → Bool
  | .leaving => true
  | _ => false

/-- The stages in which a call is counted as live. -/
def isLive (stage : ProbeStage) : Bool := !stage.isLeaving

/-- The stages in which a call has a permit that is not used up. -/
def hasPermit : ProbeStage → Bool
  | .admitted | .leaving => true
  | _ => false

/-- The stages in which a call has told all counters that it has come in, and none that it goes. -/
def isHeld (stage : ProbeStage) : Bool := stage.hasStarted && stage.isLive

theorem of_isHeld {stage : ProbeStage} (held : stage.isHeld = true) :
    stage.isNew = false ∧ stage.isLeaving = false := by
  simpa [isHeld, hasStarted, isLive] using held

theorem eq_waiting {stage : ProbeStage} (waits : stage.isWaiting = true) : stage = .waiting := by
  cases stage with
  | waiting => rfl
  | _ => cases waits

end ProbeStage

namespace Probe

variable {log : ProbeHistory} {p q : Probe} {action : ProbeAction}

/-- No call is between two of its updates of counters. -/
def Settled (p : Probe) : Prop := ∀ c ∈ p.calls, c.stage.isHeld = true

/-- No call has yet to raise the mark. -/
def Marked (p : Probe) : Prop := ∀ id seen, ⟨id, .counted seen⟩ ∉ p.calls

/-- What a call that has not raised the mark yet would raise it to is as high as `n`, or the mark
is. -/
def Reaches (p : Probe) (n : Nat) : Prop :=
  n ≤ p.maxLive ∨ ∃ id seen, ⟨id, .counted seen⟩ ∈ p.calls ∧ n ≤ seen

/-! ## Steps -/

/-- The probe after something has happened to it. -/
def step (p : Probe) : ProbeAction → Option Probe
  | .enter => some p.enter
  | .advance id => p.advance? id
  | .release count => p.release? count

/-- A step, told along with its action and with what it leads to. -/
def tick (p : Probe) (action : ProbeAction) : Option (Probe × ProbeHistory) :=
  (p.step action).map fun after => (after, [⟨action, after⟩])

theorem tick_eq_some {told : ProbeHistory} :
    p.tick action = some (q, told) ↔ p.step action = some q ∧ told = [⟨action, q⟩] := by
  rw [tick, Option.map_eq_some_iff]
  constructor
  · rintro ⟨after, goes, same⟩
    obtain ⟨rfl, rfl⟩ := Prod.mk.inj same
    exact ⟨goes, rfl⟩
  · rintro ⟨goes, rfl⟩
    exact ⟨q, goes, rfl⟩

/-- The calls after one of them has gone on to another stage. -/
def moved (p : Probe) (c : ProbeCall) (stage : ProbeStage) : List ProbeCall :=
  p.calls.erase c ++ [⟨c.id, stage⟩]

/-- The steps of a probe, each with what it takes and what it does. -/
inductive Rule (p : Probe) : ProbeAction → Probe → Prop where
  /-- a call comes in, and counts as live -/
  | enter : Rule p .enter p.enter
  /-- it raises the mark -/
  | mark {id seen : Nat} (there : ⟨id, .counted seen⟩ ∈ p.calls) :
      Rule p (.advance id) { p with
        maxLive := max p.maxLive seen, calls := p.moved ⟨id, .counted seen⟩ .marked }
  /-- it counts as started -/
  | start {id : Nat} (there : ⟨id, .marked⟩ ∈ p.calls) :
      Rule p (.advance id) { p with
        started := p.started + 1, calls := p.moved ⟨id, .marked⟩ .begun }
  /-- there is a permit for it -/
  | grant {id : Nat} (there : ⟨id, .begun⟩ ∈ p.calls) (spare : 0 < p.permits) :
      Rule p (.advance id) { p with
        permits := p.permits - 1, calls := p.moved ⟨id, .begun⟩ .admitted }
  /-- it has to wait -/
  | wait {id : Nat} (there : ⟨id, .begun⟩ ∈ p.calls) (none : p.permits = 0) :
      Rule p (.advance id) { p with calls := p.moved ⟨id, .begun⟩ .waiting }
  /-- it has its permit, and is no longer live -/
  | leave {id : Nat} (there : ⟨id, .admitted⟩ ∈ p.calls) :
      Rule p (.advance id) { p with
        live := p.live - 1, calls := p.moved ⟨id, .admitted⟩ .leaving }
  /-- it finishes -/
  | finish {id : Nat} (there : ⟨id, .leaving⟩ ∈ p.calls) :
      Rule p (.advance id) { p with
        finished := p.finished + 1, calls := p.calls.erase ⟨id, .leaving⟩ }
  /-- permits go to those that wait, and what is left over stays -/
  | release {count : Nat} (few : p.permits + (count - p.queued) ≤ Bus.PoolConfig.maxPermits) :
      Rule p (.release count) { p with
        permits := p.permits + (count - p.queued), calls := serve count p.calls }

theorem of_call? {id : Nat} {c : ProbeCall} (found : p.call? id = some c) :
    c ∈ p.calls ∧ c.id = id :=
  ⟨List.mem_of_find?_eq_some found, by simpa using List.find?_some found⟩

/-- **A probe does nothing but follow its rules.** -/
theorem Rule.of_step (goes : p.step action = some q) : Rule p action q := by
  cases action with
  | enter =>
    obtain rfl := Option.some.inj goes
    exact .enter
  | release count =>
    obtain ⟨few, rfl⟩ := by simpa [step, release?] using goes
    exact .release few
  | advance id =>
    obtain ⟨⟨_, stage⟩, found, goes⟩ := Option.bind_eq_some_iff.mp goes
    obtain ⟨there, rfl⟩ := of_call? found
    cases stage with
    | waiting => cases goes
    | begun =>
      dsimp only at goes
      split at goes
      case isTrue spare =>
        obtain rfl := Option.some.inj goes
        exact .grant there spare
      case isFalse none =>
        obtain rfl := Option.some.inj goes
        exact .wait there (Nat.eq_zero_of_not_pos none)
    | counted | marked | admitted | leaving =>
      obtain rfl := Option.some.inj goes
      constructor
      exact there

/-- Only a call that waits cannot take a step. -/
theorem stage_of_advance?_eq_none {id : Nat} {c : ProbeCall} (found : p.call? id = some c)
    (stays : p.advance? id = none) : c.stage = .waiting := by
  obtain ⟨_, stage⟩ := c
  rw [advance?, found] at stays
  cases stage with
  | waiting => rfl
  | begun =>
    simp only [bind, Option.bind_some] at stays
    split at stays <;> cases stays
  | _ => cases stays

/-- **Permits can be released as long as no more are left over than can be counted**; to release
more is a panic. -/
theorem release?_eq_none {count : Nat} :
    p.release? count = none ↔
      Bus.PoolConfig.maxPermits < p.permits + (count - p.queued) := by
  simp [release?]

/-! ### Calls that nothing interrupts -/

/-- A call that goes on for a while does nothing but take its steps. -/
theorem run_advance (p : Probe) (id steps : Nat) : ∃ log, Run tick p log (p.advance id steps) := by
  induction steps generalizing p with
  | zero => exact ⟨[], .refl⟩
  | succ steps ih =>
    rw [advance]
    split
    case h_1 q goes =>
      obtain ⟨log, run⟩ := ih q
      have takes : p.step (.advance id) = some q := goes
      exact ⟨_, (Run.single (tick_eq_some.mpr ⟨takes, rfl⟩)).trans run⟩
    case h_2 => exact ⟨[], .refl⟩

/-- A call that comes in and goes on as far as it can is some steps one after the other. -/
theorem run_call (p : Probe) : ∃ log, Run tick p log p.call := by
  obtain ⟨log, run⟩ := run_advance p.enter p.arrived 3
  have enters : p.step .enter = some p.enter := rfl
  exact ⟨_, (Run.single (tick_eq_some.mpr ⟨enters, rfl⟩)).trans run⟩

/-- So is a call that goes on to its end. -/
theorem run_leave? {id : Nat} (leaves : p.leave? id = some q) : ∃ log, Run tick p log q := by
  obtain ⟨-, rfl⟩ := by simpa [leave?] using leaves
  exact run_advance p id 2

/-! ## Counting calls -/

section

variable {c : ProbeCall}

/-- A call that goes on counts where it is, and no longer where it was. -/
theorem countP_moved (there : c ∈ p.calls) (stage : ProbeStage) (among : ProbeStage → Bool) :
    (p.moved c stage).countP (among ·.stage) + (among c.stage).toNat =
      p.count among + (among stage).toNat := by
  have before := (List.perm_cons_erase there).countP_eq (among ·.stage)
  rw [List.countP_cons] at before
  rw [moved, List.countP_append, List.countP_singleton, count, before]
  cases among c.stage <;> cases among stage <;> simp

theorem countP_moved_same (there : c ∈ p.calls) {stage : ProbeStage} {among : ProbeStage → Bool}
    (same : among c.stage = among stage) :
    (p.moved c stage).countP (among ·.stage) = p.count among := by
  have counts := countP_moved there stage among
  rw [same] at counts
  exact Nat.add_right_cancel counts

/-- A call that has finished counts nowhere. -/
theorem countP_erase (there : c ∈ p.calls) (among : ProbeStage → Bool) :
    (p.calls.erase c).countP (among ·.stage) + (among c.stage).toNat = p.count among := by
  have before := (List.perm_cons_erase there).countP_eq (among ·.stage)
  rw [List.countP_cons] at before
  rw [count, before]
  cases among c.stage <;> simp

end

/-- Who has its permit and who waits for one is alike in most respects. -/
theorem countP_serve {among : ProbeStage → Bool} (alike : among .admitted = among .waiting)
    (count : Nat) (calls : List ProbeCall) :
    (serve count calls).countP (among ·.stage) = calls.countP (among ·.stage) := by
  induction count, calls using serve.induct with
  | case1 | case2 => simp [serve]
  | case3 count call calls waits ih =>
    rw [serve_of_waiting waits, List.countP_cons, List.countP_cons, ih,
      ProbeStage.eq_waiting waits, alike]
  | case4 count call calls goes ih =>
    rw [serve_of_not_waiting goes, List.countP_cons, List.countP_cons, ih]

/-- Calls that wait get permits as long as there are any. -/
theorem countP_serve_hasPermit (count : Nat) (calls : List ProbeCall) :
    (serve count calls).countP (ProbeStage.hasPermit ·.stage) =
      calls.countP (ProbeStage.hasPermit ·.stage) +
        min count (calls.countP (ProbeStage.isWaiting ·.stage)) := by
  induction count, calls using serve.induct with
  | case1 | case2 => simp [serve]
  | case3 count call calls waits ih =>
    have none : call.stage.hasPermit = false := by rw [ProbeStage.eq_waiting waits]; rfl
    have one : ProbeStage.admitted.hasPermit = true := rfl
    simp only [serve_of_waiting waits, List.countP_cons, ih, waits, none, one, Bool.false_eq_true,
      if_true, if_false]
    omega
  | case4 count call calls goes ih =>
    simp only [serve_of_not_waiting goes, List.countP_cons, ih, goes, Bool.false_eq_true, if_false]
    omega

/-- And they no longer wait. -/
theorem countP_serve_isWaiting (count : Nat) (calls : List ProbeCall) :
    (serve count calls).countP (ProbeStage.isWaiting ·.stage) =
      calls.countP (ProbeStage.isWaiting ·.stage) - count := by
  have admitted : ProbeStage.admitted.isWaiting = false := rfl
  induction count, calls using serve.induct with
  | case1 | case2 => simp [serve]
  | case3 count call calls waits ih => simp [serve_of_waiting waits, waits, ih, admitted]
  | case4 count call calls goes ih => simp [serve_of_not_waiting goes, goes, ih]

@[simp]
theorem map_id_serve (count : Nat) (calls : List ProbeCall) :
    (serve count calls).map (·.id) = calls.map (·.id) := by
  induction count, calls using serve.induct with
  | case1 | case2 => simp [serve]
  | case3 count call calls waits ih => simp [serve_of_waiting waits, ih]
  | case4 count call calls goes ih => simp [serve_of_not_waiting goes, ih]

/-- A call that has not raised the mark yet is left alone. -/
theorem mem_serve {id seen count : Nat} {calls : List ProbeCall} :
    ⟨id, .counted seen⟩ ∈ serve count calls ↔ ⟨id, .counted seen⟩ ∈ calls := by
  induction count, calls using serve.induct with
  | case1 | case2 => simp [serve]
  | case3 count call calls waits ih =>
    have other : ProbeCall.mk id (.counted seen) ≠ call := by
      rintro rfl
      cases waits
    simp [serve_of_waiting waits, ih, other]
  | case4 count call calls goes ih => simp [serve_of_not_waiting goes, ih]

/-! ## The calls that are on their way -/

/-- The calls that have come in and not finished. -/
def ids (p : Probe) : List Nat := p.calls.map (·.id)

theorem isSome_call? {id : Nat} : (p.call? id).isSome = true ↔ id ∈ p.ids := by
  simp [call?, ids]

theorem ids_moved {c : ProbeCall} (there : c ∈ p.calls) (stage : ProbeStage) :
    ((p.moved c stage).map (·.id)).Perm p.ids := by
  have before := (List.perm_cons_erase there).map (·.id)
  rw [moved, List.map_append]
  exact List.perm_append_comm.trans before.symm

theorem length_moved {c : ProbeCall} (there : c ∈ p.calls) (stage : ProbeStage) :
    (p.moved c stage).length = p.calls.length := by
  simpa [ids] using (ids_moved there stage).length_eq

/-- The calls on their way are those that were, with the one that comes in and without the one that
finishes. -/
theorem Rule.ids_perm (rule : Rule p action q) (distinct : p.ids.Nodup) :
    ((ProbeEntry.mk action q).left?.toList ++ q.ids).Perm
      (p.ids ++ if action = .enter then [p.arrived] else []) := by
  -- a call that goes on is still on its way
  have goes {c : ProbeCall} {stage : ProbeStage} {q : Probe} (there : c ∈ p.calls)
      (same : q.calls = p.moved c stage) :
      ((ProbeEntry.mk (.advance c.id) q).left?.toList ++ q.ids).Perm p.ids := by
    have perm : q.ids.Perm p.ids := by
      rw [ids, same]
      exact ids_moved there stage
    have on : (q.call? c.id).isSome = true :=
      isSome_call?.mpr (perm.mem_iff.mpr (List.mem_map_of_mem there))
    simpa [ProbeEntry.left?, on] using perm
  cases rule with
  | enter => simp [ProbeEntry.left?, ids, Probe.enter]
  | mark there | start there | grant there _ | wait there _ | leave there =>
    simpa using goes there rfl
  | @finish id there =>
    have before := (List.perm_cons_erase there).map (·.id)
    have gone : id ∉ (p.calls.erase ⟨id, .leaving⟩).map (·.id) :=
      (List.nodup_cons.mp (before.nodup_iff.mp distinct)).1
    have none := mt isSome_call?.mp
      (show id ∉ ids { p with
        finished := p.finished + 1, calls := p.calls.erase ⟨id, .leaving⟩ } from gone)
    simpa [ProbeEntry.left?, none, ids] using before.symm
  | release => simp [ProbeEntry.left?, ids]

/-! ## The mark -/

/-- A call that has not raised the mark has just come in, or was there before. -/
theorem Rule.mem_counted {id seen : Nat} (rule : Rule p action q)
    (there : ⟨id, .counted seen⟩ ∈ q.calls) :
    ⟨id, .counted seen⟩ ∈ p.calls ∨ seen = q.live := by
  cases rule with
  | enter =>
    rcases List.mem_append.mp there with old | new
    · exact .inl old
    · cases List.mem_singleton.mp new
      exact .inr rfl
  | mark | start | grant | wait | leave =>
    rcases List.mem_append.mp there with old | new
    · exact .inl (List.mem_of_mem_erase old)
    · cases List.mem_singleton.mp new
  | finish => exact .inl (List.mem_of_mem_erase there)
  | release => exact .inl (mem_serve.mp there)

/-- It raises the mark with its next step, and stays as it is until then. -/
theorem Rule.counted {id seen : Nat} (rule : Rule p action q)
    (there : ⟨id, .counted seen⟩ ∈ p.calls) :
    ⟨id, .counted seen⟩ ∈ q.calls ∨ seen ≤ q.maxLive := by
  cases rule with
  | enter => exact .inl (List.mem_append_left _ there)
  | @mark other high =>
    by_cases same : (⟨id, .counted seen⟩ : ProbeCall) = ⟨other, .counted high⟩
    · cases same
      exact .inr (Nat.le_max_right ..)
    · exact .inl (List.mem_append_left _ ((List.mem_erase_of_ne same).mpr there))
  | start | grant | wait | leave =>
    exact .inl (List.mem_append_left _ ((List.mem_erase_of_ne (by simp)).mpr there))
  | finish => exact .inl ((List.mem_erase_of_ne (by simp)).mpr there)
  | release => exact .inl (mem_serve.mpr there)

/-- The mark is raised, or stays. -/
theorem Rule.maxLive_le (rule : Rule p action q) : p.maxLive ≤ q.maxLive := by
  cases rule with
  | mark => exact Nat.le_max_left ..
  | _ => exact Nat.le_refl _

/-- What is reached stays reached. -/
theorem Rule.reaches {n : Nat} (rule : Rule p action q) (reaches : p.Reaches n) : q.Reaches n := by
  rcases reaches with le | ⟨id, seen, there, le⟩
  · exact .inl (Nat.le_trans le rule.maxLive_le)
  · rcases rule.counted there with stays | marked
    · exact .inr ⟨id, seen, stays, le⟩
    · exact .inl (Nat.le_trans le marked)

/-- A call that comes in raises the count of live calls and has yet to tell the mark; no other step
raises it. -/
theorem Rule.live (rule : Rule p action q) :
    q.live ≤ p.live ∨ ∃ id, ⟨id, .counted q.live⟩ ∈ q.calls := by
  cases rule with
  | enter => exact .inr ⟨p.arrived, List.mem_append_right _ List.mem_cons_self⟩
  | leave => exact .inl (Nat.sub_le ..)
  | _ => exact .inl (Nat.le_refl _)

/-! ## What a run keeps -/

/-- What is kept of a probe by its steps. -/
structure Kept (log : ProbeHistory) (p : Probe) : Prop where
  arrived : p.arrived = log.entered
  /-- each call that has come in is on its way or has finished -/
  calls : (p.ids ++ log.left).Perm (List.range p.arrived)
  /-- each counter has counted the calls of certain stages -/
  live : p.live = p.count ProbeStage.isLive
  started : p.started = p.count ProbeStage.hasStarted + p.finished
  finished : p.calls.length + p.finished = p.arrived
  /-- each permit is at one place -/
  permits : log.released = p.permits + p.count ProbeStage.hasPermit + p.finished
  /-- no permit is left over while a call waits -/
  spare : 0 < p.permits → p.count ProbeStage.isWaiting = 0
  /-- the mark, and what it will be raised to, has been the count of live calls -/
  mark_mem : p.maxLive ∈ log.lives
  seen_mem : ∀ id seen, ⟨id, .counted seen⟩ ∈ p.calls → seen ∈ log.lives
  /-- and no count was higher -/
  reaches : ∀ n ∈ log.lives, p.Reaches n
  live_mem : p.live ∈ log.lives

namespace Kept

theorem start : Kept [] {} where
  arrived := rfl
  calls := .nil
  live := rfl
  started := rfl
  finished := rfl
  permits := rfl
  spare := nofun
  mark_mem := List.mem_singleton_self 0
  seen_mem := nofun
  reaches _ there := .inl (Nat.le_of_eq (List.mem_singleton.mp there))
  live_mem := List.mem_singleton_self 0

theorem distinct (kept : Kept log p) : p.ids.Nodup :=
  (kept.calls.nodup_iff.mpr List.nodup_range).sublist (List.sublist_append_left ..)

/-- As many calls are counted as finished as have finished. -/
theorem finished_eq (kept : Kept log p) : p.finished = log.left.length := by
  have all := kept.calls.length_eq
  rw [List.length_append, List.length_range, ids, List.length_map, ← kept.finished] at all
  exact (Nat.add_left_cancel all).symm

/-- Each call comes in, is on its way, and finishes. -/
theorem calls_of_rule (kept : Kept log p) (rule : Rule p action q) :
    (q.ids ++ ProbeHistory.left (log ++ [⟨action, q⟩])).Perm (List.range q.arrived) := by
  have next : List.range p.arrived ++ (if action = .enter then [p.arrived] else []) =
      List.range q.arrived := by
    cases rule with
    | enter => exact List.range_succ.symm
    | _ => exact List.append_nil _
  rw [ProbeHistory.left_concat, ← next]
  calc
    (q.ids ++ (log.left ++ (ProbeEntry.mk action q).left?.toList)).Perm
        ((ProbeEntry.mk action q).left?.toList ++ q.ids ++ log.left) := by
      rw [← List.append_assoc, List.append_assoc (Option.toList _)]
      exact List.perm_append_comm
    List.Perm _ (p.ids ++ (if action = .enter then [p.arrived] else []) ++ log.left) :=
      (rule.ids_perm kept.distinct).append_right _
    List.Perm _ (p.ids ++ log.left ++ if action = .enter then [p.arrived] else []) := by
      rw [List.append_assoc, List.append_assoc]
      exact List.perm_append_comm.append_left _
    List.Perm _ (List.range p.arrived ++ if action = .enter then [p.arrived] else []) :=
      kept.calls.append_right _

/-- A call is live from its first step on, until it leaves. -/
theorem live_of_rule (kept : Kept log p) (rule : Rule p action q) :
    q.live = q.count ProbeStage.isLive := by
  have live := kept.live
  cases rule with
  | enter => simp [enter, count, live, ProbeStage.isLive, ProbeStage.isLeaving]
  | mark there | start there | grant there _ | wait there _ =>
    exact live.trans (countP_moved_same there (by rfl)).symm
  | leave there =>
    have out := countP_moved there .leaving ProbeStage.isLive
    exact Nat.sub_eq_of_eq_add (live.trans out.symm)
  | finish there => exact live.trans (countP_erase there ProbeStage.isLive).symm
  | release => exact live.trans (countP_serve rfl ..).symm

/-- A call is started from its third step on. -/
theorem started_of_rule (kept : Kept log p) (rule : Rule p action q) :
    q.started = q.count ProbeStage.hasStarted + q.finished := by
  have started := kept.started
  cases rule with
  | enter => simpa [enter, count, ProbeStage.hasStarted, ProbeStage.isNew] using started
  | mark there | grant there _ | wait there _ | leave there =>
    exact started.trans (congrArg (· + p.finished) (countP_moved_same there (by rfl)).symm)
  | @start id there =>
    have more : (p.moved ⟨id, .marked⟩ .begun).countP (ProbeStage.hasStarted ·.stage) =
        p.count ProbeStage.hasStarted + 1 := countP_moved there .begun ProbeStage.hasStarted
    rw [count, more, started]
    exact Nat.add_right_comm ..
  | @finish id there =>
    have out : (p.calls.erase ⟨id, .leaving⟩).countP (ProbeStage.hasStarted ·.stage) + 1 =
        p.count ProbeStage.hasStarted := countP_erase there ProbeStage.hasStarted
    rw [count, started, ← out]
    exact Nat.add_right_comm ..
  | release => exact started.trans (congrArg (· + p.finished) (countP_serve rfl ..).symm)

/-- A call that is no longer on its way is counted as finished. -/
theorem finished_of_rule (kept : Kept log p) (rule : Rule p action q) :
    q.calls.length + q.finished = q.arrived := by
  have finished := kept.finished
  cases rule with
  | enter =>
    rw [enter, List.length_append, List.length_singleton, ← finished]
    exact Nat.add_right_comm ..
  | mark there | start there | grant there _ | wait there _ | leave there =>
    exact (congrArg (· + p.finished) (length_moved there _)).trans finished
  | finish there =>
    have pos := List.length_pos_of_mem there
    rw [List.length_erase_of_mem there]
    show p.calls.length - 1 + (p.finished + 1) = p.arrived
    omega
  | @release n =>
    have same := congrArg List.length (map_id_serve n p.calls)
    rw [List.length_map, List.length_map] at same
    exact (congrArg (· + p.finished) same).trans finished

/-- Permits are released, given to calls, and used up by those that finish. -/
theorem permits_of_rule (kept : Kept log p) (rule : Rule p action q) :
    ProbeHistory.released (log ++ [⟨action, q⟩]) =
      q.permits + q.count ProbeStage.hasPermit + q.finished := by
  have permits := kept.permits
  rw [ProbeHistory.released_concat]
  cases rule with
  | enter => simpa [ProbeAction.permits, enter, count, ProbeStage.hasPermit] using permits
  | mark there | start there | wait there _ | leave there =>
    exact permits.trans <|
      congrArg (p.permits + · + p.finished) (countP_moved_same there (by rfl)).symm
  | @grant id there spare =>
    have more : (p.moved ⟨id, .begun⟩ .admitted).countP (ProbeStage.hasPermit ·.stage) =
        p.count ProbeStage.hasPermit + 1 := countP_moved there .admitted ProbeStage.hasPermit
    rw [count, more]
    simp only [ProbeAction.permits]
    omega
  | @finish id there =>
    have out : (p.calls.erase ⟨id, .leaving⟩).countP (ProbeStage.hasPermit ·.stage) + 1 =
        p.count ProbeStage.hasPermit := countP_erase there ProbeStage.hasPermit
    rw [count]
    simp only [ProbeAction.permits]
    omega
  | @release n few =>
    rw [count] at permits ⊢
    rw [countP_serve_hasPermit]
    simp only [ProbeAction.permits, queued, count]
    omega

/-- A call waits only if no permit is left over. -/
theorem spare_of_rule (kept : Kept log p) (rule : Rule p action q) (left : 0 < q.permits) :
    q.count ProbeStage.isWaiting = 0 := by
  cases rule with
  | enter => simpa [enter, count, ProbeStage.isWaiting] using kept.spare left
  | mark there | start there | leave there =>
    exact (countP_moved_same there (by rfl)).trans (kept.spare left)
  | grant there spare => exact (countP_moved_same there (by rfl)).trans (kept.spare spare)
  | wait _ none => exact absurd none (Nat.ne_of_gt left)
  | finish there => exact (countP_erase there ProbeStage.isWaiting).trans (kept.spare left)
  | @release n few =>
    -- what is left over was there before, or comes from more permits than there are calls waiting
    have spare := kept.spare
    rw [count] at spare ⊢
    rw [countP_serve_isWaiting]
    simp only [queued, count] at left
    omega

theorem seen_of_rule (kept : Kept log p) (rule : Rule p action q) {id seen : Nat}
    (there : ⟨id, .counted seen⟩ ∈ q.calls) :
    seen ∈ ProbeHistory.lives (log ++ [⟨action, q⟩]) := by
  rw [ProbeHistory.lives_concat]
  rcases rule.mem_counted there with old | rfl
  · exact List.mem_append_left _ (kept.seen_mem id seen old)
  · exact List.mem_append_right _ List.mem_cons_self

/-- The mark is raised to what a call has seen. -/
theorem mark_of_rule (kept : Kept log p) (rule : Rule p action q) :
    q.maxLive ∈ ProbeHistory.lives (log ++ [⟨action, q⟩]) := by
  rw [ProbeHistory.lives_concat]
  apply List.mem_append_left
  cases rule with
  | @mark id seen there =>
    rcases Nat.le_total p.maxLive seen with le | le
    · rw [Nat.max_eq_right le]
      exact kept.seen_mem id seen there
    · rw [Nat.max_eq_left le]
      exact kept.mark_mem
  | _ => exact kept.mark_mem

/-- No count of live calls is out of reach. -/
theorem reaches_of_rule (kept : Kept log p) (rule : Rule p action q) {n : Nat}
    (there : n ∈ ProbeHistory.lives (log ++ [⟨action, q⟩])) : q.Reaches n := by
  rw [ProbeHistory.lives_concat] at there
  rcases List.mem_append.mp there with old | new
  · exact rule.reaches (kept.reaches n old)
  · obtain rfl := List.mem_singleton.mp new
    rcases rule.live with le | ⟨id, counted⟩
    · rcases rule.reaches (kept.reaches _ kept.live_mem) with high | ⟨id, seen, counted, high⟩
      · exact .inl (Nat.le_trans le high)
      · exact .inr ⟨id, seen, counted, Nat.le_trans le high⟩
    · exact .inr ⟨id, q.live, counted, Nat.le_refl _⟩

theorem of_rule (kept : Kept log p) (rule : Rule p action q) :
    Kept (log ++ [⟨action, q⟩]) q where
  arrived := by
    rw [ProbeHistory.entered_concat, ← kept.arrived]
    cases rule <;> rfl
  calls := kept.calls_of_rule rule
  live := kept.live_of_rule rule
  started := kept.started_of_rule rule
  finished := kept.finished_of_rule rule
  permits := kept.permits_of_rule rule
  spare := kept.spare_of_rule rule
  mark_mem := kept.mark_of_rule rule
  seen_mem _ _ there := kept.seen_of_rule rule there
  reaches _ there := kept.reaches_of_rule rule there
  live_mem := by
    rw [ProbeHistory.lives_concat]
    exact List.mem_append_right _ List.mem_cons_self

theorem of_run (run : Run tick {} log p) : Kept log p := by
  refine run.invariant .start ?_
  intro log p action q told kept goes
  obtain ⟨step, rfl⟩ := tick_eq_some.mp goes
  exact kept.of_rule (.of_step step)

end Kept

/-! ## What the counters say -/

/-- What the counters of a probe say of what has happened to it. -/
structure Measures (p : Probe) (log : ProbeHistory) : Prop where
  /-- each call that has come in is on its way or has finished, once -/
  calls : (p.ids ++ log.left).Perm (List.range log.entered)
  finished : p.finished = log.left.length
  /-- the counters differ by the calls that have told one of them and not the next -/
  balance : p.live + p.finished + p.count ProbeStage.isLeaving =
    p.started + p.count ProbeStage.isNew
  /-- so they agree when no call is between two of its updates -/
  settled : p.Settled → p.live + p.finished = p.started
  /-- a call that takes itself from the live ones is among them -/
  falls : ∀ {id : Nat} {q : Probe}, p.advance? id = some q → q.live = p.live ∨ q.live + 1 = p.live
  /-- each permit is left over, with a call that has not finished, or used up by one that has -/
  permits : log.released = p.permits + p.count ProbeStage.hasPermit + p.finished
  /-- no call finishes without a permit -/
  finished_le : p.finished ≤ log.released
  /-- when no call can go on, none is between two updates, and as many have finished as there were
  both calls and permits for -/
  quiet : (∀ id, p.advance? id = none) → p.Settled ∧ p.finished = min p.started log.released
  /-- the mark was the count of live calls at some time -/
  mark_mem : p.maxLive ∈ log.lives
  /-- and no count was higher, unless a call has yet to raise the mark -/
  mark : p.Marked → log.lives.max? = some p.maxLive

/-- A call counts at a stage of two kinds, or at one of the others. -/
theorem count_add_count_not (p : Probe) (among : ProbeStage → Bool) :
    p.count among + p.count (fun stage => !among stage) = p.calls.length := by
  have parts := List.length_eq_countP_add_countP (fun c : ProbeCall => among c.stage) (l := p.calls)
  simpa [count] using parts.symm

theorem count_eq_zero {among : ProbeStage → Bool} (none : ∀ c ∈ p.calls, among c.stage = false) :
    p.count among = 0 :=
  List.countP_eq_zero.mpr fun c there => Bool.eq_false_iff.mp (none c there)

/-- Where no call is between two updates, none has yet to raise the mark. -/
theorem Settled.marked (settled : p.Settled) : p.Marked := fun _ _ there => by
  cases settled _ there

/-- When no call can go on, all of them wait. -/
theorem waiting_of_quiet (distinct : p.ids.Nodup) (quiet : ∀ id, p.advance? id = none)
    {c : ProbeCall} (there : c ∈ p.calls) : c.stage = .waiting := by
  obtain ⟨d, found⟩ := Option.isSome_iff_exists.mp
    (isSome_call?.mpr (List.mem_map_of_mem there : c.id ∈ p.ids))
  obtain ⟨mem, same⟩ := of_call? found
  obtain rfl : d = c := List.inj_on_of_nodup_map distinct mem there same
  exact stage_of_advance?_eq_none found (quiet _)

namespace Kept

/-- The counters differ by the calls that have told one of them and not the next. -/
theorem balance (kept : Kept log p) :
    p.live + p.finished + p.count ProbeStage.isLeaving = p.started + p.count ProbeStage.isNew := by
  have live := kept.live
  have started := kept.started
  have leaving : p.count ProbeStage.isLeaving + p.count ProbeStage.isLive = p.calls.length :=
    p.count_add_count_not ProbeStage.isLeaving
  have new : p.count ProbeStage.isNew + p.count ProbeStage.hasStarted = p.calls.length :=
    p.count_add_count_not ProbeStage.isNew
  omega

/-- They agree when no call is between two of its updates. -/
theorem settled (kept : Kept log p) (settled : p.Settled) : p.live + p.finished = p.started := by
  have balance := kept.balance
  have old : p.count ProbeStage.isNew = 0 :=
    count_eq_zero fun c there => (ProbeStage.of_isHeld (settled c there)).1
  have stays : p.count ProbeStage.isLeaving = 0 :=
    count_eq_zero fun c there => (ProbeStage.of_isHeld (settled c there)).2
  omega

/-- A call that takes itself from the live ones is among them. -/
theorem falls (kept : Kept log p) {id : Nat} (goes : p.advance? id = some q) :
    q.live = p.live ∨ q.live + 1 = p.live := by
  have takes : p.step (.advance id) = some q := goes
  cases Rule.of_step takes with
  | leave there =>
    have pos : 0 < p.count ProbeStage.isLive := List.countP_pos_iff.mpr ⟨_, there, rfl⟩
    rw [← kept.live] at pos
    exact .inr (Nat.succ_pred_eq_of_pos pos)
  | _ => exact .inl rfl

/-- When no call can go on, all of them wait, and permits are left over only if there are none of
them. -/
theorem quiet (kept : Kept log p) (quiet : ∀ id, p.advance? id = none) :
    p.Settled ∧ p.finished = min p.started log.released := by
  have waiting {c : ProbeCall} (there : c ∈ p.calls) : c.stage = .waiting :=
    waiting_of_quiet kept.distinct quiet there
  have settled : p.Settled := fun c there => by rw [waiting there]; rfl
  have agree := kept.settled settled
  have all : p.count ProbeStage.isWaiting = p.calls.length :=
    List.countP_eq_length.mpr fun c there => by rw [waiting there]; rfl
  have none : p.count ProbeStage.hasPermit = 0 :=
    count_eq_zero fun c there => by rw [waiting there]; rfl
  have live : p.live = p.calls.length := by
    rw [kept.live]
    exact List.countP_eq_length.mpr fun c there => by rw [waiting there]; rfl
  have permits := kept.permits
  refine ⟨settled, ?_⟩
  by_cases spare : 0 < p.permits
  · have nobody := kept.spare spare
    omega
  · omega

/-- The mark is the highest count of live calls, unless a call has yet to raise it. -/
theorem mark (kept : Kept log p) (marked : p.Marked) : log.lives.max? = some p.maxLive := by
  apply List.max?_eq_some_iff.mpr
  refine ⟨kept.mark_mem, fun n there => ?_⟩
  rcases kept.reaches n there with le | ⟨id, seen, counted, -⟩
  · exact le
  · exact absurd counted (marked id seen)

/-- **The counters of a probe are right.** -/
theorem measures (kept : Kept log p) : p.Measures log where
  calls := by
    rw [← kept.arrived]
    exact kept.calls
  finished := kept.finished_eq
  balance := kept.balance
  settled := kept.settled
  falls := kept.falls
  permits := kept.permits
  finished_le := by
    rw [kept.permits]
    exact Nat.le_add_left ..
  quiet := kept.quiet
  mark_mem := kept.mark_mem
  mark := kept.mark

end Kept

end Probe

end DomainEvents.Simulation
