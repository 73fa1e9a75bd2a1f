import DomainEvents.Bus.Pool
import DomainEvents.Run

/-!
# Histories

What has happened to a pool, step by step: each entry has the action of a step and what the pool
gave notice of. A history is told by a run of `Pool.tick`, the step of a pool that remembers its
action.

`History.collect` reads the notices of a history in one respect, say the events that came into the
queue, in the order in which they came.
-/

namespace DomainEvents.Bus

/-- An action of a pool and what it gave notice of. -/
structure Entry (H : Type) where
  action : Action H
  notices : List (Notice H)

/-- What has happened to a pool, the first to come first. -/
abbrev History (H : Type) := List (Entry H)

variable {H : Type} {α : Type}

/-- The number of the event for which a handler has come to its end, if that is the action. -/
def Action.returned? : Action H → Option Nat
  | .reply ticket (.handled _) => some ticket
  | _ => none

namespace Notice

/-- The event that has come into the queue, if the notice says so. -/
@[simp] def accepted? : Notice H → Option Dispatch
  | .accepted d => some d
  | _ => none

/-- The event that was handed to a worker, if the notice says so. -/
@[simp] def handed? : Notice H → Option Dispatch
  | .handed d => some d
  | _ => none

/-- The event whose worker has started, if the notice says so. -/
@[simp] def started? : Notice H → Option Dispatch
  | .started d => some d
  | _ => none

/-- The event for which a handler is called, if the notice says so. -/
@[simp] def called? : Notice H → Option Dispatch
  | .worker d (.called _) => some d
  | _ => none

/-- The event whose worker has ended, if the notice says so. -/
@[simp] def ended? : Notice H → Option Dispatch
  | .ended d _ => some d
  | _ => none

/-- The number of the call of publish that the notice is about, if it is about one: what the call
asks of the store, what comes of its event, and its answer. -/
def call? : Notice H → Option Nat
  | .saving d | .accepted d | .refused d _ | .answered d _ => some d.ticket
  | _ => none

/-! What workers give notice of says nothing of this. -/

@[simp] theorem accepted?_comp_worker (d : Dispatch) :
    (accepted? ∘ worker d : WorkerNotice H → _) = fun _ => none := rfl

@[simp] theorem handed?_comp_worker (d : Dispatch) :
    (handed? ∘ worker d : WorkerNotice H → _) = fun _ => none := rfl

@[simp] theorem started?_comp_worker (d : Dispatch) :
    (started? ∘ worker d : WorkerNotice H → _) = fun _ => none := rfl

@[simp] theorem ended?_comp_worker (d : Dispatch) :
    (ended? ∘ worker d : WorkerNotice H → _) = fun _ => none := rfl

end Notice

namespace History

/-- All that there was notice of. -/
def notices (h : History H) : List (Notice H) := h.flatMap (·.notices)

/-- What there was notice of in one respect. -/
def collect (f : Notice H → Option α) (h : History H) : List α := h.notices.filterMap f

/-- The events that have come into the queue. -/
abbrev accepted (h : History H) : List Dispatch := h.collect Notice.accepted?

/-- The events that were handed to workers. -/
abbrev handed (h : History H) : List Dispatch := h.collect Notice.handed?

/-- The events whose workers have started. -/
abbrev started (h : History H) : List Dispatch := h.collect Notice.started?

/-- The events for which handlers were called, one for each call. -/
abbrev called (h : History H) : List Dispatch := h.collect Notice.called?

/-- The events whose workers have ended. -/
abbrev ended (h : History H) : List Dispatch := h.collect Notice.ended?

/-- The events for which a handler has come to its end, by their numbers, one for each call. -/
def returned (h : History H) : List Nat := h.filterMap (·.action.returned?)

/-- What there was notice of about a call of publish, by its number. -/
def about (t : Nat) (h : History H) : List (Notice H) := h.notices.filter (·.call? == some t)

@[simp] theorem notices_nil : notices ([] : History H) = [] := rfl

@[simp] theorem notices_append (h k : History H) : (h ++ k).notices = h.notices ++ k.notices := by
  simp [notices]

@[simp] theorem notices_cons (e : Entry H) (h : History H) :
    History.notices (e :: h) = e.notices ++ h.notices := rfl

/-- There is notice of something when there was notice of it before, or is in the last step. -/
theorem mem_notices_snoc {h : History H} {action : Action H} {notices : List (Notice H)}
    {n : Notice H} :
    n ∈ (h ++ [⟨action, notices⟩] : History H).notices ↔ n ∈ h.notices ∨ n ∈ notices := by
  simp

/-- Whatever there was notice of was told in some step. -/
theorem exists_cut {h : History H} {n : Notice H} (told : n ∈ h.notices) :
    ∃ before e after, h = before ++ e :: after ∧ n ∈ e.notices := by
  obtain ⟨e, he, hn⟩ := List.mem_flatMap.mp told
  obtain ⟨before, after, rfl⟩ := List.append_of_mem he
  exact ⟨before, e, after, rfl, hn⟩

@[simp] theorem collect_nil (f : Notice H → Option α) : collect f [] = [] := rfl

@[simp] theorem collect_append (f : Notice H → Option α) (h k : History H) :
    (h ++ k).collect f = h.collect f ++ k.collect f := by
  simp [collect]

@[simp] theorem collect_cons (f : Notice H → Option α) (e : Entry H) (h : History H) :
    collect f (e :: h) = e.notices.filterMap f ++ h.collect f := by
  simp [collect]

@[simp] theorem returned_append (h k : History H) :
    (h ++ k).returned = h.returned ++ k.returned := by
  simp [returned]

@[simp] theorem returned_nil : returned ([] : History H) = [] := rfl

@[simp] theorem returned_cons (e : Entry H) (h : History H) :
    History.returned (e :: h) = e.action.returned?.toList ++ h.returned := by
  rw [returned, List.filterMap_cons]
  cases e.action.returned? <;> rfl

@[simp] theorem about_nil (t : Nat) : about t ([] : History H) = [] := rfl

@[simp] theorem about_append (t : Nat) (h k : History H) :
    (h ++ k).about t = h.about t ++ k.about t := by
  simp [about]

@[simp] theorem about_cons (t : Nat) (e : Entry H) (h : History H) :
    History.about t (e :: h) = e.notices.filter (·.call? == some t) ++ h.about t := by
  simp [about]

theorem mem_about {t : Nat} {h : History H} {n : Notice H} :
    n ∈ h.about t ↔ n ∈ h.notices ∧ n.call? = some t := by
  simp [about]

theorem mem_collect {f : Notice H → Option α} {h : History H} {a : α} :
    a ∈ h.collect f ↔ ∃ n ∈ h.notices, f n = some a := List.mem_filterMap

theorem mem_accepted {h : History H} {d : Dispatch} :
    d ∈ h.accepted ↔ .accepted d ∈ h.notices := by
  rw [accepted, mem_collect]
  constructor
  · rintro ⟨n, hn, told⟩
    cases n with
    | accepted e =>
      obtain rfl : e = d := by simpa using told
      exact hn
    | _ => cases told
  · intro hn
    exact ⟨_, hn, rfl⟩

end History

namespace Pool

/-- A step of a pool, told along with its action. -/
def tick [DecidableEq H] (p : Pool H) (action : Action H) : Option (Pool H × History H) :=
  (p.step action).map fun (after, notices) => (after, [⟨action, notices⟩])

theorem tick_eq_some [DecidableEq H] {p q : Pool H} {action : Action H} {told : History H} :
    p.tick action = some (q, told) ↔
      ∃ notices, p.step action = some (q, notices) ∧ [⟨action, notices⟩] = told := by
  rw [tick, Option.map_eq_some_iff]
  constructor
  · rintro ⟨⟨after, notices⟩, hstep, heq⟩
    obtain ⟨rfl, rfl⟩ := Prod.mk.inj heq
    exact ⟨notices, hstep, rfl⟩
  · rintro ⟨notices, hstep, rfl⟩
    exact ⟨(q, notices), hstep, rfl⟩

end Pool

end DomainEvents.Bus
