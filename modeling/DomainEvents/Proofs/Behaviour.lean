import DomainEvents.Run
import Mathlib.Order.WellFounded

/-!
# Behaviours

A run tells what has happened up to some point. A behaviour goes on for ever: at each moment an
action is done, or nothing happens. It is what is needed to say that something happens sooner or
later. Nothing forces those who act to do so; `Behaviour.Fair` says of an action that it is not put
off for ever while it is possible.
-/

namespace DomainEvents

variable {S A L : Type} {step : S → A → Option (S × List L)}

/-- All that a system does, at one moment after the other. -/
structure Behaviour (step : S → A → Option (S × List L)) where
  state : Nat → S
  /-- what is done at a moment, if anything is done -/
  action : Nat → Option A
  rests : ∀ n, action n = none → state (n + 1) = state n
  acts : ∀ n a, action n = some a → ∃ told, step (state n) a = some (state (n + 1), told)

namespace Behaviour

variable (β : Behaviour step)

/-- An action that stays possible is done sooner or later. -/
def Fair (a : A) : Prop :=
  ∀ n, (∀ m, n ≤ m → step (β.state m) a ≠ none) → ∃ m, n ≤ m ∧ β.action m = some a

/-- From one moment to the next nothing happens, or there is a step. -/
theorem next (n : Nat) :
    β.state (n + 1) = β.state n ∨
      ∃ a told, β.action n = some a ∧ step (β.state n) a = some (β.state (n + 1), told) := by
  rcases does : β.action n with _ | a
  · exact .inl (β.rests n does)
  · obtain ⟨told, goes⟩ := β.acts n a does
    exact .inr ⟨a, told, rfl, goes⟩

variable {β}

/-- What every step keeps holds from some moment on, once it holds. -/
theorem always {P : S → Prop}
    (keep : ∀ {s t : S} {a : A} {told : List L}, P s → step s a = some (t, told) → P t) {n : Nat}
    (now : P (β.state n)) {m : Nat} (later : n ≤ m) : P (β.state m) := by
  induction later with
  | refl => exact now
  | @step m _ ih =>
    rcases β.next m with same | ⟨a, told, -, goes⟩
    · rw [Nat.succ_eq_add_one, same]
      exact ih
    · exact keep ih goes

/-- A measure that never rises falls only so often. -/
theorem settles {α : Type} [LinearOrder α] [WellFoundedLT α] {f : Nat → α}
    (falls : ∀ n, f (n + 1) ≤ f n) : ∃ n, ∀ m, n ≤ m → f (m + 1) = f m := by
  obtain ⟨-, ⟨n, rfl⟩, least⟩ :=
    WellFounded.has_min (wellFounded_lt (α := α)) (Set.range f) ⟨f 0, 0, rfl⟩
  have below {m : Nat} (later : n ≤ m) : f m ≤ f n := antitone_nat_of_succ_le falls later
  have above (m : Nat) : f n ≤ f m := not_lt.mp (least (f m) ⟨m, rfl⟩)
  refine ⟨n, fun m later => le_antisymm (falls m) ?_⟩
  exact (below later).trans (above (m + 1))

/-! ## Computing behaviours -/

/-- The state at a moment, and what is done in it, when some actions are done one after the other up
to the first that is not possible, and then nothing any more. -/
def follow (step : S → A → Option (S × List L)) (s : S) : List A → Nat → S × Option A
  | [], _ => (s, none)
  | a :: rest, n =>
    match step s a, n with
    | none, _ => (s, none)
    | some _, 0 => (s, some a)
    | some (t, _), n + 1 => follow step t rest n

section Follow

variable {s t : S} {a : A} {told : List L}

theorem follow_of_none (stuck : step s a = none) (rest : List A) (n : Nat) :
    follow step s (a :: rest) n = (s, none) := by
  cases n <;> simp [follow, stuck]

theorem follow_zero (goes : step s a = some (t, told)) (rest : List A) :
    follow step s (a :: rest) 0 = (s, some a) := by
  simp [follow, goes]

theorem follow_succ (goes : step s a = some (t, told)) (rest : List A) (n : Nat) :
    follow step s (a :: rest) (n + 1) = follow step t rest n := by
  simp [follow, goes]

/-- It all begins with the given state. -/
theorem follow_start (s : S) (actions : List A) : (follow step s actions 0).1 = s := by
  cases actions with
  | nil => rfl
  | cons a rest =>
    rcases goes : step s a with _ | ⟨t, told⟩
    · rw [follow_of_none goes]
    · rw [follow_zero goes]

theorem follow_rests (s : S) (actions : List A) (n : Nat)
    (rests : (follow step s actions n).2 = none) :
    (follow step s actions (n + 1)).1 = (follow step s actions n).1 := by
  induction actions generalizing s n with
  | nil => rfl
  | cons a rest ih =>
    rcases goes : step s a with _ | ⟨t, told⟩
    · rw [follow_of_none goes, follow_of_none goes]
    · cases n with
      | zero =>
        rw [follow_zero goes] at rests
        cases rests
      | succ n =>
        rw [follow_succ goes] at rests ⊢
        rw [follow_succ goes]
        exact ih t n rests

theorem follow_acts (s : S) (actions : List A) (n : Nat) (a : A)
    (acts : (follow step s actions n).2 = some a) :
    ∃ told, step (follow step s actions n).1 a =
      some ((follow step s actions (n + 1)).1, told) := by
  induction actions generalizing s n with
  | nil => cases acts
  | cons b rest ih =>
    rcases goes : step s b with _ | ⟨t, told⟩
    · rw [follow_of_none goes] at acts
      cases acts
    · cases n with
      | zero =>
        rw [follow_zero goes] at acts ⊢
        obtain rfl := Option.some.inj acts
        rw [follow_succ goes, follow_start]
        exact ⟨told, goes⟩
      | succ n =>
        rw [follow_succ goes] at acts ⊢
        rw [follow_succ goes]
        exact ih t n acts

end Follow

/-- The behaviour in which some actions are done one after the other. -/
def ofActions (s : S) (actions : List A) : Behaviour step where
  state n := (follow step s actions n).1
  action n := (follow step s actions n).2
  rests := follow_rests s actions
  acts := follow_acts s actions

end Behaviour

end DomainEvents
