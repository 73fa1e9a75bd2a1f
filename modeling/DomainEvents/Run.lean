/-!
# Runs

A system that changes by steps is a function from a state and an action to the next state and what
there is to tell of the step, or to `none` where the action is not possible. `Run step s log t` says
that some actions, one after the other, lead from the state `s` to the state `t`, and that `log` is
what was told on the way. Nothing is said about who chooses the actions, so that what holds of every
run holds for every way to interleave those who act.

`Run.ofActions` computes runs, for those who want to see one.
-/

namespace DomainEvents

variable {S A L : Type}

/-- A run of a system from the state `s`. -/
inductive Run (step : S → A → Option (S × List L)) (s : S) : List L → S → Prop where
  /-- nothing has happened -/
  | refl : Run step s [] s
  /-- something more happens -/
  | snoc {log told : List L} {t u : S} {a : A} :
    Run step s log t → step t a = some (u, told) → Run step s (log ++ told) u

/-- Does some actions one after the other, and tells what was told. -/
def runAll (step : S → A → Option (S × List L)) (s : S) : List A → Option (S × List L)
  | [] => some (s, [])
  | a :: rest =>
    match step s a with
    | none => none
    | some (t, told) => (runAll step t rest).map fun (u, more) => (u, told ++ more)

/-- One more action can be done after the others. -/
theorem runAll_concat {step : S → A → Option (S × List L)} {a : A} {t u : S} {told : List L}
    (more : step t a = some (u, told)) {actions : List A} :
    ∀ {s : S} {log : List L}, runAll step s actions = some (t, log) →
      runAll step s (actions ++ [a]) = some (u, log ++ told) := by
  induction actions with
  | nil =>
    intro s log h
    obtain ⟨rfl, rfl⟩ : s = t ∧ [] = log := by simpa [runAll] using h
    simp [runAll, more]
  | cons b rest ih =>
    intro s log h
    rw [runAll] at h
    rw [List.cons_append, runAll]
    rcases hstep : step s b with _ | ⟨r, first⟩
    · rw [hstep] at h
      cases h
    · rw [hstep] at h
      rcases hrest : runAll step r rest with _ | ⟨q, later⟩
      · simp [hrest] at h
      · obtain ⟨rfl, rfl⟩ : q = t ∧ first ++ later = log := by simpa [hrest] using h
        simp [ih hrest]

namespace Run

variable {step : S → A → Option (S × List L)} {s t u : S} {log more told : List L}

/-- A single step is a run. -/
theorem single {a : A} (h : step s a = some (t, told)) : Run step s told t := by
  simpa using Run.snoc .refl h

/-- Runs can be put one after the other. -/
theorem trans (h : Run step s log t) (k : Run step t more u) : Run step s (log ++ more) u := by
  induction k with
  | refl =>
    rw [List.append_nil]
    exact h
  | snoc _ hstep ih =>
    rw [← List.append_assoc]
    exact ih.snoc hstep

/-- **Invariants.** What holds at the start and is kept by every step holds after every run. -/
theorem invariant {P : List L → S → Prop} (start : P [] s)
    (keep : ∀ {log : List L} {t : S} {a : A} {u : S} {told : List L},
      P log t → step t a = some (u, told) → P (log ++ told) u)
    (run : Run step s log t) : P log t := by
  induction run with
  | refl => exact start
  | snoc _ hstep ih => exact keep ih hstep

/-- Actions that can be done one after the other make a run. -/
theorem ofActions {actions : List A} :
    ∀ {s : S} {log : List L}, runAll step s actions = some (t, log) → Run step s log t := by
  induction actions with
  | nil =>
    intro s log h
    obtain ⟨rfl, rfl⟩ : s = t ∧ [] = log := by simpa [runAll] using h
    exact .refl
  | cons a rest ih =>
    intro s log h
    rw [runAll] at h
    rcases hstep : step s a with _ | ⟨r, told⟩
    · rw [hstep] at h
      cases h
    · rw [hstep] at h
      rcases hrest : runAll step r rest with _ | ⟨q, more⟩
      · simp [hrest] at h
      · obtain ⟨rfl, rfl⟩ : q = t ∧ told ++ more = log := by simpa [hrest] using h
        exact (single hstep).trans (ih hrest)

end Run

end DomainEvents
