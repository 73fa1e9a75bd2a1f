import DomainEvents.Metrics

/-!
# Metrics on record

The metrics of a bus are put on record in a collector under five names, one after the other, and any
of these may be taken. `Registers` has the two ways in which that can end. If no name is taken, all
of them are on record afterwards. If one is, the names before the first that is taken are on record
and stay there, although the bus has been told that it has failed.

So a failure leaves a collector as it was only if the first name of all was taken. In all other
cases it leaves names behind that stand in the way of the next attempt, even if nothing is left of
what was there before (`metrics_on_record`).
-/

namespace DomainEvents

namespace Metric

theorem mem_all (m : Metric) : m ∈ all := by
  cases m <;> decide

theorem names_nodup : (all.map name).Nodup := by decide

end Metric

namespace Collector

variable {c d : Collector} {names : List String} {result : Collector × Bool}

/-- The ways in which putting names on record can end. -/
inductive Registers (c : Collector) (names : List String) : Collector × Bool → Prop where
  /-- no name was taken -/
  | whole (free : ∀ name ∈ names, name ∉ c.names) : Registers c names (⟨c.names ++ names⟩, true)
  /-- the names before the first one that was taken are on record -/
  | partly {before after : List String} {taken : String} (parts : names = before ++ taken :: after)
      (free : ∀ name ∈ before, name ∉ c.names) (known : taken ∈ c.names) :
      Registers c names (⟨c.names ++ before⟩, false)

/-- One more name at the front that is not taken. -/
theorem Registers.cons {name : String} (fresh : name ∉ c.names)
    (other : name ∉ names) (rest : Registers ⟨c.names ++ [name]⟩ names result) :
    Registers c (name :: names) result := by
  have front (l : List String) : c.names ++ [name] ++ l = c.names ++ name :: l :=
    List.append_assoc ..
  have free {l : List String} (apart : ∀ n ∈ l, n ∉ c.names ++ [name]) :
      ∀ n ∈ name :: l, n ∉ c.names := by
    rintro n (_ | ⟨_, there⟩)
    · exact fresh
    · exact fun known => apart n there (List.mem_append_left _ known)
  cases rest with
  | whole apart =>
    rw [front]
    exact .whole (free apart)
  | @partly before after taken parts apart known =>
    rw [front]
    refine .partly (congrArg (name :: ·) parts) (free apart) ?_
    rcases List.mem_append.mp known with old | last
    · exact old
    · obtain rfl := List.mem_singleton.mp last
      exact absurd (by simp [parts]) other

/-- **Names are put on record up to the first that is taken.** -/
theorem registers (distinct : names.Nodup) (c : Collector) :
    Registers c names (c.registerAll names) := by
  induction names generalizing c with
  | nil =>
    have nothing : Registers c [] (⟨c.names ++ []⟩, true) := .whole nofun
    rwa [List.append_nil] at nothing
  | cons name rest ih =>
    obtain ⟨other, distinct⟩ := List.nodup_cons.mp distinct
    rw [registerAll, register?]
    by_cases known : name ∈ c.names
    · have nothing : Registers c (name :: rest) (⟨c.names ++ []⟩, false) :=
        .partly rfl nofun known
      simpa [known] using nothing
    · simpa [known] using (ih distinct ⟨c.names ++ [name]⟩).cons known other

/-- All names are on record exactly if none was taken. -/
theorem Registers.ok_iff (registers : Registers c names result) :
    result.2 = true ↔ ∀ name ∈ names, name ∉ c.names := by
  cases registers with
  | whole free => exact ⟨fun _ => free, fun _ => rfl⟩
  | partly parts _ known =>
    refine ⟨nofun, fun free => absurd known (free _ ?_)⟩
    rw [parts]
    exact List.mem_append_right _ List.mem_cons_self

/-- A failure leaves the collector as it was exactly if the first name was taken. -/
theorem Registers.unchanged_iff {first : String} {rest : List String}
    (registers : Registers c (first :: rest) (d, false)) : d = c ↔ first ∈ c.names := by
  cases registers with
  | @partly before after taken parts free known =>
    cases before with
    | nil =>
      obtain ⟨rfl, -⟩ := List.cons.inj parts
      rw [List.append_nil]
      exact ⟨fun _ => known, fun _ => rfl⟩
    | cons name before =>
      obtain ⟨rfl, -⟩ := List.cons.inj parts
      constructor
      · intro same
        have more := congrArg (·.names.length) same
        simp at more
      · exact fun there => absurd there (free _ List.mem_cons_self)

/-- What a failure has left behind makes the next attempt fail, whatever has become of the names
that were on record before. -/
theorem Registers.again (registers : Registers c names (d, false)) (changed : d ≠ c)
    {later : Collector} (left : ∀ name ∈ d.names, name ∉ c.names → name ∈ later.names)
    (again : Registers later names result) : result.2 = false := by
  cases registers with
  | @partly before after taken parts free known =>
    cases before with
    | nil => exact absurd (congrArg Collector.mk (List.append_nil _)) changed
    | cons name before =>
      apply Bool.eq_false_iff.mpr
      intro fine
      have there := left name (List.mem_append_right _ List.mem_cons_self)
        (free name List.mem_cons_self)
      apply again.ok_iff.mp fine name _ there
      rw [parts]
      exact List.mem_cons_self

/-- **What becomes of the metrics of a bus.** They are all on record in the end exactly if none of
their names was taken before, and then nothing else has been added. Otherwise the names before the
first one that was taken have been added. So the collector is as it was only if the name of the very
first metric was taken; in all other cases no attempt succeeds as long as the names that were added
are there, even if none of those is that were there before. -/
theorem metrics_on_record (c : Collector) :
    Registers c (Metric.all.map Metric.name) c.registerMetrics ∧
    (c.registerMetrics.2 = true ↔ ∀ m : Metric, m.name ∉ c.names) ∧
    ∀ {d : Collector}, c.registerMetrics = (d, false) →
      (d = c ↔ Metric.published.name ∈ c.names) ∧
      (d ≠ c → ∀ {later : Collector},
        (∀ name ∈ d.names, name ∉ c.names → name ∈ later.names) →
        later.registerMetrics.2 = false) := by
  have ends (c : Collector) : Registers c (Metric.all.map Metric.name) c.registerMetrics :=
    registers Metric.names_nodup c
  refine ⟨ends c, ?_, ?_⟩
  · apply (ends c).ok_iff.trans
    simp [Metric.mem_all]
  · intro d fails
    have failed := ends c
    rw [fails] at failed
    exact ⟨failed.unchanged_iff, fun changed later left => failed.again changed left (ends later)⟩

/-- A collector with the name of the last metric gets the names of all others. When only these are
there, the next attempt fails again. -/
theorem metrics_on_record_last_taken :
    (registerMetrics ⟨[Metric.inFlight.name]⟩).2 = false ∧
      (registerMetrics ⟨[.published, .rejected, .processed, .handlerFailures].map Metric.name⟩).2 =
        false := by
  have fails : registerMetrics ⟨[Metric.inFlight.name]⟩ =
      (⟨[.inFlight, .published, .rejected, .processed, .handlerFailures].map Metric.name⟩, false) :=
    by decide
  obtain ⟨-, -, failure⟩ := metrics_on_record ⟨[Metric.inFlight.name]⟩
  obtain ⟨unchanged, again⟩ := failure fails
  exact ⟨congrArg Prod.snd fails, again (by decide) (by decide)⟩

/-- It is not so that either all metrics are on record in the end or none is that was not before. -/
theorem metrics_may_be_left :
    ¬ ∀ c : Collector,
      c.registerMetrics = (⟨c.names ++ Metric.all.map Metric.name⟩, true) ∨
        c.registerMetrics = (c, false) := by
  intro whole
  rcases whole ⟨[Metric.inFlight.name]⟩ with all | none
  · exact absurd (congrArg Prod.snd all) (by decide)
  · exact absurd (congrArg (·.1.names.length) none) (by decide)

end Collector

end DomainEvents
