import DomainEvents.Proofs.Store
import Mathlib.Data.Finset.Card

/-!
# What a store has of its past

A store in memory is changed in two ways: an event is saved, or one is marked as processed. Whatever
was done to a store since it was made, in whatever order, the store is what its past says
(`MemoryStore.Follows`): it lists the identifiers in the order in which they were first saved, the
event of each is the one that was saved last, and those are marked for which this was asked when
they were there, with the time at which it was asked last. Each change preserves this
(`Follows.save`, `Follows.mark`), and so do all of them together (`follows`).

What a store loads is then known from its past, too. It is sorted by time, and events of one time
come in the order in which their identifiers were first saved, since those of one time are not moved
when a list is sorted (`filter_mergeSort`). To load from a later time on is to leave out the first
of them.
-/

namespace DomainEvents

section

variable {α : Type}

/-- A list with a new last element has a place of some kind there or where it had one before. -/
theorem exists_split_concat {l : List α} {a b : α} {P : List α → List α → Prop} :
    (∃ before after, l ++ [a] = before ++ b :: after ∧ P before after) ↔
      (a = b ∧ P l []) ∨ ∃ before after, l = before ++ b :: after ∧ P before (after ++ [a]) := by
  constructor
  · rintro ⟨before, after, split, holds⟩
    rcases List.eq_nil_or_concat after with rfl | ⟨after, last, rfl⟩
    · obtain ⟨rfl, same⟩ := List.append_inj' split rfl
      exact .inl ⟨List.singleton_inj.mp same, holds⟩
    · rw [List.concat_eq_append] at split holds
      rw [← List.cons_append, ← List.append_assoc] at split
      obtain ⟨rfl, same⟩ := List.append_inj' split rfl
      obtain rfl := List.singleton_inj.mp same
      exact .inr ⟨before, after, rfl, holds⟩
  · rintro (⟨rfl, holds⟩ | ⟨before, after, rfl, holds⟩)
    · exact ⟨l, [], rfl, holds⟩
    · exact ⟨before, after ++ [a], by rw [List.append_assoc, List.cons_append], holds⟩

/-- The last of a list is left out as a repetition if it is there before. -/
theorem eraseDups_concat [DecidableEq α] (l : List α) (a : α) :
    (l ++ [a]).eraseDups = if a ∈ l then l.eraseDups else l.eraseDups ++ [a] := by
  rw [List.eraseDups_append]
  by_cases old : a ∈ l <;> simp [List.removeAll, List.eraseDups_cons, old]

/-- What is left of a list without repetitions is in the order of its first places. -/
theorem pairwise_idxOf_eraseDups [DecidableEq α] (l : List α) :
    l.eraseDups.Pairwise fun a b => l.idxOf a < l.idxOf b := by
  induction l using List.reverseRecOn with
  | nil => exact List.Pairwise.nil
  | append_singleton l c ih =>
    have first {a : α} (there : a ∈ l.eraseDups) : (l ++ [c]).idxOf a = l.idxOf a :=
      List.idxOf_append_of_mem (List.mem_eraseDups.mp there)
    have before : l.eraseDups.Pairwise fun a b => (l ++ [c]).idxOf a < (l ++ [c]).idxOf b :=
      ih.imp_of_mem fun one other before => by rwa [first one, first other]
    rw [eraseDups_concat]
    split
    case isTrue => exact before
    case isFalse new =>
      refine List.pairwise_append.mpr ⟨before, List.pairwise_singleton .., fun a there b last => ?_⟩
      obtain rfl := List.mem_singleton.mp last
      rw [first there, List.idxOf_append_of_notMem new]
      exact Nat.lt_add_right _ (List.idxOf_lt_length_of_mem (List.mem_eraseDups.mp there))

/-- Of a sorted list those that have what the later ones also have come last. -/
theorem filter_suffix_of_pairwise {R : α → α → Prop} {p : α → Bool}
    (upward : ∀ {a b}, R a b → p a = true → p b = true) {l : List α} (sorted : l.Pairwise R) :
    l.filter p <:+ l := by
  induction sorted with
  | nil => exact List.suffix_rfl
  | cons below rest ih =>
    rename_i a l
    by_cases has : p a = true
    · have all : ∀ b ∈ a :: l, p b = true :=
        List.forall_mem_cons.mpr ⟨has, fun b there => upward (below b there) has⟩
      rw [List.filter_eq_self.mpr all]
    · rw [List.filter_cons_of_neg has]
      exact ih.trans (List.suffix_cons a l)

end

namespace MemoryStore

/-- What is done to a store. -/
inductive Change where
  | save (event : Event)
  | mark (id : Uuid) (now : Time.Instant)

/-- The store after a change. -/
def change (s : MemoryStore) : Change → MemoryStore
  | .save event => s.save event
  | .mark id now => (s.mark id now).1

/-- The event that is saved in a change. -/
def Change.saved? : Change → Option Event
  | .save event => some event
  | .mark _ _ => none

/-- The identifiers under which events were saved, as often as that was done. -/
def savedIds (past : List Change) : List Uuid := (past.filterMap (·.saved?)).map (·.id)

/-- An event was saved, and none of its identifier since then. -/
def SavedLast (past : List Change) (event : Event) : Prop :=
  ∃ before after, past = before ++ .save event :: after ∧ event.id ∉ savedIds after

/-- An identifier was marked when an event of it had been saved. -/
def MarkedSaved (past : List Change) (id : Uuid) : Prop :=
  ∃ now before after, past = before ++ .mark id now :: after ∧ id ∈ savedIds before

/-- An identifier was marked at a time when an event of it had been saved, and not since then. -/
def MarkedLast (past : List Change) (id : Uuid) (now : Time.Instant) : Prop :=
  ∃ before after, past = before ++ .mark id now :: after ∧ id ∈ savedIds before ∧
    ∀ later, .mark id later ∉ after

section

variable {past : List Change} {event e : Event} {id j : Uuid} {now time : Time.Instant}

@[simp] theorem savedIds_concat_save :
    savedIds (past ++ [.save event]) = savedIds past ++ [event.id] := by
  simp [savedIds, Change.saved?]

@[simp] theorem savedIds_concat_mark : savedIds (past ++ [.mark id now]) = savedIds past := by
  simp [savedIds, Change.saved?]

theorem savedLast_concat_save :
    SavedLast (past ++ [.save event]) e ↔ event = e ∨ event.id ≠ e.id ∧ SavedLast past e := by
  rw [SavedLast, exists_split_concat]
  refine or_congr ⟨?_, ?_⟩ ⟨?_, ?_⟩
  · rintro ⟨same, -⟩
    exact Change.save.inj same
  · rintro rfl
    exact ⟨rfl, List.not_mem_nil⟩
  · rintro ⟨before, after, rfl, last⟩
    rw [savedIds_concat_save, List.mem_append, not_or, List.mem_singleton] at last
    exact ⟨Ne.symm last.2, before, after, rfl, last.1⟩
  · rintro ⟨other, before, after, rfl, last⟩
    refine ⟨before, after, rfl, ?_⟩
    rw [savedIds_concat_save, List.mem_append, not_or, List.mem_singleton]
    exact ⟨last, Ne.symm other⟩

theorem savedLast_concat_mark : SavedLast (past ++ [.mark id now]) e ↔ SavedLast past e := by
  rw [SavedLast, exists_split_concat]
  simp only [reduceCtorEq, false_and, false_or, savedIds_concat_mark]
  rfl

theorem markedSaved_concat_save :
    MarkedSaved (past ++ [.save event]) j ↔ MarkedSaved past j := by
  simp only [MarkedSaved, exists_split_concat, reduceCtorEq, false_and, false_or]

theorem markedSaved_concat_mark :
    MarkedSaved (past ++ [.mark id now]) j ↔ MarkedSaved past j ∨ id = j ∧ j ∈ savedIds past := by
  simp only [MarkedSaved, exists_split_concat, Change.mark.injEq, exists_or]
  rw [or_comm]
  simp

theorem markedLast_concat_save :
    MarkedLast (past ++ [.save event]) j time ↔ MarkedLast past j time := by
  simp only [MarkedLast, exists_split_concat, reduceCtorEq, false_and, false_or, List.mem_append,
    List.mem_singleton, or_false]

theorem markedLast_concat_mark :
    MarkedLast (past ++ [.mark id now]) j time ↔
      (id = j ∧ now = time) ∧ j ∈ savedIds past ∨ id ≠ j ∧ MarkedLast past j time := by
  rw [MarkedLast, exists_split_concat, Change.mark.injEq]
  refine or_congr (by simp) ⟨?_, ?_⟩
  · rintro ⟨before, after, rfl, saved, last⟩
    simp only [List.mem_append, List.mem_singleton, not_or] at last
    refine ⟨?_, before, after, rfl, saved, fun later => (last later).1⟩
    rintro rfl
    exact (last now).2 rfl
  · rintro ⟨other, before, after, rfl, saved, last⟩
    refine ⟨before, after, rfl, saved, fun later => ?_⟩
    simpa [Ne.symm other] using last later

/-- What was marked was there. -/
theorem MarkedLast.saved (marked : MarkedLast past id now) : id ∈ savedIds past := by
  obtain ⟨before, after, rfl, saved, -⟩ := marked
  rw [savedIds, List.filterMap_append, List.map_append]
  exact List.mem_append_left _ saved

end

/-- The store is what its past says. -/
structure Follows (s : MemoryStore) (past : List Change) : Prop where
  /-- the identifiers are listed in the order in which they were first saved -/
  order : s.ledger.order = (savedIds past).eraseDups
  /-- the events are those that were saved last -/
  event_iff : ∀ e, s.event? e.id = some e ↔ SavedLast past e
  /-- marked are those that were marked when they were there -/
  processed_iff : ∀ id, s.isProcessed id = true ↔ MarkedSaved past id
  /-- and they have the time of the last of these markings -/
  time_iff : ∀ id now, s.processedAt? id = some now ↔ MarkedLast past id now

namespace Follows

variable {s : MemoryStore} {past : List Change}

theorem empty : Follows {} [] where
  order := rfl
  event_iff e := ⟨nofun, fun ⟨_, _, split, _⟩ => by simp at split⟩
  processed_iff id := ⟨nofun, fun ⟨_, _, _, split, _⟩ => by simp at split⟩
  time_iff id now := ⟨nofun, fun ⟨_, _, split, _⟩ => by simp at split⟩

/-- What is there are the events of the identifiers that were saved. -/
theorem has_iff (follows : s.Follows past) (id : Uuid) : s.Has id ↔ id ∈ savedIds past := by
  rw [← List.mem_eraseDups, ← follows.order]
  exact (s.sound.keys id).symm

theorem save (follows : s.Follows past) (event : Event) :
    (s.save event).Follows (past ++ [.save event]) where
  order := by
    refine (s.ledger.order_save event).trans ?_
    rw [savedIds_concat_save, eraseDups_concat, follows.order]
    exact if_congr (follows.has_iff event.id) rfl rfl
  event_iff e := by
    rw [event?_save, savedLast_concat_save, ← follows.event_iff]
    by_cases same : event.id = e.id
    · simp [same]
    · have other : event ≠ e := fun is => same (congrArg Event.id is)
      simp [same, other]
  processed_iff id := by
    rw [isProcessed_save, markedSaved_concat_save]
    exact follows.processed_iff id
  time_iff id now := by
    rw [processedAt?_save, markedLast_concat_save]
    exact follows.time_iff id now

theorem mark (follows : s.Follows past) (id : Uuid) (now : Time.Instant) :
    (s.mark id now).1.Follows (past ++ [.mark id now]) := by
  have marked := s.marked_mark id now
  have done : (s.mark id now).2 = .ok () ↔ id ∈ savedIds past := by
    rw [marked.eq_ok_iff, follows.has_iff]
  refine ⟨?_, fun e => ?_, fun j => ?_, fun j time => ?_⟩
  · rw [savedIds_concat_mark, marked.order_eq]
    exact follows.order
  · rw [savedLast_concat_mark, marked.event?_eq]
    exact follows.event_iff e
  · rw [markedSaved_concat_mark, marked.isProcessed_iff, follows.processed_iff, eq_comm (a := j),
      done]
    refine or_congr_right (and_congr_right ?_)
    rintro rfl
    rfl
  · rw [markedLast_concat_mark, marked.processedAt?_eq, ← follows.time_iff]
    by_cases mine : id = j
    · subst mine
      by_cases saved : id ∈ savedIds past
      · simp [saved, done.mpr saved]
      · have unmarked : s.processedAt? id ≠ some time := fun there =>
          saved ((follows.time_iff id time).mp there).saved
        simp [saved, mt done.mp saved, unmarked]
    · simp [mine, Ne.symm mine]

end Follows

/-- **The store is what its past says**, whatever was done to it. -/
theorem follows (past : List Change) : (past.foldl change {}).Follows past := by
  induction past using List.reverseRecOn with
  | nil => exact .empty
  | append_singleton past last ih =>
    rw [List.foldl_concat]
    cases last with
    | save event => exact ih.save event
    | mark id now => exact ih.mark id now

theorem follows_given (given : List Event) (changes : List Change) :
    (changes.foldl change (ofEvents given)).Follows (given.map .save ++ changes) := by
  have made : ofEvents given = (given.map .save).foldl change {} := by
    rw [List.foldl_map]
    rfl
  rw [made, ← List.foldl_append]
  exact follows _

/-! ## What is kept -/

/-- No identifier that is listed is passed over. -/
theorem map_some_records (s : MemoryStore) : s.records.map some = s.ledger.order.map s.get? := by
  rw [records, Ledger.all, List.map_filterMap_some_eq_filter_map_isSome, List.filter_eq_self.mpr]
  · rfl
  · intro r there
    obtain ⟨id, listed, rfl⟩ := List.mem_map.mp there
    exact (s.sound.keys id).mp listed

/-- **A store keeps what was saved, in the order of the first savings,** and of each identifier the
time at which it was last marked. -/
theorem keeps_in_order (given : List Event) (changes : List Change) :
    let s := changes.foldl change (ofEvents given)
    let past := given.map .save ++ changes
    s.ledger.order.Nodup ∧
      (∀ id, id ∈ s.ledger.order ↔ (s.get? id).isSome = true) ∧
      (∀ id r, s.get? id = some r → r.event.id = id) ∧
      s.records.map some = s.ledger.order.map s.get? ∧
      s.size = s.records.length ∧
      s.size = (savedIds past).toFinset.card ∧
      s.records.map (·.event.id) = (savedIds past).eraseDups ∧
      (∀ event, s.event? event.id = some event ↔ SavedLast past event) ∧
      (∀ id, s.isProcessed id = true ↔ MarkedSaved past id) ∧
      (∀ id now, s.processedAt? id = some now ↔ MarkedLast past id now) ∧
      (∀ id ∈ savedIds past, ∀ now, (s.mark id now).2 = .ok ()) ∧
      ∀ id ∉ savedIds past, ∀ now, s.mark id now = (s, .error (notStored id)) := by
  intro s past
  have follows : s.Follows past := follows_given given changes
  have size : s.size = s.records.length := by
    simpa [size] using (congrArg List.length s.map_some_records).symm
  refine ⟨s.sound.distinct, s.sound.keys, s.sound.filed, s.map_some_records, size, ?_, ?_,
    follows.event_iff, follows.processed_iff, follows.time_iff, fun id saved now => ?_,
    fun id new now => ?_⟩
  · have same : (savedIds past).toFinset = s.ledger.order.toFinset := by
      ext id
      rw [follows.order, List.mem_toFinset, List.mem_toFinset, List.mem_eraseDups]
    rw [same, List.toFinset_card_of_nodup s.sound.distinct]
    rfl
  · rw [← follows.order, ← s.ids_events, events, List.map_map]
    rfl
  · exact (s.marked_mark id now).eq_ok_iff.mpr ((follows.has_iff id).mpr saved)
  · exact mark_of_not_has (mt (follows.has_iff id).mp new) now

/-! ## What is loaded -/

/-- To load from a later time on is to leave out the first events. -/
theorem eventsSince_suffix (s : MemoryStore) (name : String) {since later : Time.Instant}
    (after : since.le later = true) :
    s.eventsSince name later <:+ s.eventsSince name since := by
  have filtered : s.eventsSince name later =
      (s.eventsSince name since).filter fun e => later.le e.occurredAt := by
    rw [filter_eventsSince, eventsSince_eq, List.filter_filter]
    congr 1
    refine List.filter_congr fun e _ => ?_
    have reached : later.le e.occurredAt = true → since.le e.occurredAt = true :=
      Time.Instant.le_trans after
    grind
  rw [filtered]
  exact filter_suffix_of_pairwise (fun before reached => Time.Instant.le_trans reached before)
    (s.pairwise_eventsSince name since)

/-- The events of one time are loaded in the order in which their identifiers were first saved. -/
theorem Follows.pairwise_eventsSince {s : MemoryStore} {past : List Change}
    (follows : s.Follows past) (name : String) (since : Time.Instant) :
    (s.eventsSince name since).Pairwise fun a b =>
      a.occurredAt = b.occurredAt → (savedIds past).idxOf a.id < (savedIds past).idxOf b.id := by
  have ordered : (s.events.map (·.id)).Pairwise fun i j =>
      (savedIds past).idxOf i < (savedIds past).idxOf j := by
    rw [ids_events, follows.order]
    exact pairwise_idxOf_eraseDups _
  refine List.pairwise_iff_forall_sublist.mpr fun {a b} pair same => ?_
  have kept := (pair.filter (·.occurredAt = b.occurredAt)).trans
    (s.eventsSince_at_sublist name since b.occurredAt)
  rw [List.filter_eq_self.mpr (by simp [same])] at kept
  exact List.pairwise_iff_forall_sublist.mp (List.pairwise_map.mp ordered) kept

/-- **A store loads what it has of a name, the oldest first**, and those of one time in the order of
their first savings. -/
theorem loads_in_order (given : List Event) (changes : List Change) (name : String)
    (since : Time.Instant) :
    let s := changes.foldl change (ofEvents given)
    let past := given.map .save ++ changes
    let loaded := s.eventsSince name since
    (∀ e, e ∈ loaded ↔
        s.event? e.id = some e ∧ e.name = name ∧ since.le e.occurredAt = true) ∧
      (loaded.map (·.id)).Nodup ∧
      loaded.Pairwise (fun a b => a.occurredAt.le b.occurredAt = true) ∧
      loaded.Pairwise (fun a b => a.occurredAt = b.occurredAt →
        (savedIds past).idxOf a.id < (savedIds past).idxOf b.id) ∧
      ∀ later, since.le later = true → s.eventsSince name later <:+ loaded := by
  intro s past loaded
  refine ⟨fun e => ?_, s.nodup_eventsSince name since, s.pairwise_eventsSince name since,
    (follows_given given changes).pairwise_eventsSince name since,
    fun later => s.eventsSince_suffix name⟩
  rw [mem_eventsSince, mem_events_iff, Bool.and_eq_true, beq_iff_eq]

end MemoryStore

end DomainEvents
