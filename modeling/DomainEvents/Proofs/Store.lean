import DomainEvents.Store.Memory
import Mathlib.Data.List.Nodup
import Mathlib.Data.List.TakeWhile

/-!
# What a store keeps

A store in memory forgets nothing: what is stored stays so, and so does a mark
(`MemoryStore.Grows`), whoever saves what. Saving an event changes what the store says of its
identifier and of no other, and it leaves the order of the events as it is. So to save an event
again as it is stored changes nothing at all.

What a store loads of a name is sorted by time, and events of one time stay in their order. Hence to
leave out some of the events before they are sorted is the same as to leave them out afterwards
(`filter_mergeSort`).
-/

namespace DomainEvents

/-! ## Sorting -/

namespace Time

instance : Std.TransCmp Date.compare :=
  inferInstanceAs (Std.TransCmp
    (compareLex (compareOn Date.year) (compareLex (compareOn Date.month) (compareOn Date.day))))

instance : Std.TransCmp Instant.compare :=
  let _ : Ord Date := ⟨Date.compare⟩
  have : Std.TransOrd Date := inferInstanceAs (Std.TransCmp Date.compare)
  inferInstanceAs (Std.TransCmp
    (compareLex (compareOn Instant.date)
      (compareLex (compareOn Instant.second) (compareOn Instant.nanos))))

namespace Instant

/-- An instant is not after another if it is before or the same. -/
theorem le_eq (a b : Instant) : a.le b = (a.compare b).isLE := by
  rw [le]
  cases a.compare b <;> rfl

theorem le_trans {a b c : Instant} (ab : a.le b = true) (bc : b.le c = true) : a.le c = true := by
  rw [le_eq] at *
  exact Std.TransCmp.isLE_trans ab bc

theorem le_total (a b : Instant) : (a.le b || b.le a) = true := by
  have swap : a.compare b = (b.compare a).swap := Std.OrientedCmp.eq_swap
  rw [le_eq, le_eq, swap]
  cases b.compare a <;> rfl

end Instant

end Time

section

variable {α : Type}

/-- A list in which those of a kind come first has as many of them as can be taken. -/
theorem takeWhile_of_split {f : α → Bool} {l m : List α} (first : ∀ b ∈ l, f b = false)
    (rest : ∀ b ∈ m, f b = true) : (l ++ m).takeWhile (!f ·) = l := by
  rw [List.takeWhile_append_of_pos (by simpa using first)]
  cases m with
  | nil => simp
  | cons b m => simp [rest b List.mem_cons_self]

/-- The first of a list comes behind those that it is not before, when the list is sorted. -/
theorem mergeSort_cons_eq {le : α → α → Bool}
    (trans : ∀ a b c, le a b = true → le b c = true → le a c = true)
    (total : ∀ a b, (le a b || le b a) = true) (a : α) (l : List α) :
    ∃ l₁ l₂, (a :: l).mergeSort le = l₁ ++ a :: l₂ ∧ l.mergeSort le = l₁ ++ l₂ ∧
      (∀ b ∈ l₁, le a b = false) ∧ ∀ b ∈ l₂, le a b = true := by
  obtain ⟨l₁, l₂, whole, rest, above⟩ := List.mergeSort_cons trans total a l
  have sorted := List.pairwise_mergeSort trans total (a :: l)
  rw [whole] at sorted
  refine ⟨l₁, l₂, whole, rest, by simpa using above, ?_⟩
  exact (List.pairwise_cons.mp (List.pairwise_append.mp sorted).2.1).1

/-- A list of which a part is left out before it is sorted is the sorted list without that part. -/
theorem filter_mergeSort {le : α → α → Bool}
    (trans : ∀ a b c, le a b = true → le b c = true → le a c = true)
    (total : ∀ a b, (le a b || le b a) = true) (p : α → Bool) (l : List α) :
    (l.mergeSort le).filter p = (l.filter p).mergeSort le := by
  induction l with
  | nil => simp
  | cons a l ih =>
    obtain ⟨l₁, l₂, whole, rest, above, below⟩ := mergeSort_cons_eq trans total a l
    rw [whole, List.filter_append, List.filter_cons]
    rw [rest, List.filter_append] at ih
    by_cases kept : p a = true
    · -- without `a` both lists are cut where the events begin that `a` is before
      obtain ⟨m₁, m₂, whole', rest', above', below'⟩ := mergeSort_cons_eq trans total a (l.filter p)
      rw [if_pos kept, List.filter_cons_of_pos kept, whole']
      rw [rest'] at ih
      have first : l₁.filter p = m₁ := by
        rw [← takeWhile_of_split (f := le a) above' below', ← ih]
        refine (takeWhile_of_split (fun b there => ?_) (fun b there => ?_)).symm
        · exact above b (List.mem_of_mem_filter there)
        · exact below b (List.mem_of_mem_filter there)
      rw [first] at ih ⊢
      rw [List.append_cancel_left ih]
    · rw [if_neg kept, List.filter_cons_of_neg kept, ih]

end

namespace MemoryStore

variable {s t : MemoryStore} {event : Event} {id : Uuid}

/-- An event of the identifier is stored. -/
def Has (s : MemoryStore) (id : Uuid) : Prop := (s.get? id).isSome = true

/-- The event of an identifier. -/
def event? (s : MemoryStore) (id : Uuid) : Option Event := (s.get? id).map (·.event)

/-- When the event of an identifier was last marked, if it was. -/
def processedAt? (s : MemoryStore) (id : Uuid) : Option Time.Instant :=
  (s.get? id).bind (·.processedAt)

theorem isProcessed_eq (s : MemoryStore) (id : Uuid) :
    s.isProcessed id = (s.processedAt? id).isSome := by
  rw [isProcessed, processedAt?]
  cases s.get? id <;> rfl

/-- The events of a store, in its order. -/
def events (s : MemoryStore) : List Event := s.records.map (·.event)

/-- No two events of a store have the same identifier. -/
def Distinct (s : MemoryStore) : Prop := (s.events.map (·.id)).Nodup

/-- Of all that was stored and marked nothing is lost. -/
structure Grows (s t : MemoryStore) : Prop where
  has : ∀ id, s.Has id → t.Has id
  processed : ∀ id, s.isProcessed id = true → t.isProcessed id = true

theorem Grows.refl (s : MemoryStore) : s.Grows s := ⟨fun _ => id, fun _ => id⟩

theorem Grows.trans {u : MemoryStore} (one : s.Grows t) (other : t.Grows u) : s.Grows u :=
  ⟨fun id there => other.has id (one.has id there),
    fun id there => other.processed id (one.processed id there)⟩

/-! ## Saving -/

theorem get?_save (s : MemoryStore) (event : Event) (id : Uuid) :
    (s.save event).get? id =
      if event.id = id then some ⟨event, s.processedAt? id⟩ else s.get? id := by
  refine (s.ledger.get?_save event id).trans ?_
  by_cases same : event.id = id
  · rw [if_pos same.symm, if_pos same, same]
    rfl
  · rw [if_neg (Ne.symm same), if_neg same]
    rfl

/-- An event that was saved is stored. -/
theorem has_save_self (s : MemoryStore) (event : Event) : (s.save event).Has event.id := by
  rw [Has, get?_save, if_pos rfl]
  rfl

/-- To save an event marks and unmarks nothing. -/
@[simp] theorem processedAt?_save (s : MemoryStore) (event : Event) (id : Uuid) :
    (s.save event).processedAt? id = s.processedAt? id := by
  rw [processedAt?, get?_save]
  split
  case isTrue => rfl
  case isFalse => rfl

@[simp] theorem isProcessed_save (s : MemoryStore) (event : Event) (id : Uuid) :
    (s.save event).isProcessed id = s.isProcessed id := by
  rw [isProcessed_eq, isProcessed_eq, processedAt?_save]

/-! The events are changed as if there were no marks. -/

/-- Puts an event among others, in the place of an older one of its identifier. -/
def place (event : Event) : List Event → List Event
  | [] => [event]
  | e :: rest => if e.id = event.id then event :: rest else e :: place event rest

/-- An event of a new identifier comes last. -/
theorem place_of_new {l : List Event} (new : event.id ∉ l.map (·.id)) :
    place event l = l ++ [event] := by
  induction l with
  | nil => rfl
  | cons e rest ih =>
    rw [List.map_cons, List.mem_cons, not_or] at new
    rw [place, if_neg (Ne.symm new.1), ih new.2, List.cons_append]

/-- An event of a known identifier comes in the place of the one that is there. -/
theorem place_of_old {before after : List Event} {e : Event}
    (first : ∀ f ∈ before, f.id ≠ event.id) (old : e.id = event.id) :
    place event (before ++ e :: after) = before ++ event :: after := by
  induction before with
  | nil => exact if_pos old
  | cons f before ih =>
    obtain ⟨other, first⟩ := List.forall_mem_cons.mp first
    rw [List.cons_append, place, if_neg other, ih first, List.cons_append]

/-- The event of an identifier when an event was saved. -/
theorem event?_save (s : MemoryStore) (event : Event) (id : Uuid) :
    (s.save event).event? id = if event.id = id then some event else s.event? id := by
  rw [event?, get?_save]
  split <;> rfl

/-- An event is found under its own identifier. -/
theorem id_of_event? {e : Event} (found : s.event? id = some e) : e.id = id := by
  obtain ⟨r, filed, rfl⟩ := Option.map_eq_some_iff.mp found
  exact s.sound.filed id r filed

/-- The events are those of the identifiers that are listed. -/
theorem events_eq_filterMap (s : MemoryStore) : s.events = s.ledger.order.filterMap s.event? :=
  List.map_filterMap ..

theorem mem_order_iff (s : MemoryStore) (id : Uuid) :
    id ∈ s.ledger.order ↔ ∃ e, s.event? id = some e := by
  rw [s.sound.keys, ← Option.isSome_iff_exists, event?, Option.isSome_map]
  rfl

/-- Each identifier that is listed has its event, and none is passed over. -/
theorem ids_events (s : MemoryStore) : s.events.map (·.id) = s.ledger.order := by
  rw [events_eq_filterMap, List.map_filterMap]
  refine (List.filterMap_congr fun id there => ?_).trans List.filterMap_some
  obtain ⟨e, found⟩ := (s.mem_order_iff id).mp there
  rw [found, Option.map_some, id_of_event? found]

theorem mem_events_iff {e : Event} : e ∈ s.events ↔ s.event? e.id = some e := by
  rw [events_eq_filterMap, List.mem_filterMap]
  constructor
  · rintro ⟨id, -, found⟩
    rwa [id_of_event? found]
  · exact fun found => ⟨e.id, (s.mem_order_iff e.id).mpr ⟨e, found⟩, found⟩

theorem events_save (s : MemoryStore) (event : Event) :
    (s.save event).events = place event s.events := by
  have self : (s.save event).event? event.id = some event := by rw [event?_save, if_pos rfl]
  have others {ids : List Uuid} (apart : event.id ∉ ids) :
      ids.filterMap (s.save event).event? = ids.filterMap s.event? := by
    refine List.filterMap_congr fun id there => ?_
    rw [event?_save, if_neg]
    rintro rfl
    exact apart there
  have order : (s.save event).ledger.order = _ := s.ledger.order_save event
  rw [events_eq_filterMap (s.save event), order, events_eq_filterMap s]
  by_cases listed : event.id ∈ s.ledger.order
  · -- the identifier is listed once, and the event of each other one is as it was
    rw [if_pos ((s.sound.keys _).mp listed)]
    obtain ⟨e, found⟩ := (s.mem_order_iff _).mp listed
    have distinct := s.sound.distinct
    obtain ⟨before, after, split⟩ := List.append_of_mem listed
    rw [split] at distinct ⊢
    obtain ⟨-, tail, ahead⟩ := List.nodup_append.mp distinct
    have ahead : event.id ∉ before := fun there => ahead _ there _ List.mem_cons_self rfl
    rw [List.filterMap_append, List.filterMap_append, List.filterMap_cons_some self,
      List.filterMap_cons_some found, others ahead, others (List.nodup_cons.mp tail).1,
      place_of_old _ (id_of_event? found)]
    intro f there same
    obtain ⟨id, known, is⟩ := List.mem_filterMap.mp there
    rw [id_of_event? is] at same
    exact ahead (same ▸ known)
  · rw [if_neg (mt (s.sound.keys _).mpr listed), List.filterMap_append, others listed,
      List.filterMap_cons_some self, List.filterMap_nil, place_of_new]
    rwa [← events_eq_filterMap, ids_events]

theorem mem_place {e : Event} {l : List Event} (there : e ∈ place event l) :
    e = event ∨ e ∈ l := by
  induction l with
  | nil => exact .inl (List.mem_singleton.mp there)
  | cons f rest ih =>
    rw [place] at there
    split at there
    case isTrue => exact (List.mem_cons.mp there).imp_right (List.mem_cons_of_mem _)
    case isFalse =>
      rcases List.mem_cons.mp there with rfl | there
      · exact .inr List.mem_cons_self
      · exact (ih there).imp_right (List.mem_cons_of_mem _)

/-- Events of other identifiers stay as they are, and in their order. -/
theorem filter_place {f : Event → Bool} (other : ∀ e, e.id = event.id → f e = false)
    (l : List Event) : (place event l).filter f = l.filter f := by
  have new := other event rfl
  induction l with
  | nil => simp [place, new]
  | cons e rest ih =>
    rw [place]
    split
    case isTrue same => simp [new, other e same]
    case isFalse => rw [List.filter_cons, List.filter_cons, ih]

theorem nodup_place {l : List Event} (distinct : (l.map (·.id)).Nodup) :
    ((place event l).map (·.id)).Nodup := by
  induction l with
  | nil => exact List.nodup_singleton _
  | cons e rest ih =>
    rw [List.map_cons] at distinct
    obtain ⟨new, distinct⟩ := List.nodup_cons.mp distinct
    rw [place]
    split
    case isTrue same =>
      rw [same] at new
      exact List.nodup_cons.mpr ⟨new, distinct⟩
    case isFalse other =>
      refine List.nodup_cons.mpr ⟨fun there => ?_, ih distinct⟩
      obtain ⟨f, there, same⟩ := List.mem_map.mp there
      rcases mem_place there with rfl | there
      · exact other same.symm
      · exact new (List.mem_map.mpr ⟨f, there, same⟩)

/-- To put an event where it is changes nothing. -/
theorem place_of_mem {l : List Event} (distinct : (l.map (·.id)).Nodup) (there : event ∈ l) :
    place event l = l := by
  induction l with
  | nil => cases there
  | cons e rest ih =>
    obtain ⟨new, distinct⟩ := List.nodup_cons.mp distinct
    rw [place]
    rcases List.mem_cons.mp there with rfl | there
    · rw [if_pos rfl]
    · have other : e.id ≠ event.id := fun same =>
        new (List.mem_map.mpr ⟨event, there, same.symm⟩)
      rw [if_neg other, ih distinct there]

theorem Distinct.save (distinct : s.Distinct) (event : Event) : (s.save event).Distinct := by
  rw [Distinct, events_save]
  exact nodup_place distinct

/-- A store that came to its events by saving them has each identifier once. -/
theorem distinct_ofEvents (events : List Event) : (ofEvents events).Distinct := by
  have saved {s : MemoryStore} (distinct : s.Distinct) : (events.foldl save s).Distinct := by
    induction events generalizing s with
    | nil => exact distinct
    | cons event events ih => exact ih (distinct.save event)
  exact saved List.nodup_nil

/-- What is stored when some events were saved was stored before, or is one of them. -/
theorem mem_events_foldl {events : List Event} {e : Event}
    (there : e ∈ (events.foldl save s).events) : e ∈ s.events ∨ e ∈ events := by
  induction events generalizing s with
  | nil => exact .inl there
  | cons event events ih =>
    rcases ih there with before | later
    · rw [events_save] at before
      rcases mem_place before with rfl | before
      · exact .inr List.mem_cons_self
      · exact .inl before
    · exact .inr (List.mem_cons_of_mem _ later)

theorem grows_save (s : MemoryStore) (event : Event) : s.Grows (s.save event) where
  has id there := by
    rw [Has, get?_save]
    split
    case isTrue => rfl
    case isFalse => exact there
  processed id marked := (isProcessed_save s event id).trans marked

/-! ## Loading -/

section

variable (s : MemoryStore) (name : String) (since : Time.Instant)

/-- What a store loads depends on its events. -/
theorem eventsSince_eq :
    s.eventsSince name since =
      (s.events.filter fun e => e.name == name && since.le e.occurredAt).mergeSort
        fun a b => a.occurredAt.le b.occurredAt :=
  rfl

theorem mem_eventsSince {e : Event} :
    e ∈ s.eventsSince name since ↔
      e ∈ s.events ∧ (e.name == name && since.le e.occurredAt) = true := by
  rw [eventsSince_eq, List.mem_mergeSort, List.mem_filter]

theorem compare_events_trans (a b c : Event) : a.occurredAt.le b.occurredAt = true →
    b.occurredAt.le c.occurredAt = true → a.occurredAt.le c.occurredAt = true :=
  Time.Instant.le_trans

theorem compare_events_total (a b : Event) :
    (a.occurredAt.le b.occurredAt || b.occurredAt.le a.occurredAt) = true :=
  Time.Instant.le_total ..

/-- To load some of the events is to leave out the others. -/
theorem filter_eventsSince (f : Event → Bool) :
    (s.eventsSince name since).filter f =
      ((s.events.filter f).filter fun e => e.name == name && since.le e.occurredAt).mergeSort
        fun a b => a.occurredAt.le b.occurredAt := by
  rw [eventsSince_eq, filter_mergeSort compare_events_trans compare_events_total, List.filter_comm]

/-- The oldest event is loaded first. -/
theorem pairwise_eventsSince :
    (s.eventsSince name since).Pairwise fun a b => a.occurredAt.le b.occurredAt = true :=
  List.pairwise_mergeSort compare_events_trans compare_events_total _

/-- No identifier is loaded twice. -/
theorem nodup_eventsSince : ((s.eventsSince name since).map (·.id)).Nodup := by
  have distinct : (s.events.map (·.id)).Nodup := s.ids_events ▸ s.sound.distinct
  rw [eventsSince_eq, ((List.mergeSort_perm ..).map _).nodup_iff]
  exact distinct.sublist (List.filter_sublist.map _)

/-- The events of one time are loaded in the order of the store. -/
theorem eventsSince_at_sublist (time : Time.Instant) :
    ((s.eventsSince name since).filter (·.occurredAt = time)).Sublist s.events := by
  rw [filter_eventsSince, List.mergeSort_of_pairwise]
  · exact List.filter_sublist.trans List.filter_sublist
  · refine List.Pairwise.filter _ (List.pairwise_of_forall_mem_list fun a one b other => ?_)
    rw [of_decide_eq_true (List.mem_filter.mp one).2,
      of_decide_eq_true (List.mem_filter.mp other).2]
    simpa using time.le_total time

end

/-! ## Marking -/

section

variable {now : Time.Instant}

/-- An event can be marked if it is stored. -/
theorem markProcessed_of_has (there : s.Has id) (now : Time.Instant) :
    s.markProcessed id now = .ok ⟨s.ledger.mark id now, s.sound.mark id now⟩ :=
  if_pos there

theorem mark_of_not_has (new : ¬s.Has id) (now : Time.Instant) :
    s.mark id now = (s, .error (notStored id)) := by
  have refused : s.markProcessed id now = .error (notStored id) := if_neg new
  rw [mark, refused]

theorem has_of_markProcessed (marked : s.markProcessed id now = .ok t) : s.Has id := by
  rw [markProcessed] at marked
  split at marked
  case isTrue there => exact there
  case isFalse => cases marked

theorem get?_markProcessed (marked : s.markProcessed id now = .ok t) (j : Uuid) :
    t.get? j =
      (s.get? j).map fun r => if j = id then { r with processedAt := some now } else r := by
  rw [markProcessed_of_has (has_of_markProcessed marked)] at marked
  obtain rfl := Except.ok.inj marked
  exact s.ledger.get?_mark id now j

/-- What is marked after a marking, and when it was. -/
theorem processedAt?_markProcessed (marked : s.markProcessed id now = .ok t) (j : Uuid) :
    t.processedAt? j = if j = id then some now else s.processedAt? j := by
  have there := has_of_markProcessed marked
  rw [processedAt?, get?_markProcessed marked, processedAt?]
  split
  case isTrue mine =>
    obtain ⟨r, found⟩ := Option.isSome_iff_exists.mp there
    rw [mine, found]
    rfl
  case isFalse => rw [Option.map_id']

theorem isProcessed_markProcessed (marked : s.markProcessed id now = .ok t) (j : Uuid) :
    t.isProcessed j = true ↔ s.isProcessed j = true ∨ j = id := by
  rw [isProcessed_eq, isProcessed_eq, processedAt?_markProcessed marked]
  by_cases mine : j = id <;> simp [mine]

theorem grows_markProcessed (marked : s.markProcessed id now = .ok t) : s.Grows t where
  has j there := by
    rw [Has, get?_markProcessed marked, Option.isSome_map]
    exact there
  processed j before := (isProcessed_markProcessed marked j).mpr (.inl before)

theorem order_markProcessed (marked : s.markProcessed id now = .ok t) :
    t.ledger.order = s.ledger.order := by
  rw [markProcessed_of_has (has_of_markProcessed marked)] at marked
  obtain rfl := Except.ok.inj marked
  rfl

theorem event?_markProcessed (marked : s.markProcessed id now = .ok t) (j : Uuid) :
    t.event? j = s.event? j := by
  rw [event?, get?_markProcessed marked, Option.map_map]
  refine congrArg (Option.map · _) (funext fun r => ?_)
  simp only [Function.comp_apply]
  split <;> rfl

/-- A marking changes no event. -/
theorem events_markProcessed (marked : s.markProcessed id now = .ok t) : t.events = s.events := by
  rw [events_eq_filterMap, events_eq_filterMap, order_markProcessed marked]
  exact List.filterMap_congr fun j _ => event?_markProcessed marked j

end

/-- What comes of the attempt to mark an event: the store after it, and the answer. -/
inductive Marked (s : MemoryStore) (id : Uuid) (now : Time.Instant) :
    MemoryStore → Except StoreError Unit → Prop where
  | done {t : MemoryStore} (marks : s.markProcessed id now = .ok t) : Marked s id now t (.ok ())
  | failed {error : StoreError} (fails : s.markProcessed id now = .error error) :
      Marked s id now s (.error error)

theorem marked_mark (s : MemoryStore) (id : Uuid) (now : Time.Instant) :
    Marked s id now (s.mark id now).1 (s.mark id now).2 := by
  rw [mark]
  split
  case h_1 t marks => exact .done marks
  case h_2 error fails => exact .failed fails

namespace Marked

variable {now : Time.Instant} {result : Except StoreError Unit}

theorem grows (marked : Marked s id now t result) : s.Grows t := by
  cases marked with
  | done marks => exact grows_markProcessed marks
  | failed => exact .refl s

theorem events_eq (marked : Marked s id now t result) : t.events = s.events := by
  cases marked with
  | done marks => exact events_markProcessed marks
  | failed => rfl

theorem order_eq (marked : Marked s id now t result) : t.ledger.order = s.ledger.order := by
  cases marked with
  | done marks => exact order_markProcessed marks
  | failed => rfl

theorem event?_eq (marked : Marked s id now t result) (j : Uuid) : t.event? j = s.event? j := by
  cases marked with
  | done marks => exact event?_markProcessed marks j
  | failed => rfl

/-- What can be marked is what is stored. -/
theorem eq_ok_iff (marked : Marked s id now t result) : result = .ok () ↔ s.Has id := by
  cases marked with
  | done marks => exact iff_of_true rfl (has_of_markProcessed marks)
  | failed fails =>
    refine iff_of_false nofun fun there => ?_
    rw [markProcessed_of_has there] at fails
    cases fails

/-- Only what was marked now is marked anew. -/
theorem processedAt?_eq (marked : Marked s id now t result) (j : Uuid) :
    t.processedAt? j = if j = id ∧ result = .ok () then some now else s.processedAt? j := by
  cases marked with
  | done marks => simpa using processedAt?_markProcessed marks j
  | failed => simp

theorem isProcessed_iff (marked : Marked s id now t result) (j : Uuid) :
    t.isProcessed j = true ↔ s.isProcessed j = true ∨ j = id ∧ result = .ok () := by
  cases marked with
  | done marks => simpa using isProcessed_markProcessed marks j
  | failed => simp

end Marked

end MemoryStore

end DomainEvents
