import DomainEvents.Event.Basic

/-!
# Stores in memory

A store keeps events and when they were processed. This one keeps them in a ledger: a list of
identifiers, in the order in which they were first saved, and the records, each filed under its
identifier. Whoever goes through all records looks up the identifiers of the list one after the
other, and an identifier without a record would be passed over in silence. `Ledger.Sound` says that
the list and the records are in step. Saving and marking keep them so, hence every store has a sound
ledger.
-/

namespace DomainEvents

/-- An event in a store. -/
structure StoredEvent where
  event : Event
  /-- when it was last marked as processed, if it was -/
  processedAt : Option Time.Instant
deriving Repr, Inhabited

/-- The identifiers and the records of a store. -/
structure Ledger where
  /-- the identifiers, in the order of their first saving -/
  order : List Uuid := []
  /-- the records by their identifiers; the order of these says nothing -/
  byId : List (Uuid × StoredEvent) := []
deriving Repr, Inhabited

namespace Ledger

/-- The record of an identifier. -/
def get? (l : Ledger) (id : Uuid) : Option StoredEvent := l.byId.lookup id

/-- Changes the record of an identifier, if there is one. -/
def modify (l : Ledger) (id : Uuid) (change : StoredEvent → StoredEvent) : Ledger :=
  { l with byId := l.byId.map fun (key, r) => (key, if key = id then change r else r) }

/-- Enters a record under a new identifier. -/
def enter (l : Ledger) (id : Uuid) (r : StoredEvent) : Ledger :=
  ⟨l.order ++ [id], l.byId ++ [(id, r)]⟩

/-- Saves an event. Saving it again replaces what it says, neither its place nor its mark. -/
def save (l : Ledger) (event : Event) : Ledger :=
  match l.get? event.id with
  | some _ => l.modify event.id fun r => { r with event }
  | none => l.enter event.id ⟨event, none⟩

/-- Marks an event as processed at a time, if it is there. -/
def mark (l : Ledger) (id : Uuid) (now : Time.Instant) : Ledger :=
  l.modify id fun r => { r with processedAt := some now }

/-- All records, in the order of the identifiers. -/
def all (l : Ledger) : List StoredEvent := l.order.filterMap l.get?

/-- The identifiers and the records are in step. -/
structure Sound (l : Ledger) : Prop where
  /-- no identifier is listed twice -/
  distinct : l.order.Nodup
  /-- the identifiers that are listed are those that have a record -/
  keys : ∀ id, id ∈ l.order ↔ (l.get? id).isSome = true
  /-- each record is filed under the identifier of its own event -/
  filed : ∀ id r, l.get? id = some r → r.event.id = id

@[simp] theorem order_modify (l : Ledger) (id : Uuid) (change : StoredEvent → StoredEvent) :
    (l.modify id change).order = l.order := rfl

/-- A change to the record of an identifier is none to the others. -/
theorem get?_modify (l : Ledger) (id : Uuid) (change : StoredEvent → StoredEvent) (j : Uuid) :
    (l.modify id change).get? j = (l.get? j).map fun r => if j = id then change r else r := by
  simp only [get?, modify]
  induction l.byId with
  | nil => rfl
  | cons entry rest ih =>
    obtain ⟨key, r⟩ := entry
    rw [List.map_cons, List.lookup_cons, List.lookup_cons]
    by_cases same : j = key
    · simp [same]
    · simp only [beq_false_of_ne same, ih]

theorem get?_enter {l : Ledger} {id : Uuid} (new : l.get? id = none) (r : StoredEvent) (j : Uuid) :
    (l.enter id r).get? j = if j = id then some r else l.get? j := by
  rw [get?, enter, List.lookup_append, List.lookup_cons]
  by_cases same : j = id
  · rw [get?] at new
    simp [same, new]
  · simp [beq_false_of_ne same, same, get?]

/-- What there is of an identifier when an event was saved. -/
theorem get?_save (l : Ledger) (event : Event) (id : Uuid) :
    (l.save event).get? id =
      if id = event.id then some ⟨event, (l.get? event.id).bind (·.processedAt)⟩
      else l.get? id := by
  rw [save]
  split
  case h_1 r old =>
    rw [get?_modify]
    by_cases same : id = event.id
    · simp [same, old]
    · simp [same]
  case h_2 new =>
    rw [get?_enter new, new]
    rfl

/-- An identifier is listed when it is saved for the first time. -/
theorem order_save (l : Ledger) (event : Event) :
    (l.save event).order =
      if (l.get? event.id).isSome then l.order else l.order ++ [event.id] := by
  rw [save]
  split
  case h_1 r old => rw [old, Option.isSome_some, if_pos rfl, order_modify]
  case h_2 new =>
    rw [new, Option.isSome_none, if_neg Bool.false_ne_true]
    rfl

theorem get?_mark (l : Ledger) (id : Uuid) (now : Time.Instant) (j : Uuid) :
    (l.mark id now).get? j =
      (l.get? j).map fun r => if j = id then { r with processedAt := some now } else r :=
  get?_modify ..

namespace Sound

variable {l : Ledger}

theorem empty : Sound {} := ⟨List.nodup_nil, by simp [get?], by simp [get?]⟩

/-- To save an event that is there replaces its record, and one that is not there comes last. -/
theorem save (sound : l.Sound) (event : Event) : (l.save event).Sound := by
  refine ⟨?_, fun id => ?_, fun id r found => ?_⟩
  · rw [order_save]
    split
    case isTrue => exact sound.distinct
    case isFalse new =>
      rw [← sound.keys] at new
      refine List.nodup_append.mpr ⟨sound.distinct, by simp, ?_⟩
      rintro id there _ last rfl
      exact new (List.mem_singleton.mp last ▸ there)
  · rw [order_save, get?_save]
    by_cases same : id = event.id
    · subst same
      by_cases old : (l.get? event.id).isSome = true <;> simp [old, sound.keys]
    · by_cases old : (l.get? event.id).isSome = true <;> simp [old, same, sound.keys]
  · rw [get?_save] at found
    split at found
    case isTrue same =>
      obtain rfl := Option.some.inj found
      exact same.symm
    case isFalse => exact sound.filed id r found

theorem mark (sound : l.Sound) (id : Uuid) (now : Time.Instant) : (l.mark id now).Sound := by
  refine ⟨sound.distinct, fun j => ?_, fun j r found => ?_⟩
  · rw [get?_mark, Option.isSome_map]
    exact sound.keys j
  · rw [get?_mark, Option.map_eq_some_iff] at found
    obtain ⟨before, found, rfl⟩ := found
    rw [← sound.filed j before found]
    split <;> rfl

end Sound

end Ledger

/-- A store in memory. -/
structure MemoryStore where
  ledger : Ledger
  sound : ledger.Sound
deriving Repr

instance : EmptyCollection MemoryStore := ⟨{}, .empty⟩

instance : Inhabited MemoryStore := ⟨{}⟩

namespace MemoryStore

/-- The records, each identifier once, in the order of their first saving. -/
def records (s : MemoryStore) : List StoredEvent := s.ledger.all

/-- Saves an event. -/
def save (s : MemoryStore) (event : Event) : MemoryStore :=
  ⟨s.ledger.save event, s.sound.save event⟩

/-- The store of the given events, saved in order. -/
def ofEvents (events : List Event) : MemoryStore :=
  events.foldl save {}

/-- The record of an identifier. -/
def get? (s : MemoryStore) (id : Uuid) : Option StoredEvent := s.ledger.get? id

/-- Whether an event is stored and marked. -/
def isProcessed (s : MemoryStore) (id : Uuid) : Bool :=
  (s.get? id).any (·.processedAt.isSome)

/-- Why an event cannot be marked. -/
def notStored (id : Uuid) : StoreError :=
  .backend ("event " ++ id.text ++ " is not stored")

/-- Marks an event as processed at a time; refused if it is not stored. -/
def markProcessed (s : MemoryStore) (id : Uuid) (now : Time.Instant) :
    Except StoreError MemoryStore :=
  if (s.get? id).isSome then .ok ⟨s.ledger.mark id now, s.sound.mark id now⟩
  else .error (notStored id)

/-- What becomes of the store when an event is to be marked, and the answer: it stays as it is if
the event is not stored. -/
def mark (s : MemoryStore) (id : Uuid) (now : Time.Instant) :
    MemoryStore × Except StoreError Unit :=
  match s.markProcessed id now with
  | .ok t => (t, .ok ())
  | .error error => (s, .error error)

/-- The events of a name that happened at a time or later, the oldest first; those of one time stay
in the order of the store. -/
def eventsSince (s : MemoryStore) (name : String) (since : Time.Instant) : List Event :=
  ((s.records.map (·.event)).filter fun e => e.name == name && since.le e.occurredAt).mergeSort
    fun a b => a.occurredAt.le b.occurredAt

/-- How many events are stored. -/
def size (s : MemoryStore) : Nat := s.ledger.order.length

end MemoryStore

end DomainEvents
