import DomainEvents.Event.Reader
import DomainEvents.Proofs.Json.Compact
import DomainEvents.Proofs.Time.Text
import DomainEvents.Proofs.Uuid

/-!
# Stored events are read back

The stored text of an event is its five fields in order, each of which is read back from its own
text, so that the reader goes from draft to draft until it has them all.

In the other direction a text may be far from the one that is stored: its fields may be in any order
or in an array, with others among them, and its times at any offset. What matters is that whatever
is read has a punctual instant and a well-formed payload, hence can be stored and read again.
-/

namespace DomainEvents.Event

open Json (Ends Exact Formed bind_eq_ok_iff fieldText ok_bind)

/-! ## From an event to its text and back -/

/-- A string is read as what it stands for. -/
theorem readText_string {α : Type} {parse? : String → Option α} {s : String} {a : α}
    (reads : parse? s = some a) (rest : List Char) :
    Draft.readText parse? ((Json.str s).chars ++ rest) = .ok (a, rest) := by
  rw [Json.chars, Json.stringChars_append, Draft.readText, Json.dropSpace_of_not_isSpace rfl]
  simp [Json.readString_escaped, ok_bind, reads, pure, Except.pure]

/-- A payload is read back, inside of the record. -/
theorem readPayload_chars {payload : Json} (formed : Formed 126 payload) (plain : Exact payload)
    {rest : List Char} (ends : Ends rest) :
    Draft.readPayload (payload.chars ++ rest) = .ok (payload, rest) := by
  refine Json.readBack_of_formed formed plain ?_ (by decide) ends
  rw [Json.stepsFor, List.length_append]
  omega

/-- A field is read into the draft, and then the ones after it are. -/
theorem readFields_field {draft next : Draft} {name : String} {value : Json} {more : List Char}
    (field : draft.readField name (':' :: (value.chars ++ more)) = .ok (next, more)) (steps : Nat) :
    draft.readFields (steps + 1) true (fieldText (name, value) ++ more) =
        next.readFields steps false more ∧
      draft.readFields (steps + 1) false (',' :: (fieldText (name, value) ++ more)) =
        next.readFields steps false more := by
  rw [Json.fieldText_append]
  constructor
  · rw [Draft.readFields, Json.nextField_first]
    simp only [ok_bind, Json.readString_escaped, field]
  · rw [Draft.readFields, Json.nextField_comma]
    simp only [ok_bind, Json.readString_escaped, field]

/-- The fields of an event are read into an empty draft one by one. -/
theorem readFields_fields {event : Event} (valid : event.occurredAt.Valid)
    (punctual : event.occurredAt.Punctual) (low : 0 ≤ event.occurredAt.date.year)
    (high : event.occurredAt.date.year ≤ 9999) (formed : Formed 126 event.payload)
    (plain : Exact event.payload) (steps : Nat) (rest : List Char) :
    Draft.readFields (steps + 6) true {} (Json.fieldChars event.fields ++ '\x7d' :: rest) =
      .ok (⟨some event.id, some event.name, some event.aggregateId, some event.occurredAt,
        some event.payload⟩, rest) := by
  have id (more : List Char) :
      Draft.readField {} "id" (':' :: ((Json.str event.id.text).chars ++ more)) =
        .ok ({ id := some event.id }, more) := by
    simp [Draft.readField, Draft.unset, ok_bind, Json.readColon_colon,
      readText_string (Uuid.parse?_text event.id), pure, Except.pure]
  have name (more : List Char) :
      Draft.readField { id := some event.id } "name"
          (':' :: ((Json.str event.name).chars ++ more)) =
        .ok ({ id := some event.id, name := some event.name }, more) := by
    simp [Draft.readField, Draft.unset, ok_bind, Json.readColon_colon,
      readText_string (rfl : some event.name = _), pure, Except.pure]
  have aggregateId (more : List Char) :
      Draft.readField { id := some event.id, name := some event.name } "aggregate_id"
          (':' :: ((Json.str event.aggregateId).chars ++ more)) =
        .ok ({ id := some event.id, name := some event.name,
               aggregateId := some event.aggregateId }, more) := by
    simp [Draft.readField, Draft.unset, ok_bind, Json.readColon_colon,
      readText_string (rfl : some event.aggregateId = _), pure, Except.pure]
  have occurredAt (more : List Char) :
      Draft.readField { id := some event.id, name := some event.name,
                        aggregateId := some event.aggregateId } "occurred_at"
          (':' :: ((Json.str event.occurredAt.zuluText).chars ++ more)) =
        .ok ({ id := some event.id, name := some event.name,
               aggregateId := some event.aggregateId,
               occurredAt := some event.occurredAt }, more) := by
    simp [Draft.readField, Draft.unset, ok_bind, Json.readColon_colon,
      readText_string (Time.Instant.parse?_zuluText valid punctual low high), pure, Except.pure]
  have payload :
      Draft.readField { id := some event.id, name := some event.name,
                        aggregateId := some event.aggregateId,
                        occurredAt := some event.occurredAt } "payload"
          (':' :: (event.payload.chars ++ '\x7d' :: rest)) =
        .ok (⟨some event.id, some event.name, some event.aggregateId, some event.occurredAt,
          some event.payload⟩, '\x7d' :: rest) := by
    simp [Draft.readField, Draft.unset, ok_bind, Json.readColon_colon,
      readPayload_chars formed plain (Json.ends_brace rest), pure, Except.pure]
  simp only [fields, Json.fieldChars_cons, List.flatMap_cons, List.flatMap_nil, List.append_nil,
    List.append_assoc, List.cons_append]
  rw [(readFields_field (id _) _).1, (readFields_field (name _) _).2,
    (readFields_field (aggregateId _) _).2, (readFields_field (occurredAt _) _).2,
    (readFields_field payload _).2]
  rfl

/-- An event with a punctual instant is read back from its text. -/
theorem parse_serialize {event : Event} (valid : event.occurredAt.Valid)
    (punctual : event.occurredAt.Punctual) (low : 0 ≤ event.occurredAt.date.year)
    (high : event.occurredAt.date.year ≤ 9999) (formed : Formed 126 event.payload)
    (plain : Exact event.payload) :
    Event.parse event.serialize = .ok event := by
  have text : event.serialize.toList = '\x7b' :: (Json.fieldChars event.fields ++ ['\x7d']) := by
    rw [serialize, Json.compactRecord, String.toList_ofList]
    rfl
  -- each of the five fields has a character at least
  obtain ⟨steps, enough⟩ :
      ∃ k, Json.stepsFor (Json.fieldChars event.fields ++ ['\x7d']) = k + 6 := by
    refine ⟨_, (Nat.sub_add_cancel ?_).symm⟩
    simp only [Json.stepsFor, fields, Json.fieldChars_cons, List.flatMap_cons, List.length_append,
      List.length_cons]
    omega
  have reads := readFields_fields valid punctual low high formed plain steps []
  rw [← enough] at reads
  rw [Event.parse, Event.read, text, Json.dropSpace_of_not_isSpace rfl]
  simp only [ok_bind, reads, Draft.toEvent?]
  rfl

/-- The same event at the instant that its text shows. -/
def settled (event : Event) : Event := { event with occurredAt := event.occurredAt.settled }

/-- **The event that is read back from a stored text** is the one at the instant that the text
shows. -/
theorem parse_serialize_settled {event : Event} (valid : event.occurredAt.Valid)
    (low : 0 ≤ event.occurredAt.date.year) (high : event.occurredAt.date.year ≤ 9999)
    (formed : Formed 126 event.payload) (plain : Exact event.payload) :
    Event.parse event.serialize = .ok event.settled := by
  have text : event.settled.serialize = event.serialize := by
    simp only [serialize, fields, settled, Time.Instant.zuluText_settled valid]
  rw [← text]
  refine parse_serialize valid.settled (Time.Instant.punctual_settled valid) ?_ ?_ formed plain
  · simpa [settled] using low
  · simpa [settled] using high

/-- An event settles as it is if its instant does. -/
theorem settled_eq_self_iff {event : Event} :
    event.settled = event ↔ event.occurredAt.Punctual := by
  rw [← Time.Instant.settled_eq_self_iff]
  exact ⟨congrArg occurredAt, fun same => by rw [settled, same]⟩

/-! ## From a text to an event -/

/-- What is read has a punctual instant and a well-formed payload. -/
structure Sound (event : Event) : Prop where
  valid : event.occurredAt.Valid
  punctual : event.occurredAt.Punctual
  formed : Formed 126 event.payload

/-- So has a draft, as far as it has them. -/
def Draft.Sound (draft : Draft) : Prop :=
  (∀ t ∈ draft.occurredAt, t.Valid ∧ t.Punctual) ∧ ∀ v ∈ draft.payload, Formed 126 v

/-- A string is read as what it stands for, or not at all. -/
theorem parse?_of_readText {α : Type} {parse? : String → Option α} {cs rest : List Char} {a : α}
    (h : Draft.readText parse? cs = .ok (a, rest)) : ∃ s, parse? s = some a := by
  rw [Draft.readText] at h
  split at h
  case h_1 =>
    obtain ⟨⟨s, more⟩, -, h⟩ := bind_eq_ok_iff.mp h
    dsimp only at h
    split at h
    case h_1 a reads =>
      obtain ⟨rfl, -⟩ := Prod.mk.inj (Except.ok.inj h)
      exact ⟨s, reads⟩
    case h_2 => cases h
  case h_2 => cases h

theorem valid_of_readText {cs rest : List Char} {t : Time.Instant}
    (h : Draft.readText Time.Instant.parse? cs = .ok (t, rest)) : t.Valid ∧ t.Punctual := by
  obtain ⟨s, reads⟩ := parse?_of_readText h
  exact Time.Instant.valid_of_parse? reads

/-- The record is one level, and the reader allows one less than its limit. -/
theorem formed_of_readPayload {cs rest : List Char} {payload : Json}
    (h : Draft.readPayload cs = .ok (payload, rest)) : Formed 126 payload :=
  Json.formed_of_read h

/-- A field of the record is read once, after a colon. -/
theorem of_unset {α : Type} {old : Option α} {reader : List Char → Json.Reading (α × List Char)}
    (put : α → Draft) {cs rest : List Char} {next : Draft}
    (h : (do
      Draft.unset old
      let ((), rest) ← Json.readColon cs
      let (a, rest) ← reader rest
      return (put a, rest)) = .ok (next, rest)) :
    ∃ a cs, reader cs = .ok (a, rest) ∧ next = put a := by
  obtain ⟨⟨⟩, -, h⟩ := bind_eq_ok_iff.mp h
  obtain ⟨⟨⟨⟩, cs⟩, -, h⟩ := bind_eq_ok_iff.mp h
  obtain ⟨⟨a, more⟩, reads, h⟩ := bind_eq_ok_iff.mp h
  obtain ⟨rfl, rfl⟩ := Prod.mk.inj (Except.ok.inj h)
  exact ⟨a, cs, reads, rfl⟩

/-- A draft stays sound with one more field. -/
theorem Draft.Sound.readField {draft next : Draft} {field : String} {cs rest : List Char}
    (sound : draft.Sound) (h : draft.readField field cs = .ok (next, rest)) : next.Sound := by
  obtain ⟨time, payload⟩ := sound
  rw [Draft.readField] at h
  -- one case for each field of the record, and one for all others
  split at h
  case isTrue =>
    obtain ⟨id, _, -, rfl⟩ := of_unset (fun id => { draft with id := some id }) h
    exact ⟨time, payload⟩
  split at h
  case isTrue =>
    obtain ⟨name, _, -, rfl⟩ := of_unset (fun name => { draft with name := some name }) h
    exact ⟨time, payload⟩
  split at h
  case isTrue =>
    obtain ⟨aggregateId, _, -, rfl⟩ :=
      of_unset (fun aggregateId => { draft with aggregateId := some aggregateId }) h
    exact ⟨time, payload⟩
  split at h
  case isTrue =>
    obtain ⟨t, _, reads, rfl⟩ := of_unset (fun t => { draft with occurredAt := some t }) h
    refine ⟨?_, payload⟩
    rintro _ ⟨⟩
    exact valid_of_readText reads
  split at h
  case isTrue =>
    obtain ⟨v, _, reads, rfl⟩ := of_unset (fun v => { draft with payload := some v }) h
    refine ⟨time, ?_⟩
    rintro _ ⟨⟩
    exact formed_of_readPayload reads
  obtain ⟨⟨⟨⟩, cs⟩, -, h⟩ := bind_eq_ok_iff.mp h
  obtain ⟨⟨⟨⟩, cs⟩, -, h⟩ := bind_eq_ok_iff.mp h
  obtain ⟨rfl, -⟩ := Prod.mk.inj (Except.ok.inj h)
  exact ⟨time, payload⟩

/-- A draft stays sound with all its fields. -/
theorem Draft.Sound.readFields {steps : Nat} {first : Bool} {draft final : Draft}
    {cs rest : List Char} (sound : draft.Sound)
    (h : draft.readFields steps first cs = .ok (final, rest)) : final.Sound := by
  induction steps generalizing first draft cs with
  | zero => cases h
  | succ steps ih =>
    rw [Draft.readFields] at h
    obtain ⟨⟨another, cs⟩, -, h⟩ := bind_eq_ok_iff.mp h
    cases another with
    | false =>
      obtain ⟨rfl, -⟩ := Prod.mk.inj (Except.ok.inj h)
      exact sound
    | true =>
      obtain ⟨⟨field, cs⟩, -, h⟩ := bind_eq_ok_iff.mp h
      obtain ⟨⟨next, cs⟩, reads, h⟩ := bind_eq_ok_iff.mp h
      exact ih (sound.readField reads) h

theorem Draft.Sound.toEvent? {draft : Draft} {event : Event} (sound : draft.Sound)
    (h : draft.toEvent? = some event) : event.Sound := by
  rw [Draft.toEvent?] at h
  obtain ⟨id, -, h⟩ := Option.bind_eq_some_iff.mp h
  obtain ⟨name, -, h⟩ := Option.bind_eq_some_iff.mp h
  obtain ⟨aggregateId, -, h⟩ := Option.bind_eq_some_iff.mp h
  obtain ⟨occurredAt, time, h⟩ := Option.bind_eq_some_iff.mp h
  obtain ⟨payload, value, h⟩ := Option.bind_eq_some_iff.mp h
  obtain rfl := Option.some.inj h
  obtain ⟨valid, punctual⟩ := sound.1 _ time
  exact ⟨valid, punctual, sound.2 _ value⟩

theorem sound_of_readItems {cs rest : List Char} {event : Event}
    (h : readItems cs = .ok (event, rest)) : event.Sound := by
  rw [readItems] at h
  obtain ⟨cs, -, h⟩ := bind_eq_ok_iff.mp h
  obtain ⟨⟨id, cs⟩, -, h⟩ := bind_eq_ok_iff.mp h
  obtain ⟨cs, -, h⟩ := bind_eq_ok_iff.mp h
  obtain ⟨⟨name, cs⟩, -, h⟩ := bind_eq_ok_iff.mp h
  obtain ⟨cs, -, h⟩ := bind_eq_ok_iff.mp h
  obtain ⟨⟨aggregateId, cs⟩, -, h⟩ := bind_eq_ok_iff.mp h
  obtain ⟨cs, -, h⟩ := bind_eq_ok_iff.mp h
  obtain ⟨⟨occurredAt, cs⟩, time, h⟩ := bind_eq_ok_iff.mp h
  obtain ⟨cs, -, h⟩ := bind_eq_ok_iff.mp h
  obtain ⟨⟨payload, cs⟩, value, h⟩ := bind_eq_ok_iff.mp h
  dsimp only at h
  split at h
  case h_1 =>
    obtain ⟨rfl, -⟩ := Prod.mk.inj (Except.ok.inj h)
    obtain ⟨valid, punctual⟩ := valid_of_readText time
    exact ⟨valid, punctual, formed_of_readPayload value⟩
  case h_2 => cases h
  case h_3 => cases h

/-- What is read can be stored, whatever text it was read from. -/
theorem sound_of_parse {text : String} {event : Event} (h : Event.parse text = .ok event) :
    event.Sound := by
  rw [Event.parse] at h
  obtain ⟨⟨found, rest⟩, reads, h⟩ := bind_eq_ok_iff.mp h
  dsimp only at h
  split at h
  case isFalse => cases h
  case isTrue =>
    obtain rfl := Except.ok.inj h
    rw [Event.read] at reads
    split at reads
    case h_1 => exact sound_of_readItems reads
    case h_2 =>
      obtain ⟨⟨draft, more⟩, fields, reads⟩ := bind_eq_ok_iff.mp reads
      have empty : ({} : Draft).Sound := ⟨nofun, nofun⟩
      dsimp only at reads
      split at reads
      case h_1 complete =>
        obtain ⟨rfl, -⟩ := Prod.mk.inj (Except.ok.inj reads)
        exact (empty.readFields fields).toEvent? complete
      case h_2 => cases reads
    case h_3 => cases reads

/-! ## Both ways -/

/-- An event whose payload has no doubles is the same as no other. -/
theorem eq_of_same {a b : Event} (plain : Exact a.payload) (h : a.same b = true) : a = b := by
  simp only [same, Bool.and_eq_true, beq_iff_eq] at h
  obtain ⟨⟨⟨⟨id, name⟩, aggregateId⟩, occurredAt⟩, payload⟩ := h
  have payload := Json.eq_of_same plain b.payload payload
  cases a
  cases b
  congr

/-- **Stored events are read back.** If four digits are enough for the year of an event and its
payload is a value without doubles that is nested at most 126 deep, then it is read back from its
stored text exactly if its instant is punctual. An event that was read from any text, stored or not,
is read back from its own stored text under the same conditions on year and doubles: what is read
keeps to the others. -/
theorem stored_events_are_read_back :
    (∀ event : Event, event.occurredAt.Valid →
      0 ≤ event.occurredAt.date.year → event.occurredAt.date.year ≤ 9999 →
      Formed 126 event.payload → Exact event.payload →
      (Event.parse event.serialize = .ok event ↔ event.occurredAt.Punctual)) ∧
    ∀ (text : String) (event : Event), Event.parse text = .ok event →
      0 ≤ event.occurredAt.date.year → event.occurredAt.date.year ≤ 9999 →
      Exact event.payload →
      Event.parse event.serialize = .ok event := by
  constructor
  · intro event valid low high formed plain
    rw [parse_serialize_settled valid low high formed plain, Except.ok.injEq]
    exact settled_eq_self_iff
  · intro text event reads low high plain
    have sound := sound_of_parse reads
    exact parse_serialize sound.valid sound.punctual low high sound.formed plain

/-- An event of a leap second, with a name, an aggregate and a payload that need escapes. -/
def leapEvent : Event where
  id := ⟨0x00112233445566778899aabbccddeeff⟩
  name := "clock.\"step\"\n"
  aggregateId := "é\t\\"
  occurredAt := ⟨⟨2016, 12, 31⟩, 86399, 1500000000⟩
  payload := .obj [("a", .arr [.null, .bool true, .int (-1)]), ("b", .str "\x01")]

/-- The event in an array, with another form of its time and with other escapes. -/
def leapText : String :=
  "[\"00112233-4455-6677-8899-AABBCCDDEEFF\", \"clock.\\u0022step\\u0022\\n\", " ++
  "\"\\u00e9\\t\\\\\", \"2017-01-01 01:59:60.5+02:00\", " ++
  "\x7b\"b\":\"\\u0001\",\"a\":[null,true,-1]\x7d]"

theorem sound_leapEvent : leapEvent.Sound := by
  refine ⟨⟨rfl, by decide, by decide⟩, fun _ => by decide, ?_⟩
  refine .obj (by decide) (List.forall_mem_cons.mpr ⟨.arr ?_, ?_⟩)
  · exact List.forall_mem_cons.mpr ⟨.null, List.forall_mem_cons.mpr
      ⟨.bool true, List.forall_mem_singleton.mpr (.int (by decide) (by decide))⟩⟩
  · exact List.forall_mem_singleton.mpr (.str _)

theorem exact_leapEvent : Exact leapEvent.payload := by
  refine .obj (List.forall_mem_cons.mpr ⟨.arr ?_, List.forall_mem_singleton.mpr (.str _)⟩)
  exact List.forall_mem_cons.mpr ⟨.null, List.forall_mem_cons.mpr
    ⟨.bool true, List.forall_mem_singleton.mpr (.int (-1))⟩⟩

/-- The event is read from both texts. -/
theorem stored_events_are_read_back_leap :
    (leapEvent.Sound ∧ Exact leapEvent.payload ∧
      Event.parse leapEvent.serialize = .ok leapEvent) ∧
    ∃ event, Event.parse leapText = .ok event ∧ event = leapEvent ∧
      Event.parse event.serialize = .ok event := by
  have sound := sound_leapEvent
  have plain := exact_leapEvent
  have found : (Event.parse leapText).toOption.any leapEvent.same = true := by decide +kernel
  obtain ⟨event, reads, same⟩ := (Option.any_eq_true _ _).mp found
  have reads : Event.parse leapText = .ok event := by
    cases outcome : Event.parse leapText with
    | error fault => simp [outcome, Except.toOption] at reads
    | ok read => simp_all [Except.toOption]
  obtain rfl := eq_of_same plain same
  have back := (stored_events_are_read_back.1 leapEvent sound.valid (by decide) (by decide)
    sound.formed plain).mpr sound.punctual
  exact ⟨⟨sound, plain, back⟩, leapEvent, reads, rfl,
    stored_events_are_read_back.2 leapText leapEvent reads (by decide) (by decide) plain⟩

/-- The same event in a leap second after 23:56:04, which no calendar has. -/
def earlyLeapEvent : Event :=
  { leapEvent with occurredAt := ⟨⟨2016, 12, 31⟩, 86164, 1500000000⟩ }

/-- **Leap seconds inside of a minute are lost**: such an event is read back a second later, as
another event. -/
theorem leap_second_inside_minute_is_lost :
    earlyLeapEvent.occurredAt.Valid ∧ earlyLeapEvent.occurredAt.date.year = 2016 ∧
    Formed 126 earlyLeapEvent.payload ∧ Exact earlyLeapEvent.payload ∧
    Event.parse earlyLeapEvent.serialize =
      .ok { earlyLeapEvent with occurredAt := ⟨⟨2016, 12, 31⟩, 86165, 500000000⟩ } ∧
    Event.parse earlyLeapEvent.serialize ≠ .ok earlyLeapEvent := by
  have valid : earlyLeapEvent.occurredAt.Valid := ⟨rfl, by decide, by decide⟩
  have formed : Formed 126 earlyLeapEvent.payload := sound_leapEvent.formed
  have plain : Exact earlyLeapEvent.payload := exact_leapEvent
  have back := parse_serialize_settled valid (by decide) (by decide) formed plain
  refine ⟨valid, rfl, formed, plain, back, ?_⟩
  rw [back]
  intro same
  have punctual := settled_eq_self_iff.mp (Except.ok.inj same)
  exact absurd (punctual (by decide)) (by decide)

end DomainEvents.Event
