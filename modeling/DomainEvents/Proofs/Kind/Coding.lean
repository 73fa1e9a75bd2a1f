import DomainEvents.Bus.Delivery
import DomainEvents.Bus.Pool
import DomainEvents.Catalog.Order
import Mathlib.Data.List.Forall2
import Mathlib.Data.List.Nodup

/-!
# The coding of kinds

A kind comes from a declaration by its expansion, and everything that is done with its events goes
by their names. The expansion refuses names that no event can have and names that are used before
(`Kind.Bound`, `Kind.bindAll_bound`), so the names of a kind are names of events, each of one
variant only. Hence what a value says is read from its event as it was written, and an event of any
other name is told apart from an event with a payload of the wrong form.
-/

namespace DomainEvents

namespace Kind

/-! ## Expansions -/

/-- A binding is the one of a declared variant, in a kind with a namespace or without. -/
structure Bound (space? : Option String) (v : VariantDeclaration) (b : Binding) : Prop where
  ident : b.ident = v.ident
  contents : v.contents.hasPayload = .ok b.hasPayload
  name : v.resolveName space? = .ok b.name
  /-- events can have the name -/
  valid : Event.isName b.name = true

/-- What binds a variant gives it a name that is not used before. -/
theorem bound_of_bind {space? : Option String} {used : List String} {v : VariantDeclaration}
    {b : Binding} (binds : v.bind space? used = .ok b) : Bound space? v b ∧ b.name ∉ used := by
  rw [VariantDeclaration.bind] at binds
  rcases contents : v.contents.hasPayload with _ | hasPayload
  · rw [contents] at binds
    cases binds
  rcases resolved : v.resolveName space? with _ | name
  · rw [contents, resolved] at binds
    cases binds
  rw [contents, resolved] at binds
  by_cases valid : Event.isName name = true
  · by_cases taken : name ∈ used
    · simp [bind, Except.bind, checkName_eq, valid, taken] at binds
    · obtain rfl : ⟨v.ident, name, hasPayload⟩ = b := by
        simpa [bind, Except.bind, pure, Except.pure, checkName_eq, valid, taken] using binds
      exact ⟨⟨rfl, contents, resolved, valid⟩, taken⟩
  · simp [bind, Except.bind, checkName_eq, valid] at binds

/-- **Each declared variant has its binding, and no two have the same name.** -/
theorem bindAll_bound {space? : Option String} {vs : List VariantDeclaration} {used : List String}
    {bs : List Binding} (binds : bindAll space? used vs = .ok bs) :
    List.Forall₂ (Bound space?) vs bs ∧ (used.Nodup → (used ++ bs.map (·.name)).Nodup) := by
  -- by induction on the variants, where a variant bound first is used for the ones after it
  induction vs generalizing used bs with
  | nil =>
    obtain rfl : [] = bs := Except.ok.inj binds
    exact ⟨.nil, by simp⟩
  | cons v rest ih =>
    rw [bindAll] at binds
    rcases first : v.bind space? used with _ | b
    · rw [first] at binds
      cases binds
    rcases others : bindAll space? (used ++ [b.name]) rest with _ | more
    · simp [first, others, bind, Except.bind] at binds
    obtain rfl : b :: more = bs := by
      simpa [first, others, bind, Except.bind, pure, Except.pure] using binds
    obtain ⟨bound, unused⟩ := bound_of_bind first
    obtain ⟨all, distinct⟩ := ih others
    refine ⟨.cons bound all, ?_⟩
    intro before
    have longer : (used ++ [b.name]).Nodup :=
      List.nodup_append.mpr ⟨before, List.nodup_singleton _, by
        intro n hn m hm
        obtain rfl := List.mem_singleton.mp hm
        rintro rfl
        exact unused hn⟩
    simpa using distinct longer

/-- Every binding has a name that events can have. -/
theorem isName_of_bound {space? : Option String} {vs : List VariantDeclaration} {bs : List Binding}
    (bound : List.Forall₂ (Bound space?) vs bs) : ∀ b ∈ bs, Event.isName b.name = true := by
  induction bound with
  | nil => exact nofun
  | cons first _ ih => exact List.forall_mem_cons.mpr ⟨first.valid, ih⟩

/-- The bindings of an expansion are those of the variants, under distinct names. -/
theorem bound_of_expand {d : Declaration} {bs : List Binding} (expands : d.expand = .ok bs) :
    ∃ space?, readAttributes "namespace" none d.attributes = .ok space? ∧
      List.Forall₂ (Bound space?) d.variants bs ∧ (bs.map (·.name)).Nodup := by
  rw [Declaration.expand] at expands
  cases enumeration : d.isEnumeration with
  | false => simp [enumeration] at expands
  | true =>
    rcases space : readAttributes "namespace" none d.attributes with _ | space?
    · simp [enumeration, space, bind, Except.bind] at expands
    rcases binds : bindAll space? [] d.variants with _ | found
    · simp [enumeration, space, binds, bind, Except.bind] at expands
    obtain rfl : found = bs := by
      cases found with
      | nil => simp [enumeration, space, binds, bind, Except.bind] at expands
      | cons =>
        simpa [enumeration, space, binds, bind, Except.bind, pure, Except.pure] using expands
    obtain ⟨all, distinct⟩ := bindAll_bound binds
    exact ⟨space?, rfl, all, by simpa using distinct⟩

variable {d : Declaration} {bs : List Binding} {payload : String → Option PayloadType}

/-- The variants of a kind, by its bindings. -/
theorem variants_of_expand (expands : d.expand = .ok bs) :
    (ofDeclaration d payload).variants =
      bs.map fun b => ⟨b, if b.hasPayload then payload b.ident else none⟩ := by
  rw [ofDeclaration, expands]

theorem bindings_of_expand (expands : d.expand = .ok bs) :
    (ofDeclaration d payload).variants.map (·.binding) = bs := by
  rw [variants_of_expand expands, List.map_map]
  exact List.map_id bs

theorem names_of_expand (expands : d.expand = .ok bs) :
    (ofDeclaration d payload).names = bs.map (·.name) := by
  rw [names, variants_of_expand expands, List.map_map]
  rfl

end Kind

/-! ## Payloads -/

namespace Variant

/-- Whether what a value carries is read again as it was written; so it is if there is nothing to
carry. -/
def RoundTrips : (v : Variant) → v.Data → Prop
  | ⟨_, none⟩, _ => True
  | ⟨_, some type⟩, data =>
    ∃ written, type.codec.encode data = .ok written ∧ type.codec.decode written = .ok data

theorem decode_encode {v : Variant} {data : v.Data} (roundTrips : v.RoundTrips data) :
    ∃ written, v.encode data = .ok written ∧ v.decode written = .ok data := by
  obtain ⟨binding, _ | type⟩ := v
  · exact ⟨.null, rfl, rfl⟩
  · obtain ⟨written, encodes, decodes⟩ := roundTrips
    refine ⟨written, ?_, ?_⟩
    · rw [encode, encodes]
      rfl
    · rw [decode, decodes]
      rfl

/-- Only a variant with a payload can fail to read one, and says then which name it was for. -/
theorem decode_cases (v : Variant) (written : Json) :
    (∃ data, v.decode written = .ok data) ∨
      ∃ type cause, v.payload = some type ∧ type.codec.decode written = .error cause ∧
        v.decode written = .error (.decode v.name cause) := by
  obtain ⟨binding, _ | type⟩ := v
  · exact .inl ⟨(), rfl⟩
  · rcases decodes : type.codec.decode written with cause | data
    · refine .inr ⟨type, cause, rfl, decodes, ?_⟩
      rw [decode, decodes]
      rfl
    · refine .inl ⟨data, ?_⟩
      rw [decode, decodes]
      rfl

end Variant

/-! ## Reading -/

namespace Kind

variable {k : Kind} {event : Event}

theorem covers_iff (k : Kind) (name : String) :
    k.covers name = true ↔ ∃ v ∈ k.variants, v.name = name := by
  simp [covers, names]

/-- An event is read as the first variant of its name. -/
theorem decode_of_found {v : Variant}
    (found : k.variants.find? (·.name == event.name) = some v) :
    k.decode event =
      (v.decode event.payload).map fun data => ⟨v, List.mem_of_find?_eq_some found, data⟩ := by
  rw [decode]
  split
  case h_1 missing =>
    rw [found] at missing
    cases missing
  case h_2 w there =>
    obtain rfl : v = w := Option.some.inj (found.symm.trans there)
    rfl

/-- An event of a name that the kind does not have is not read at all. -/
theorem decode_of_not_covers (uncovered : k.covers event.name = false) :
    k.decode event = .error (.unknownKind event.name) := by
  have missing : k.variants.find? (·.name == event.name) = none := by
    refine List.find?_eq_none.mpr ?_
    intro v there same
    have covered := (k.covers_iff event.name).mpr ⟨v, there, by simpa using same⟩
    rw [uncovered] at covered
    cases covered
  rw [decode]
  split
  case h_1 => rfl
  case h_2 v there =>
    rw [missing] at there
    cases there

/-- What an event of a name that the kind has comes to: it says a value of that name, or its payload
is not of the type that the variant of that name asks for. -/
theorem decode_of_covers (covered : k.covers event.name = true) :
    ∃ v, ∃ there : v ∈ k.variants, v.name = event.name ∧
      ((∃ data, v.decode event.payload = .ok data ∧ k.decode event = .ok ⟨v, there, data⟩) ∨
        ∃ type cause, v.payload = some type ∧ type.codec.decode event.payload = .error cause ∧
          k.decode event = .error (.decode event.name cause)) := by
  obtain ⟨w, hw, same⟩ := (k.covers_iff event.name).mp covered
  obtain ⟨v, found⟩ : ∃ v, k.variants.find? (·.name == event.name) = some v := by
    rw [← Option.isSome_iff_exists, List.find?_isSome]
    exact ⟨w, hw, by simpa using same⟩
  have name : v.name = event.name := by simpa using List.find?_some found
  refine ⟨v, List.mem_of_find?_eq_some found, name, ?_⟩
  rw [decode_of_found found]
  rcases v.decode_cases event.payload with ⟨data, reads⟩ | ⟨type, cause, typed, fails, refuses⟩
  · refine .inl ⟨data, reads, ?_⟩
    rw [reads]
    rfl
  · refine .inr ⟨type, cause, typed, fails, ?_⟩
    rw [refuses, name]
    rfl

/-- Reading tells of an unknown kind when the kind does not have the name, and at no other time. -/
theorem unknownKind_iff (k : Kind) (event : Event) (name : String) :
    k.decode event = .error (.unknownKind name) ↔
      k.covers event.name = false ∧ name = event.name := by
  constructor
  · intro unknown
    cases covered : k.covers event.name with
    | false =>
      rw [decode_of_not_covers covered] at unknown
      obtain rfl := PayloadError.unknownKind.inj (Except.error.inj unknown)
      exact ⟨rfl, rfl⟩
    | true =>
      obtain ⟨v, there, -, ⟨data, -, reads⟩ | ⟨type, cause, -, -, fails⟩⟩ :=
        decode_of_covers covered
      · rw [reads] at unknown
        cases unknown
      · rw [fails] at unknown
        cases unknown
  · rintro ⟨uncovered, rfl⟩
    exact decode_of_not_covers uncovered

/-- The value that is read from an event bears the name of the event. -/
theorem eventName_of_decode {value : k.Value} (reads : k.decode event = .ok value) :
    k.covers event.name = true ∧ value.eventName = event.name := by
  cases covered : k.covers event.name with
  | false =>
    rw [decode_of_not_covers covered] at reads
    cases reads
  | true =>
    obtain ⟨v, there, name, ⟨data, -, decodes⟩ | ⟨type, cause, -, -, fails⟩⟩ :=
      decode_of_covers covered
    · rw [decodes] at reads
      obtain rfl := Except.ok.inj reads
      exact ⟨rfl, name⟩
    · rw [fails] at reads
      cases reads

/-- Where names are distinct, a variant is the one that is found by its name. -/
theorem eq_of_name (distinct : k.names.Nodup) {v w : Variant} (hv : v ∈ k.variants)
    (hw : w ∈ k.variants) (same : v.name = w.name) : v = w :=
  List.inj_on_of_nodup_map distinct hv hw same

/-- The event that says a value is read as that value again. -/
theorem decode_toEvent (distinct : k.names.Nodup) (value : k.Value)
    (roundTrips : value.variant.RoundTrips value.data) (id : Uuid) (aggregateId : String)
    (occurredAt : Time.Instant) :
    ∃ event, value.toEvent id aggregateId occurredAt = .ok event ∧
      event.name = value.eventName ∧ k.decode event = .ok value := by
  obtain ⟨v, hv, data⟩ := value
  obtain ⟨written, encodes, decodes⟩ := Variant.decode_encode roundTrips
  let event : Event := ⟨id, v.name, aggregateId, occurredAt, written⟩
  refine ⟨event, ?_, rfl, ?_⟩
  · rw [Value.toEvent, Value.encode, encodes]
    rfl
  · obtain ⟨w, found⟩ : ∃ w, k.variants.find? (·.name == event.name) = some w := by
      rw [← Option.isSome_iff_exists, List.find?_isSome]
      exact ⟨v, hv, by simp [event]⟩
    have name : w.name = v.name := by simpa [event] using List.find?_some found
    obtain rfl := eq_of_name distinct hv (List.mem_of_find?_eq_some found) name.symm
    rw [decode_of_found found, decodes]
    rfl

/-- **The events of a kind are written and read without confusion.** Take a declaration that has an
expansion, with any types of payloads. The kind has the variants that are declared, in their order,
and no two of them have the same name. Each value whose payload is read again as it was written, or
that has none, can be said by an event: the event has the name of the value, which is one of the
kind, no bus refuses it as malformed, and what is read from it is the value itself. And whatever
event there is: it is of an unknown kind exactly if the kind does not have its name; otherwise it is
read as the only variant of its name, or that variant has a payload and the one of the event is not
of its type. -/
theorem coding_is_faithful (expands : d.expand = .ok bs) :
    let k := ofDeclaration d payload
    (∃ space?, readAttributes "namespace" none d.attributes = .ok space? ∧
        List.Forall₂ (Bound space?) d.variants (k.variants.map (·.binding))) ∧
      (∀ v ∈ k.variants, v.payload = if v.binding.hasPayload then payload v.ident else none) ∧
      k.names.Nodup ∧
      (∀ value : k.Value, value.variant.RoundTrips value.data →
        ∀ id aggregateId occurredAt, ∃ event,
          value.toEvent id aggregateId occurredAt = .ok event ∧ event.name = value.eventName ∧
          event.name ∈ k.names ∧ event.validate = .ok () ∧
          (∀ (H : Type) (p : Bus.Pool H), p.check event = .ok ()) ∧
          (∀ (H : Type) config (entries : List (Subscription H)), ∃ delivery,
            Bus.Delivery.start config entries event = .ok delivery) ∧
          k.decode event = .ok value) ∧
      ∀ event,
        (∀ name, k.decode event = .error (.unknownKind name) ↔
          k.covers event.name = false ∧ name = event.name) ∧
        (k.covers event.name = true → ∃ v, ∃ there : v ∈ k.variants, v.name = event.name ∧
          (∀ w ∈ k.variants, w.name = event.name → w = v) ∧
          ((∃ data, v.decode event.payload = .ok data ∧ k.decode event = .ok ⟨v, there, data⟩) ∨
            ∃ type cause, v.payload = some type ∧
              type.codec.decode event.payload = .error cause ∧
              k.decode event = .error (.decode event.name cause))) := by
  intro k
  obtain ⟨space?, space, bound, distinct⟩ := bound_of_expand expands
  have names : k.names = bs.map (·.name) := names_of_expand expands
  have bindings : k.variants.map (·.binding) = bs := bindings_of_expand expands
  rw [← names] at distinct
  refine ⟨⟨space?, space, by rwa [bindings]⟩, ?_, distinct, ?_, ?_⟩
  · intro v hv
    rw [show k.variants = _ from variants_of_expand expands] at hv
    obtain ⟨b, -, rfl⟩ := List.mem_map.mp hv
    rfl
  · intro value roundTrips id aggregateId occurredAt
    obtain ⟨event, told, name, reads⟩ :=
      decode_toEvent distinct value roundTrips id aggregateId occurredAt
    have own : value.variant.binding ∈ bs := by
      rw [← bindings]
      exact List.mem_map_of_mem value.mem
    have valid : event.validate = .ok () := by
      rw [Event.validate, name]
      exact (Event.checkName_eq_ok_iff _).mpr (isName_of_bound bound _ own)
    refine ⟨event, told, name, ?_, valid, ?_, ?_, reads⟩
    · rw [name]
      exact List.mem_map_of_mem value.mem
    · intro H p
      rw [Bus.Pool.check, valid, ite_self]
    · intro H config entries
      refine ⟨.turnTo 0 entries, ?_⟩
      rw [Bus.Delivery.start, valid]
      cases config.validateEvents <;> rfl
  · intro event
    refine ⟨fun name => k.unknownKind_iff event name, ?_⟩
    intro covered
    obtain ⟨v, there, name, reads⟩ := decode_of_covers covered
    refine ⟨v, there, name, ?_, reads⟩
    intro w hw same
    exact eq_of_name distinct hw there (same.trans name.symm)

/-- A placed order goes into an event and comes out of it again. -/
theorem coding_is_faithful_order :
    ∃ (bs : List Binding) (value : Catalog.order.Value) (event : Event),
      Catalog.orderDeclaration.expand = .ok bs ∧ value.variant.ident = "Placed" ∧
      value.variant.RoundTrips value.data ∧
      value.toEvent default "cart" default = .ok event ∧ event.name = "order.placed" ∧
      event.validate = .ok () ∧ Catalog.order.decode event = .ok value := by
  obtain ⟨bs, expands, first⟩ : ∃ bs, Catalog.orderDeclaration.expand = .ok bs ∧
      bs.head? = some ⟨"Placed", "order.placed", true⟩ := ⟨_, rfl, rfl⟩
  let placed : Variant :=
    ⟨⟨"Placed", "order.placed", true⟩, some { Carrier := _, codec := Catalog.orderPlaced }⟩
  have there : placed ∈ Catalog.order.variants := by
    rw [show Catalog.order.variants = _ from variants_of_expand expands]
    exact List.mem_map.mpr ⟨_, List.mem_of_mem_head? first, rfl⟩
  let value : Catalog.order.Value := ⟨placed, there, (⟨"Ann", 1250⟩ : Catalog.OrderPlaced)⟩
  have roundTrips : value.variant.RoundTrips value.data := ⟨_, rfl, rfl⟩
  obtain ⟨-, -, -, values, -⟩ :=
    @coding_is_faithful _ Catalog.orderPayload _ expands
  obtain ⟨event, told, name, -, valid, -, -, reads⟩ :=
    values value roundTrips default "cart" default
  exact ⟨bs, value, event, expands, rfl, roundTrips, told, name, valid, reads⟩

end Kind

end DomainEvents
