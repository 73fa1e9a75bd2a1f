import DomainEvents.Json.Reader
import Mathlib.Algebra.Order.Ring.Int
import Mathlib.Data.String.Basic

/-!
# Well-formed values

The type of JSON values has more than there are values: whole numbers of any size, and objects whose
fields are in disorder. `Json.Formed` says which ones there are, and how deep arrays and objects may
be nested in them. A reader gives nothing else (`Json.formed_of_read`), since it keeps the fields of
an object in order while it reads them, and takes one level off the depth that is left wherever it
goes into an array or an object.
-/

namespace DomainEvents.Json

/-! ## Values -/

/-- Fields in the order of their names, each name once. -/
def InOrder (fields : List (String × Json)) : Prop := (fields.map (·.1)).Pairwise (· < ·)

instance (fields : List (String × Json)) : Decidable (InOrder fields) :=
  inferInstanceAs (Decidable ((fields.map (·.1)).Pairwise (· < ·)))

/-- Values with whole numbers of 64 bits and with their fields in order, and with arrays and objects
nested at most so deep. -/
inductive Formed : Nat → Json → Prop where
  | null {n : Nat} : Formed n .null
  | bool {n : Nat} (b : Bool) : Formed n (.bool b)
  | int {n : Nat} {i : Int} (low : -2 ^ 63 ≤ i) (high : i < 2 ^ 64) : Formed n (.int i)
  | double {n : Nat} (d : Decimal.Double) : Formed n (.double d)
  | str {n : Nat} (s : String) : Formed n (.str s)
  | arr {n : Nat} {items : List Json} (each : ∀ v ∈ items, Formed n v) :
    Formed (n + 1) (.arr items)
  | obj {n : Nat} {fields : List (String × Json)} (order : InOrder fields)
    (each : ∀ f ∈ fields, Formed n f.2) : Formed (n + 1) (.obj fields)

/-- Values without doubles. -/
inductive Exact : Json → Prop where
  | null : Exact .null
  | bool (b : Bool) : Exact (.bool b)
  | int (i : Int) : Exact (.int i)
  | str (s : String) : Exact (.str s)
  | arr {items : List Json} (each : ∀ v ∈ items, Exact v) : Exact (.arr items)
  | obj {fields : List (String × Json)} (each : ∀ f ∈ fields, Exact f.2) : Exact (.obj fields)

theorem eq_of_sameItems {as bs : List Json} (h : sameItems as bs = true)
    (each : ∀ a ∈ as, ∀ b, a.same b = true → a = b) : as = bs := by
  induction as generalizing bs with
  | nil => cases bs with
    | nil => rfl
    | cons b bs => cases h
  | cons a as ih => cases bs with
    | nil => cases h
    | cons b bs =>
      rw [sameItems, Bool.and_eq_true] at h
      obtain ⟨one, others⟩ := List.forall_mem_cons.mp each
      rw [one b h.1, ih h.2 others]

theorem eq_of_sameFields {as bs : List (String × Json)} (h : sameFields as bs = true)
    (each : ∀ a ∈ as, ∀ b, a.2.same b = true → a.2 = b) : as = bs := by
  induction as generalizing bs with
  | nil => cases bs with
    | nil => rfl
    | cons b bs => cases h
  | cons a as ih => cases bs with
    | nil => cases h
    | cons b bs =>
      rw [sameFields, Bool.and_eq_true, Bool.and_eq_true, beq_iff_eq] at h
      obtain ⟨one, others⟩ := List.forall_mem_cons.mp each
      rw [Prod.ext h.1.1 (one b.2 h.1.2), ih h.2 others]

/-- Values without doubles are the same only if they are equal. -/
theorem eq_of_same {a : Json} (plain : Exact a) : ∀ b, a.same b = true → a = b := by
  induction plain with
  | null => rintro ⟨⟩ <;> simp [same]
  | bool => rintro ⟨⟩ <;> simp [same]
  | int => rintro ⟨⟩ <;> simp [same]
  | str => rintro ⟨⟩ <;> simp [same]
  | arr _ ih =>
    intro b h
    cases b with
    | arr bs => exact congrArg arr (eq_of_sameItems h ih)
    | _ => cases h
  | obj _ ih =>
    intro b h
    cases b with
    | obj bs => exact congrArg obj (eq_of_sameFields h ih)
    | _ => cases h

/-! ## Fields -/

theorem inOrder_cons {f : String × Json} {fields : List (String × Json)} :
    InOrder (f :: fields) ↔ (∀ g ∈ fields, f.1 < g.1) ∧ InOrder fields := by
  simp [InOrder]

/-- The fields before another one have names before its name. -/
theorem InOrder.before {f : String × Json} {fields later : List (String × Json)}
    (order : InOrder (fields ++ f :: later)) : ∀ g ∈ fields, g.1 < f.1 := by
  rw [InOrder, List.map_append, List.pairwise_append] at order
  obtain ⟨-, -, less⟩ := order
  intro g there
  exact less _ (List.mem_map_of_mem there) _ (List.mem_map_of_mem List.mem_cons_self)

/-- A field that is put among others is the only new one. -/
theorem eq_or_mem_of_mem_putField {name : String} {value : Json} {fields : List (String × Json)}
    {f : String × Json} (h : f ∈ putField name value fields) : f = (name, value) ∨ f ∈ fields := by
  induction fields with
  | nil => exact .inl (List.mem_singleton.mp h)
  | cons g rest ih =>
    obtain ⟨key, old⟩ := g
    rw [putField] at h
    split at h
    case isTrue same =>
      subst same
      rcases List.mem_cons.mp h with rfl | there
      · exact .inl rfl
      · exact .inr (List.mem_cons_of_mem _ there)
    case isFalse =>
      split at h
      case isTrue => exact List.mem_cons.mp h
      case isFalse =>
        rcases List.mem_cons.mp h with rfl | there
        · exact .inr List.mem_cons_self
        · exact (ih there).imp_right (List.mem_cons_of_mem _)

/-- Fields stay in order when one is put among them. -/
theorem InOrder.putField {fields : List (String × Json)} (order : InOrder fields) (name : String)
    (value : Json) : InOrder (putField name value fields) := by
  induction fields with
  | nil => exact List.pairwise_singleton _ _
  | cons g rest ih =>
    obtain ⟨key, old⟩ := g
    obtain ⟨least, later⟩ := inOrder_cons.mp order
    rw [Json.putField]
    split
    case isTrue same => exact inOrder_cons.mpr ⟨least, later⟩
    case isFalse other =>
      split
      case isTrue before =>
        refine inOrder_cons.mpr ⟨?_, order⟩
        intro f there
        rcases List.mem_cons.mp there with rfl | there
        · exact before
        · exact before.trans (least f there)
      case isFalse notBefore =>
        refine inOrder_cons.mpr ⟨?_, ih later⟩
        intro f there
        rcases eq_or_mem_of_mem_putField there with rfl | there
        · exact lt_of_le_of_ne (not_lt.mp notBefore) (Ne.symm other)
        · exact least f there

/-- A field whose name comes after all others is put at the end. -/
theorem putField_of_last {name : String} {fields : List (String × Json)}
    (last : ∀ f ∈ fields, f.1 < name) (value : Json) :
    putField name value fields = fields ++ [(name, value)] := by
  induction fields with
  | nil => rfl
  | cons g rest ih =>
    obtain ⟨key, old⟩ := g
    have before : key < name := last _ List.mem_cons_self
    rw [putField, if_neg before.ne', if_neg before.not_gt,
      ih fun f there => last f (List.mem_cons_of_mem _ there)]
    rfl

/-! ## Steps of a reader -/

theorem ok_bind {α β : Type} (a : α) (f : α → Reading β) : ((.ok a : Reading α) >>= f) = f a := rfl

theorem bind_eq_ok_iff {α β : Type} {x : Reading α} {f : α → Reading β} {b : β} :
    (x >>= f) = .ok b ↔ ∃ a, x = .ok a ∧ f a = .ok b := by
  cases x <;> simp [bind, Except.bind]

theorem map_eq_ok_iff {α β : Type} {x : Reading α} {f : α → β} {b : β} :
    x.map f = .ok b ↔ ∃ a, x = .ok a ∧ f a = b := by
  cases x <;> simp [Except.map]

/-! ## What is read -/

/-- A number is read as a double, or as a whole number of 64 bits. -/
theorem formed_of_numeral {n : Numeral} {v : Json} (h : n.value? = some v) (depth : Nat) :
    Formed depth v := by
  rw [Numeral.value?] at h
  split at h
  case h_1 i whole =>
    obtain rfl := Option.some.inj h
    rw [Numeral.int?] at whole
    split at whole
    case isTrue => cases whole
    case isFalse =>
      have pow : Nat.pow 2 63 = 2 ^ 63 := rfl
      have bound : wordBound = 2 ^ 64 := rfl
      simp only [pow, bound] at whole
      generalize ofDigits n.whole = value at whole
      split at whole
      case isTrue =>
        split at whole
        case isTrue fits =>
          obtain rfl := Option.some.inj whole
          simp only [Bool.and_eq_true, decide_eq_true_eq] at fits
          exact .int (by omega) (by omega)
        case isFalse => cases whole
      case isFalse =>
        split at whole
        case isTrue fits =>
          obtain rfl := Option.some.inj whole
          exact .int (by omega) (by omega)
        case isFalse => cases whole
  case h_2 =>
    obtain ⟨d, -, rfl⟩ := Option.map_eq_some_iff.mp h
    exact .double d

theorem formed_of_readNumber {negative : Bool} {cs rest : List Char} {v : Json}
    (h : readNumber negative cs = .ok (v, rest)) (depth : Nat) : Formed depth v := by
  rw [readNumber] at h
  obtain ⟨⟨whole, cs⟩, -, h⟩ := bind_eq_ok_iff.mp h
  obtain ⟨⟨fraction, cs⟩, -, h⟩ := bind_eq_ok_iff.mp h
  obtain ⟨⟨exponent, cs⟩, -, h⟩ := bind_eq_ok_iff.mp h
  dsimp only at h
  split at h
  case h_1 w value =>
    obtain ⟨rfl, -⟩ := Prod.mk.inj (Except.ok.inj h)
    exact formed_of_numeral value depth
  case h_2 => cases h

/-- What is read in a word or a string is well formed at any depth. -/
theorem formed_of_map {α : Type} {reading : Reading (α × List Char)} {make : α → Json}
    {rest : List Char} {v : Json} {n : Nat} (make_formed : ∀ a, Formed n (make a))
    (h : reading.map (fun (a, rest) => (make a, rest)) = .ok (v, rest)) : Formed n v := by
  obtain ⟨⟨a, more⟩, -, same⟩ := map_eq_ok_iff.mp h
  obtain ⟨rfl, -⟩ := Prod.mk.inj same
  exact make_formed a

/-- Readers give well-formed values, items and fields. -/
theorem formed_of_steps (steps : Nat) :
    (∀ {depth : Nat} {cs rest : List Char} {v : Json},
        readValue steps depth cs = .ok (v, rest) → Formed (depth - 1) v) ∧
      (∀ {depth : Nat} {first : Bool} {cs rest : List Char} {vs : List Json},
        readItems steps depth first cs = .ok (vs, rest) → ∀ v ∈ vs, Formed (depth - 1) v) ∧
      ∀ {depth : Nat} {first : Bool} {cs rest : List Char} {fields fs : List (String × Json)},
        readFields steps depth first fields cs = .ok (fs, rest) →
        InOrder fields → (∀ f ∈ fields, Formed (depth - 1) f.2) →
        InOrder fs ∧ ∀ f ∈ fs, Formed (depth - 1) f.2 := by
  induction steps with
  | zero => exact ⟨nofun, nofun, nofun⟩
  | succ steps ih =>
    obtain ⟨value, items, others⟩ := ih
    refine ⟨?_, ?_, ?_⟩
    · intro depth cs rest v h
      rw [readValue] at h
      split at h
      case h_1 => cases h
      -- one case for each character that a value can start with
      split at h
      case isTrue => exact formed_of_map (fun _ => .null) h
      split at h
      case isTrue => exact formed_of_map (fun _ => .bool true) h
      split at h
      case isTrue => exact formed_of_map (fun _ => .bool false) h
      split at h
      case isTrue => exact formed_of_readNumber h _
      split at h
      case isTrue => exact formed_of_readNumber h _
      split at h
      case isTrue => exact formed_of_map .str h
      split at h
      case isTrue =>
        split at h
        case h_1 => cases h
        case h_2 => cases h
        case h_3 depth deeper =>
          obtain ⟨⟨vs, more⟩, read, same⟩ := map_eq_ok_iff.mp h
          obtain ⟨rfl, -⟩ := Prod.mk.inj same
          obtain ⟨depth, rfl⟩ : ∃ d, depth = d + 1 := ⟨depth - 1, by grind⟩
          exact .arr (items read)
      split at h
      case isTrue =>
        split at h
        case h_1 => cases h
        case h_2 => cases h
        case h_3 depth deeper =>
          obtain ⟨⟨fs, more⟩, read, same⟩ := map_eq_ok_iff.mp h
          obtain ⟨rfl, -⟩ := Prod.mk.inj same
          obtain ⟨depth, rfl⟩ : ∃ d, depth = d + 1 := ⟨depth - 1, by grind⟩
          obtain ⟨order, each⟩ := others read List.Pairwise.nil nofun
          exact .obj order each
      cases h
    · intro depth first cs rest vs h
      rw [readItems] at h
      obtain ⟨⟨another, cs⟩, -, h⟩ := bind_eq_ok_iff.mp h
      cases another with
      | false =>
        obtain ⟨rfl, -⟩ := Prod.mk.inj (Except.ok.inj h)
        simp
      | true =>
        obtain ⟨⟨v, cs⟩, one, h⟩ := bind_eq_ok_iff.mp h
        obtain ⟨⟨vs, cs⟩, more, h⟩ := bind_eq_ok_iff.mp h
        obtain ⟨rfl, -⟩ := Prod.mk.inj (Except.ok.inj h)
        exact List.forall_mem_cons.mpr ⟨value one, items more⟩
    · intro depth first cs rest fields fs h order formed
      rw [readFields] at h
      obtain ⟨⟨another, cs⟩, -, h⟩ := bind_eq_ok_iff.mp h
      cases another with
      | false =>
        obtain ⟨rfl, -⟩ := Prod.mk.inj (Except.ok.inj h)
        exact ⟨order, formed⟩
      | true =>
        obtain ⟨⟨name, cs⟩, -, h⟩ := bind_eq_ok_iff.mp h
        obtain ⟨⟨⟨⟩, cs⟩, -, h⟩ := bind_eq_ok_iff.mp h
        obtain ⟨⟨v, cs⟩, one, h⟩ := bind_eq_ok_iff.mp h
        refine others h (order.putField name v) ?_
        intro f there
        rcases eq_or_mem_of_mem_putField there with rfl | there
        · exact value one
        · exact formed f there

/-- **A reader gives well-formed values.** Arrays and objects in them are nested less deep than the
reader was told. -/
theorem formed_of_read {steps depth : Nat} {cs rest : List Char} {v : Json}
    (h : readValue steps depth cs = .ok (v, rest)) : Formed (depth - 1) v :=
  (formed_of_steps steps).1 h

end DomainEvents.Json
