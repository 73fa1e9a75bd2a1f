import DomainEvents.Json.Printer
import DomainEvents.Proofs.Json.Formed

/-!
# Compact texts are read back

A value without doubles is read back from its compact text, whatever text comes after it. That text
matters for numbers only, which have no end of their own: it must not go on with something that
could still belong to one (`Json.Ends`). In compact texts there is a comma or a closing bracket or
brace.

A reader is given a number of steps, and takes one for each value, item or field. Their texts are
long enough to pay for that: two steps for every character suffice.
-/

namespace DomainEvents.Json

/-! ## Strings -/

theorem hexDigit?_digitChar : ∀ n < 16, hexDigit? (Nat.digitChar n) = some n := by decide

theorem utf8Size_digitChar : ∀ n < 16, (Nat.digitChar n).utf8Size = 1 := by decide

/-- The escape of a control is read as the control. -/
theorem readUnits_control {c : Char} (control : c.toNat < 0x20) (rest : List Char) :
    readUnits ('0' :: '0' :: Nat.digitChar (c.toNat / 16) :: Nat.digitChar (c.toNat % 16) :: rest) =
      .ok (c, rest) := by
  have high : c.toNat / 16 < 16 := by omega
  have low : c.toNat % 16 < 16 := by omega
  have zero : hexDigit? '0' = some 0 := rfl
  have small : '0'.utf8Size = 1 := rfl
  have number : c.toNat / 16 * 16 + c.toNat % 16 = c.toNat := by omega
  have reads : readHex4 ('0' :: '0' :: Nat.digitChar (c.toNat / 16) ::
      Nat.digitChar (c.toNat % 16) :: rest) = .ok (c.toNat, rest) := by
    simp [readHex4, utf8Size_digitChar _ high, utf8Size_digitChar _ low, zero, small,
      hexDigit?_digitChar _ high, hexDigit?_digitChar _ low, number]
  have first : isFirstHalf c.toNat = false := by
    rw [isFirstHalf, Bool.and_eq_false_iff]
    exact .inl (by simp; omega)
  have second : isSecondHalf c.toNat = false := by
    rw [isSecondHalf, Bool.and_eq_false_iff]
    exact .inl (by simp; omega)
  rw [readUnits, reads, ok_bind]
  simp [first, second, pure, Except.pure]

/-- A character of a string is read from the way in which it is written. -/
theorem readStringTail_escapeChar (steps : Nat) (c : Char) (rest : List Char) :
    readStringTail (steps + 1) (escapeChar c ++ rest) =
      (readStringTail steps rest).map fun (more, rest) => (c :: more, rest) := by
  have reads {cs : List Char} (h : readEscape cs = .ok (c, rest)) :
      readStringTail (steps + 1) ('\\' :: cs) =
        (readStringTail steps rest).map fun (more, rest) => (c :: more, rest) := by
    rw [readStringTail, if_neg (by decide), if_pos rfl, h, ok_bind]
    dsimp only
    cases readStringTail steps rest <;> rfl
  rw [escapeChar.eq_def]
  split
  case h_8 quote backslash _ _ _ _ _ =>
    split
    case isTrue control => exact reads (readUnits_control control rest)
    case isFalse plain =>
      rw [List.singleton_append, readStringTail, if_neg quote, if_neg backslash, if_neg plain]
      cases readStringTail steps rest <;> rfl
  all_goals exact reads rfl

/-- A string is read up to its closing quote. -/
theorem readStringTail_escaped (cs rest : List Char) :
    ∀ steps, cs.length < steps →
      readStringTail steps (cs.flatMap escapeChar ++ '"' :: rest) = .ok (cs, rest) := by
  induction cs with
  | nil =>
    intro steps enough
    obtain ⟨steps, rfl⟩ : ∃ k, steps = k + 1 := ⟨steps - 1, by simp at enough; omega⟩
    rfl
  | cons c cs ih =>
    intro steps enough
    obtain ⟨steps, rfl⟩ : ∃ k, steps = k + 1 := ⟨steps - 1, by simp at enough; omega⟩
    rw [List.flatMap_cons, List.append_assoc, readStringTail_escapeChar,
      ih steps (by simpa using enough)]
    rfl

theorem escapeChar_ne_nil (c : Char) : escapeChar c ≠ [] := by
  rw [escapeChar.eq_def]
  split
  case h_8 => split <;> exact List.cons_ne_nil _ _
  all_goals exact List.cons_ne_nil _ _

theorem length_le_escaped (cs : List Char) : cs.length ≤ (cs.flatMap escapeChar).length := by
  induction cs with
  | nil => exact Nat.le_refl 0
  | cons c cs ih =>
    have one := List.length_pos_iff.mpr (escapeChar_ne_nil c)
    rw [List.flatMap_cons, List.length_append, List.length_cons]
    omega

/-- A string is read as it was written. -/
theorem readString_escaped (s : String) (rest : List Char) :
    readString (s.toList.flatMap escapeChar ++ '"' :: rest) = .ok (s, rest) := by
  have enough := length_le_escaped s.toList
  have steps : s.toList.length < (s.toList.flatMap escapeChar ++ '"' :: rest).length + 1 := by
    rw [List.length_append]
    omega
  rw [readString, readStringTail_escaped s.toList rest _ steps]
  rw [Except.map]
  dsimp only
  rw [String.ofList_toList]

theorem stringChars_append (s : String) (rest : List Char) :
    stringChars s ++ rest = '"' :: (s.toList.flatMap escapeChar ++ '"' :: rest) := by
  simp [stringChars]

/-! ## Numbers -/

/-- What comes after a value in a compact text, if anything does. -/
def Ends (rest : List Char) : Prop := ∀ c ∈ rest.head?, c = ',' ∨ c = ']' ∨ c = '\x7d'

/-- No number goes on with what comes after a value. -/
theorem Ends.stops {rest : List Char} (ends : Ends rest) :
    (rest.takeWhile Char.isDigit = [] ∧ rest.dropWhile Char.isDigit = rest) ∧
      readFraction rest = .ok (none, rest) ∧ readExponent rest = .ok (none, rest) := by
  cases rest with
  | nil => exact ⟨⟨rfl, rfl⟩, rfl, rfl⟩
  | cons c rest =>
    rcases ends c rfl with rfl | rfl | rfl <;> exact ⟨⟨rfl, rfl⟩, rfl, rfl⟩

/-- The digits of a number other than zero do not start with a zero. -/
theorem head_toDigits {n : Nat} (positive : 0 < n) :
    ∃ c rest, Nat.toDigits 10 n = c :: rest ∧ c.toNat - '0'.toNat ≠ 0 := by
  induction n using Nat.strongRecOn with
  | ind n ih =>
    rw [Nat.toDigits_eq_if (by decide)]
    by_cases small : n < 10
    · rw [if_pos small]
      refine ⟨_, [], rfl, ?_⟩
      rw [Nat.toNat_digitChar_of_lt_ten small, show '0'.toNat = 48 from rfl]
      omega
    · obtain ⟨c, rest, digits, nonzero⟩ := ih (n / 10) (by omega) (by omega)
      rw [if_neg small, digits]
      exact ⟨c, _, rfl, nonzero⟩

theorem ofDigits_map (cs : List Char) :
    ofDigits (cs.map fun c => c.toNat - '0'.toNat) = Nat.ofDigitChars 10 cs 0 := by
  rw [ofDigits, List.foldl_map, Nat.ofDigitChars_eq_foldl]
  simp only [Nat.mul_comm]

/-- The digits of a number are read as the number. -/
theorem readWhole_toDigits (n : Nat) {rest : List Char} (ends : Ends rest) :
    ∃ digits, readWhole (Nat.toDigits 10 n ++ rest) = .ok (digits, rest) ∧ ofDigits digits = n := by
  obtain ⟨⟨takes, drops⟩, -, -⟩ := ends.stops
  have all : ∀ c ∈ Nat.toDigits 10 n, c.isDigit = true :=
    fun c => Nat.isDigit_of_mem_toDigits (by decide) (by decide)
  refine ⟨(Nat.toDigits 10 n).map fun c => c.toNat - '0'.toNat, ?_, ?_⟩
  · rw [readWhole, takeDigits, List.takeWhile_append_of_pos all, List.dropWhile_append_of_pos all,
      takes, drops, List.append_nil]
    rcases Nat.eq_zero_or_pos n with rfl | positive
    · rfl
    · obtain ⟨c, more, digits, nonzero⟩ := head_toDigits positive
      rw [digits, List.map_cons]
      split
      case h_1 same => cases same
      case h_2 same => cases same
      case h_3 same =>
        obtain ⟨zero, -⟩ := List.cons.inj (Prod.mk.inj same).1
        exact absurd zero nonzero
      case h_4 digits rest _ _ same =>
        obtain ⟨rfl, rfl⟩ := Prod.mk.inj same
        rfl
  · rw [ofDigits_map, Nat.ofDigitChars_ten_toDigits]

/-- A numeral of digits alone is a whole number, if that fits into 64 bits. -/
theorem value?_of_digits {digits : List Nat} (bound : ofDigits digits < 2 ^ 64) :
    Numeral.value? ⟨false, digits, none, none⟩ = some (.int (ofDigits digits)) := by
  have whole : Numeral.int? ⟨false, digits, none, none⟩ = some (ofDigits digits : Int) := by
    rw [Numeral.int?, if_neg (by simp), if_neg (by simp)]
    exact if_pos bound
  rw [Numeral.value?, whole]

/-- A numeral of digits with a sign is a whole number below zero, if that fits into 64 bits. -/
theorem value?_of_negative {digits : List Nat} (positive : 0 < ofDigits digits)
    (bound : ofDigits digits ≤ 2 ^ 63) :
    Numeral.value? ⟨true, digits, none, none⟩ = some (.int (-(ofDigits digits : Int))) := by
  have whole : Numeral.int? ⟨true, digits, none, none⟩ = some (-(ofDigits digits : Int)) := by
    rw [Numeral.int?, if_neg (by simp), if_pos rfl, if_pos]
    simpa [positive] using bound
  rw [Numeral.value?, whole]

/-- A whole number is read from its digits. -/
theorem readNumber_toDigits {n : Nat} {negative : Bool} {v : Json} {rest : List Char}
    (value : ∀ digits, ofDigits digits = n →
      Numeral.value? ⟨negative, digits, none, none⟩ = some v) (ends : Ends rest) :
    readNumber negative (Nat.toDigits 10 n ++ rest) = .ok (v, rest) := by
  obtain ⟨-, fraction, exponent⟩ := ends.stops
  obtain ⟨digits, whole, number⟩ := readWhole_toDigits n ends
  rw [readNumber, whole]
  simp only [ok_bind, fraction, exponent, value digits number]
  rfl

/-- The text of a whole number. -/
theorem toList_toString (i : Int) :
    (toString i).toList =
      if 0 ≤ i then Nat.toDigits 10 i.natAbs else '-' :: Nat.toDigits 10 i.natAbs := by
  rw [Int.toString_eq_repr]
  cases i with
  | ofNat n =>
    rw [if_pos (show 0 ≤ Int.ofNat n from Int.natCast_nonneg n), Int.repr,
      Nat.repr_eq_ofList_toDigits, String.toList_ofList]
    rfl
  | negSucc n =>
    rw [if_neg (Int.not_le.mpr (Int.negSucc_lt_zero n)), Int.repr, Nat.repr_eq_ofList_toDigits]
    simp

/-! ## Values -/

/-- The text of a field. -/
def fieldText (f : String × Json) : List Char := stringChars f.1 ++ ':' :: f.2.chars

theorem itemChars_cons (v : Json) (vs : List Json) :
    itemChars (v :: vs) = v.chars ++ vs.flatMap (',' :: ·.chars) := by
  induction vs generalizing v with
  | nil => simp [itemChars]
  | cons w vs ih => simp [itemChars, ih, List.flatMap_cons]

theorem fieldChars_cons (f : String × Json) (fs : List (String × Json)) :
    fieldChars (f :: fs) = fieldText f ++ fs.flatMap (',' :: fieldText ·) := by
  induction fs generalizing f with
  | nil => simp [fieldChars, fieldText]
  | cons g fs ih => simp [fieldChars, fieldText, ih, List.flatMap_cons]

theorem dropSpace_of_not_isSpace {c : Char} (h : isSpace c = false) (rest : List Char) :
    dropSpace (c :: rest) = c :: rest := by
  rw [dropSpace, List.dropWhile_cons, h]
  rfl

/-- A digit is none of the other characters that a value can start with, and no space. -/
theorem of_isDigit {c : Char} (digit : c.isDigit = true) :
    isSpace c = false ∧ c ≠ ']' ∧ c ≠ 'n' ∧ c ≠ 't' ∧ c ≠ 'f' ∧ c ≠ '-' := by
  refine ⟨?_, ?_, ?_, ?_, ?_, ?_⟩
  · cases space : isSpace c with
    | false => rfl
    | true =>
      simp only [isSpace, Bool.or_eq_true, beq_iff_eq] at space
      rcases space with ((rfl | rfl) | rfl) | rfl <;> cases digit
  all_goals
    rintro rfl
    cases digit

theorem toDigits_cons (n : Nat) :
    ∃ c rest, Nat.toDigits 10 n = c :: rest ∧ c.isDigit = true := by
  obtain ⟨c, rest, digits⟩ := List.exists_cons_of_ne_nil (@Nat.toDigits_ne_nil n 10)
  have first : c ∈ Nat.toDigits 10 n := by
    rw [digits]
    exact List.mem_cons_self
  exact ⟨c, rest, digits, Nat.isDigit_of_mem_toDigits (by decide) (by decide) first⟩

/-- The text of a value starts with something that is no space and closes no array. -/
theorem chars_cons {v : Json} (plain : Exact v) :
    ∃ c rest, v.chars = c :: rest ∧ isSpace c = false ∧ c ≠ ']' := by
  cases plain with
  | null => exact ⟨'n', ['u', 'l', 'l'], by simp [chars], rfl, by decide⟩
  | bool b =>
    cases b with
    | true => exact ⟨'t', ['r', 'u', 'e'], by simp [chars], rfl, by decide⟩
    | false => exact ⟨'f', ['a', 'l', 's', 'e'], by simp [chars], rfl, by decide⟩
  | int i =>
    rw [chars, toList_toString]
    split
    case isTrue =>
      obtain ⟨c, rest, digits, digit⟩ := toDigits_cons i.natAbs
      exact ⟨c, rest, digits, (of_isDigit digit).1, (of_isDigit digit).2.1⟩
    case isFalse => exact ⟨'-', _, rfl, rfl, by decide⟩
  | str s => exact ⟨'"', s.toList.flatMap escapeChar ++ ['"'], by rw [chars]; rfl, rfl, by decide⟩
  | @arr items => exact ⟨'[', itemChars items ++ [']'], by rw [chars]; rfl, rfl, by decide⟩
  | @obj fields =>
    exact ⟨'\x7b', fieldChars fields ++ ['\x7d'], by rw [chars]; rfl, rfl, by decide⟩

/-! A reader goes by the first character of a value. -/

section

variable (steps depth : Nat) (cs : List Char)

theorem readValue_null : readValue (steps + 1) depth ("null".toList ++ cs) = .ok (.null, cs) := by
  simp [readValue, dropSpace, isSpace, expect, Except.map]

theorem readValue_true :
    readValue (steps + 1) depth ("true".toList ++ cs) = .ok (.bool true, cs) := by
  simp [readValue, dropSpace, isSpace, expect, Except.map]

theorem readValue_false :
    readValue (steps + 1) depth ("false".toList ++ cs) = .ok (.bool false, cs) := by
  simp [readValue, dropSpace, isSpace, expect, Except.map]

theorem readValue_minus : readValue (steps + 1) depth ('-' :: cs) = readNumber true cs := rfl

theorem readValue_digit {c : Char} (digit : c.isDigit = true) :
    readValue (steps + 1) depth (c :: cs) = readNumber false (c :: cs) := by
  obtain ⟨space, -, n, t, f, minus⟩ := of_isDigit digit
  rw [readValue, dropSpace_of_not_isSpace space]
  dsimp only
  rw [if_neg n, if_neg t, if_neg f, if_neg minus, if_pos digit]

theorem readValue_quote :
    readValue (steps + 1) depth ('"' :: cs) =
      (readString cs).map fun (s, rest) => (.str s, rest) := rfl

theorem readValue_bracket :
    readValue (steps + 1) (depth + 2) ('[' :: cs) =
      (readItems steps (depth + 1) true cs).map fun (vs, rest) => (.arr vs, rest) := rfl

theorem readValue_brace :
    readValue (steps + 1) (depth + 2) ('\x7b' :: cs) =
      (readFields steps (depth + 1) true [] cs).map fun (fs, rest) => (.obj fs, rest) := rfl

theorem readItems_bracket (first : Bool) :
    readItems (steps + 1) depth first (']' :: cs) = .ok ([], cs) := rfl

theorem readFields_brace (first : Bool) (fields : List (String × Json)) :
    readFields (steps + 1) depth first fields ('\x7d' :: cs) = .ok (fields, cs) := rfl

end

/-! ## Arrays and objects -/

/-- A text that the first item of an array can start with. -/
theorem nextItem_of_cons {cs : List Char} {c : Char} {rest : List Char} (starts : cs = c :: rest)
    (space : isSpace c = false) (item : c ≠ ']') :
    nextItem true cs = .ok (true, cs) ∧ nextItem false (',' :: cs) = .ok (true, cs) := by
  subst starts
  have comma : isSpace ',' = false := rfl
  constructor
  · rw [nextItem, dropSpace_of_not_isSpace space]
    simp [item]
  · rw [nextItem, dropSpace_of_not_isSpace comma]
    simp [dropSpace_of_not_isSpace space, item]

/-- A value that is read back from its text with more steps than twice its characters, where arrays
and objects may be nested deeper than `n`. -/
def ReadBack (n : Nat) (v : Json) : Prop :=
  ∀ {steps depth : Nat} {rest : List Char}, 2 * v.chars.length < steps → n < depth → Ends rest →
    readValue steps depth (v.chars ++ rest) = .ok (v, rest)

theorem ends_bracket (rest : List Char) : Ends (']' :: rest) := by simp [Ends]

theorem ends_brace (rest : List Char) : Ends ('\x7d' :: rest) := by simp [Ends]

/-- What comes after an item or a field: others, each after a comma, and the end. -/
theorem ends_commas {α : Type} (text : α → List Char) (as : List α) {rest : List Char}
    (ends : Ends rest) : Ends (as.flatMap (',' :: text ·) ++ rest) := by
  cases as with
  | nil => exact ends
  | cons a as => simp [Ends]

/-- An item is read, and then those after it. -/
theorem readItems_item {n : Nat} {v : Json} (plain : Exact v) (back : ReadBack n v)
    {steps depth : Nat} {more : List Char} (enough : 2 * v.chars.length < steps) (deep : n < depth)
    (ends : Ends more) :
    (readItems (steps + 1) depth true (v.chars ++ more) =
        (readItems steps depth false more).map fun (vs, rest) => (v :: vs, rest)) ∧
      readItems (steps + 1) depth false (',' :: (v.chars ++ more)) =
        (readItems steps depth false more).map fun (vs, rest) => (v :: vs, rest) := by
  obtain ⟨c, cs, starts, space, item⟩ := chars_cons plain
  have starts : v.chars ++ more = c :: (cs ++ more) := by
    rw [starts]
    rfl
  obtain ⟨first, later⟩ := nextItem_of_cons starts space item
  constructor
  · rw [readItems, first]
    simp only [ok_bind, back enough deep ends]
    cases readItems steps depth false more <;> rfl
  · rw [readItems, later]
    simp only [ok_bind, back enough deep ends]
    cases readItems steps depth false more <;> rfl

/-- The items of an array after the first are read back. -/
theorem readItems_later {n : Nat} {vs : List Json} (plain : ∀ v ∈ vs, Exact v)
    (back : ∀ v ∈ vs, ReadBack n v) {depth : Nat} (deep : n < depth) (rest : List Char) :
    ∀ {steps : Nat}, 2 * (vs.flatMap (',' :: ·.chars)).length < steps →
      readItems steps depth false (vs.flatMap (',' :: ·.chars) ++ ']' :: rest) =
        .ok (vs, rest) := by
  induction vs with
  | nil =>
    intro steps enough
    obtain ⟨steps, rfl⟩ : ∃ k, steps = k + 1 := ⟨steps - 1, by omega⟩
    exact readItems_bracket steps depth rest false
  | cons v vs ih =>
    intro steps enough
    obtain ⟨steps, rfl⟩ : ∃ k, steps = k + 1 := ⟨steps - 1, by omega⟩
    obtain ⟨one, others⟩ := List.forall_mem_cons.mp back
    obtain ⟨onePlain, othersPlain⟩ := List.forall_mem_cons.mp plain
    rw [List.flatMap_cons, List.length_append, List.length_cons] at enough
    have ends := ends_commas chars vs (ends_bracket rest)
    have fits : 2 * v.chars.length < steps := by omega
    have item := (readItems_item onePlain one fits deep ends).2
    rw [List.flatMap_cons, List.cons_append, List.cons_append, List.append_assoc, item,
      ih othersPlain others (by omega)]
    rfl

/-- The items of an array are read back. -/
theorem readItems_itemChars {n : Nat} {vs : List Json} (plain : ∀ v ∈ vs, Exact v)
    (back : ∀ v ∈ vs, ReadBack n v) {steps depth : Nat} (rest : List Char)
    (enough : 2 * (itemChars vs).length + 1 < steps) (deep : n < depth) :
    readItems steps depth true (itemChars vs ++ ']' :: rest) = .ok (vs, rest) := by
  obtain ⟨steps, rfl⟩ : ∃ k, steps = k + 1 := ⟨steps - 1, by omega⟩
  cases vs with
  | nil => exact readItems_bracket steps depth rest true
  | cons v vs =>
    obtain ⟨one, others⟩ := List.forall_mem_cons.mp back
    obtain ⟨onePlain, othersPlain⟩ := List.forall_mem_cons.mp plain
    rw [itemChars_cons, List.length_append] at enough
    have ends := ends_commas chars vs (ends_bracket rest)
    have fits : 2 * v.chars.length < steps := by omega
    have item := (readItems_item onePlain one fits deep ends).1
    rw [itemChars_cons, List.append_assoc, item,
      readItems_later othersPlain others deep rest (by omega)]
    rfl

theorem fieldText_append (f : String × Json) (more : List Char) :
    fieldText f ++ more =
      '"' :: (f.1.toList.flatMap escapeChar ++ '"' :: ':' :: (f.2.chars ++ more)) := by
  simp [fieldText, stringChars]

theorem length_lt_fieldText (f : String × Json) : f.2.chars.length < (fieldText f).length := by
  rw [fieldText, List.length_append, List.length_cons]
  omega

theorem readColon_colon (cs : List Char) : readColon (':' :: cs) = .ok ((), cs) := rfl

theorem nextField_first (cs : List Char) : nextField true ('"' :: cs) = .ok (true, cs) := rfl

theorem nextField_comma (cs : List Char) :
    nextField false (',' :: '"' :: cs) = .ok (true, cs) := rfl

/-- A field is read into those read before, and then the ones after it are. -/
theorem readFields_field {n : Nat} {f : String × Json} (back : ReadBack n f.2) {steps depth : Nat}
    {more : List Char} (enough : 2 * f.2.chars.length < steps) (deep : n < depth)
    (ends : Ends more) (fields : List (String × Json)) :
    (readFields (steps + 1) depth true fields (fieldText f ++ more) =
        readFields steps depth false (putField f.1 f.2 fields) more) ∧
      readFields (steps + 1) depth false fields (',' :: (fieldText f ++ more)) =
        readFields steps depth false (putField f.1 f.2 fields) more := by
  rw [fieldText_append]
  constructor
  · rw [readFields, nextField_first]
    simp only [ok_bind, readString_escaped, readColon_colon, back enough deep ends]
  · rw [readFields, nextField_comma]
    simp only [ok_bind, readString_escaped, readColon_colon, back enough deep ends]

/-- The fields of an object after the first are read back, and come after those read before. -/
theorem readFields_later {n : Nat} {fs : List (String × Json)} (back : ∀ f ∈ fs, ReadBack n f.2)
    {depth : Nat} (deep : n < depth) (rest : List Char) :
    ∀ {steps : Nat} {fields : List (String × Json)}, InOrder (fields ++ fs) →
      2 * (fs.flatMap (',' :: fieldText ·)).length < steps →
      readFields steps depth false fields (fs.flatMap (',' :: fieldText ·) ++ '\x7d' :: rest) =
        .ok (fields ++ fs, rest) := by
  induction fs with
  | nil =>
    intro steps fields _ enough
    obtain ⟨steps, rfl⟩ : ∃ k, steps = k + 1 := ⟨steps - 1, by omega⟩
    rw [List.append_nil]
    exact readFields_brace steps depth rest false fields
  | cons f fs ih =>
    intro steps fields order enough
    obtain ⟨steps, rfl⟩ : ∃ k, steps = k + 1 := ⟨steps - 1, by omega⟩
    obtain ⟨one, others⟩ := List.forall_mem_cons.mp back
    have ends := ends_commas fieldText fs (ends_brace rest)
    have short := length_lt_fieldText f
    rw [List.flatMap_cons, List.length_append, List.length_cons] at enough
    have fits : 2 * f.2.chars.length < steps := by omega
    have field := (readFields_field one fits deep ends fields).2
    rw [List.flatMap_cons, List.cons_append, List.cons_append, List.append_assoc, field,
      putField_of_last order.before, ih others (by simpa using order) (by omega),
      List.append_assoc]
    rfl

/-- The fields of an object are read back. -/
theorem readFields_fieldChars {n : Nat} {fs : List (String × Json)} (order : InOrder fs)
    (back : ∀ f ∈ fs, ReadBack n f.2) {steps depth : Nat} (rest : List Char)
    (enough : 2 * (fieldChars fs).length + 1 < steps) (deep : n < depth) :
    readFields steps depth true [] (fieldChars fs ++ '\x7d' :: rest) = .ok (fs, rest) := by
  obtain ⟨steps, rfl⟩ : ∃ k, steps = k + 1 := ⟨steps - 1, by omega⟩
  cases fs with
  | nil => exact readFields_brace steps depth rest true []
  | cons f fs =>
    obtain ⟨one, others⟩ := List.forall_mem_cons.mp back
    have ends := ends_commas fieldText fs (ends_brace rest)
    have short := length_lt_fieldText f
    rw [fieldChars_cons, List.length_append] at enough
    have fits : 2 * f.2.chars.length < steps := by omega
    have field := (readFields_field one fits deep ends []).1
    rw [fieldChars_cons, List.append_assoc, field,
      readFields_later others deep rest (by exact order) (by omega)]
    rfl

/-! ## Any value -/

/-- Every value takes a step. -/
theorem readBack_of_succ {n : Nat} {v : Json}
    (h : ∀ (steps depth : Nat) (rest : List Char), 2 * v.chars.length ≤ steps → n < depth →
      Ends rest → readValue (steps + 1) depth (v.chars ++ rest) = .ok (v, rest)) :
    ReadBack n v := by
  intro steps depth rest enough deep ends
  obtain ⟨steps, rfl⟩ : ∃ k, steps = k + 1 := ⟨steps - 1, by omega⟩
  exact h steps depth rest (by omega) deep ends

/-- A whole number of 64 bits is read back. -/
theorem readBack_int {i : Int} (low : -2 ^ 63 ≤ i) (high : i < 2 ^ 64) (n : Nat) :
    ReadBack n (.int i) := by
  refine readBack_of_succ fun steps depth rest _ _ ends => ?_
  rw [chars, toList_toString]
  split
  case isTrue natural =>
    obtain ⟨c, cs, digits, digit⟩ := toDigits_cons i.natAbs
    have starts : Nat.toDigits 10 i.natAbs ++ rest = c :: (cs ++ rest) := by
      rw [digits]
      rfl
    rw [starts, readValue_digit steps depth _ digit, ← starts]
    refine readNumber_toDigits ?_ ends
    intro ds number
    rw [value?_of_digits (by omega), number, Int.natAbs_of_nonneg natural]
  case isFalse negative =>
    rw [List.cons_append, readValue_minus]
    refine readNumber_toDigits ?_ ends
    intro ds number
    have same : -(i.natAbs : Int) = i := by omega
    rw [value?_of_negative (by omega) (by omega), number, same]

/-- **Values without doubles are read back from their compact texts.** -/
theorem readBack_of_formed {n : Nat} {v : Json} (formed : Formed n v) (plain : Exact v) :
    ReadBack n v := by
  induction formed with
  | null =>
    refine readBack_of_succ fun steps depth rest _ _ _ => ?_
    rw [chars]
    exact readValue_null steps depth rest
  | bool b =>
    refine readBack_of_succ fun steps depth rest _ _ _ => ?_
    cases b with
    | true =>
      rw [chars]
      exact readValue_true steps depth rest
    | false =>
      rw [chars]
      exact readValue_false steps depth rest
  | int low high => exact readBack_int low high _
  | double d => cases plain
  | str s =>
    refine readBack_of_succ fun steps depth rest _ _ _ => ?_
    rw [chars, stringChars_append, readValue_quote, readString_escaped]
    rfl
  | @arr n items each ih =>
    refine readBack_of_succ fun steps depth rest enough deep _ => ?_
    obtain ⟨depth, rfl⟩ : ∃ k, depth = k + 2 := ⟨depth - 2, by omega⟩
    cases plain with
    | arr plain =>
      have back : ∀ v ∈ items, ReadBack n v := fun v there => ih v there (plain v there)
      simp only [chars, List.length_append, List.length_cons] at enough
      rw [chars, List.append_assoc, List.cons_append, readValue_bracket]
      rw [List.singleton_append, readItems_itemChars plain back rest (by omega) (by omega)]
      rfl
  | @obj n fields order each ih =>
    refine readBack_of_succ fun steps depth rest enough deep _ => ?_
    obtain ⟨depth, rfl⟩ : ∃ k, depth = k + 2 := ⟨depth - 2, by omega⟩
    cases plain with
    | obj plain =>
      have back : ∀ f ∈ fields, ReadBack n f.2 := fun f there => ih f there (plain f there)
      simp only [chars, List.length_append, List.length_cons] at enough
      rw [chars, List.append_assoc, List.cons_append, readValue_brace]
      rw [List.singleton_append, readFields_fieldChars order back rest (by omega) (by omega)]
      rfl

end DomainEvents.Json
