import DomainEvents.Uuid
import Mathlib.Tactic.Ring

/-!
# Texts of UUIDs are read back

The text of a UUID is made in two steps, digits and then hyphens between groups of them, and each is
undone by itself.
-/

namespace DomainEvents.Uuid

/-! ## Digits -/

theorem digit?_digitChar : ∀ n < 16, digit? (Nat.digitChar n) = some n := by decide

theorem digitChar_ne : ∀ n < 16, Nat.digitChar n ≠ 'u' ∧ Nat.digitChar n ≠ '\x7b' := by decide

theorem length_hexDigits (count n : Nat) : (hexDigits count n).length = count := by
  induction count generalizing n with
  | zero => rfl
  | succ count ih => simp [hexDigits, ih]

theorem mem_hexDigits {count n : Nat} {c : Char} (h : c ∈ hexDigits count n) :
    ∃ d < 16, c = Nat.digitChar d := by
  induction count generalizing n with
  | zero => cases h
  | succ count ih =>
    rw [hexDigits, List.mem_append, List.mem_singleton] at h
    rcases h with there | rfl
    · exact ih there
    · exact ⟨n % 16, Nat.mod_lt n (by decide), rfl⟩

theorem ofDigits?_append (n : Nat) (a b : List Char) :
    ofDigits? n (a ++ b) = (ofDigits? n a).bind fun m => ofDigits? m b := by
  induction a generalizing n with
  | nil => rfl
  | cons c a ih =>
    rw [List.cons_append, ofDigits?, ofDigits?]
    cases digit? c with
    | none => rfl
    | some d => exact ih (n * 16 + d)

/-- The last digits of a number are read as what is left of it. -/
theorem ofDigits?_hexDigits (m count n : Nat) :
    ofDigits? m (hexDigits count n) = some (m * 16 ^ count + n % 16 ^ count) := by
  induction count generalizing n with
  | zero => simp [hexDigits, ofDigits?, Nat.mod_one]
  | succ count ih =>
    have last : digit? (Nat.digitChar (n % 16)) = some (n % 16) :=
      digit?_digitChar _ (Nat.mod_lt n (by decide))
    have number : (m * 16 ^ count + n / 16 % 16 ^ count) * 16 + n % 16 =
        m * 16 ^ (count + 1) + n % 16 ^ (count + 1) := by
      rw [Nat.pow_succ', Nat.mod_mul]
      ring
    rw [hexDigits, ofDigits?_append, ih, Option.bind_some, ofDigits?, last]
    exact congrArg some number

/-! ## Groups -/

/-- There is a hyphen between any two groups. -/
theorem length_hyphenate {sizes : List Nat} {digits : List Char} (groups : sizes ≠ [])
    (length : digits.length = sizes.sum) :
    (hyphenate sizes digits).length + 1 = digits.length + sizes.length := by
  fun_induction hyphenate sizes digits with
  | case1 => exact absurd rfl groups
  | case2 => rfl
  | case3 size more digits ne ih =>
    rw [List.sum_cons] at length
    have later := ih ne (by rw [List.length_drop]; omega)
    rw [List.length_drop] at later
    rw [List.length_append, List.length_cons, List.length_take, List.length_cons]
    omega

/-- Groups are put together again. -/
theorem ungroup?_hyphenate {sizes : List Nat} {digits : List Char} (groups : sizes ≠ [])
    (length : digits.length = sizes.sum) :
    ungroup? sizes (hyphenate sizes digits) = some digits := by
  fun_induction hyphenate sizes digits with
  | case1 => exact absurd rfl groups
  | case2 size digits => exact if_pos (by simpa using length)
  | case3 size more digits ne ih =>
    rw [List.sum_cons] at length
    have later := ih ne (by rw [List.length_drop]; omega)
    have first : (digits.take size).length = size := by
      rw [List.length_take]
      omega
    rw [ungroup?.eq_3 _ _ _ ne, List.drop_left' first, List.take_left' first]
    simp [later]

/-! ## Texts -/

/-- A text that starts with a digit has nothing around its groups. -/
theorem bare_of_digit {d : Nat} (small : d < 16) (rest : List Char) :
    bare (Nat.digitChar d :: rest) = Nat.digitChar d :: rest := by
  obtain ⟨u, brace⟩ := digitChar_ne d small
  rw [bare.eq_def]
  split
  case h_1 same => exact absurd (List.cons.inj same).1 u
  case h_2 same => exact absurd (List.cons.inj same).1 brace
  case h_3 => rfl

/-- **A UUID is read back from its text.** -/
theorem parse?_text (u : Uuid) : parse? u.text = some u := by
  have length : (hexDigits 32 u.bits.toNat).length = groups.sum := length_hexDigits _ _
  have longer := length_hyphenate (by decide) length
  have grouped := ungroup?_hyphenate (by decide) length
  have number : ofDigits? 0 (hexDigits 32 u.bits.toNat) = some u.bits.toNat := by
    rw [ofDigits?_hexDigits, Nat.zero_mul, Nat.zero_add]
    exact congrArg some (Nat.mod_eq_of_lt u.bits.isLt)
  have starts : ∃ d < 16, ∃ rest, hyphenate groups (hexDigits 32 u.bits.toNat) =
      Nat.digitChar d :: rest := by
    obtain ⟨c, more, digits⟩ :=
      List.exists_cons_of_length_eq_add_one (length_hexDigits 32 u.bits.toNat)
    have first : c ∈ hexDigits 32 u.bits.toNat := by
      rw [digits]
      exact List.mem_cons_self
    obtain ⟨d, small, rfl⟩ := mem_hexDigits first
    rw [digits]
    exact ⟨d, small, _, rfl⟩
  obtain ⟨d, small, rest, starts⟩ := starts
  have unwrapped := bare_of_digit small rest
  rw [← starts] at unwrapped
  have long : (hyphenate groups (hexDigits 32 u.bits.toNat)).length ≠ 32 := by
    rw [length_hexDigits] at longer
    have five : groups.length = 5 := rfl
    omega
  rw [parse?, text, String.toList_ofList]
  simp [long, ofGrouped?, unwrapped, grouped, number]

end DomainEvents.Uuid
