import DomainEvents.Time.Text
import Mathlib.Data.List.TakeWhile
import Mathlib.Tactic.Ring

/-!
# Texts of instants are read back

The stored text of an instant has parts of fixed lengths, but for the digits of a second, and a mark
after each. So a part is read to its end and no further, which is all that the reading of a whole
text needs.

An instant may hold a leap second after any second of the day (`Time.Instant.Valid`), but a text has
one at the end of a minute only (`Time.Instant.Punctual`): elsewhere it is written as the second
that follows, and read as that (`Time.Instant.settled`). What is read is punctual, even if the text
shows the time at an offset: the day may change by one, and a leap second stays one, since offsets
are in minutes.
-/

namespace DomainEvents.Time

/-- What an instant may hold: a day of the calendar, a second of the day, and nanoseconds of that
second or of a leap second after it. -/
structure Instant.Valid (t : Instant) : Prop where
  date : t.date.isValid = true
  second : t.second < daySeconds
  nanos : t.nanos < 2 * secondNanos

/-- A leap second comes after the last second of a minute. -/
def Instant.Punctual (t : Instant) : Prop := secondNanos ≤ t.nanos → t.second % 60 = 59

/-- The instant that is read from the text of another: a leap second inside of a minute counts as
the second that follows. -/
def Instant.settled (t : Instant) : Instant :=
  if secondNanos ≤ t.nanos ∧ t.second % 60 ≠ 59 then
    { t with second := t.second + 1, nanos := t.nanos - secondNanos }
  else t

/-! ## Numbers -/

theorem dropBlanks_of_not_isBlank {c : Char} (h : Text.isBlank c = false) (rest : List Char) :
    Text.dropBlanks (c :: rest) = c :: rest := by
  rw [Text.dropBlanks, List.dropWhile_cons, h]
  rfl

theorem not_isBlank_of_isDigit {c : Char} (digit : c.isDigit = true) : Text.isBlank c = false := by
  rw [Char.isDigit_iff_toNat] at digit
  obtain ⟨low, high⟩ := digit
  have : '0'.toNat = 48 := rfl
  have : '9'.toNat = 57 := rfl
  simp only [Text.isBlank, Text.blankRanges, List.any_cons, List.any_nil]
  simp
  omega

theorem isDigit_of_mem_padded {width n : Nat} {c : Char} (h : c ∈ padded width n) :
    c.isDigit = true := by
  rw [padded, List.mem_append] at h
  rcases h with zero | digit
  · rw [List.eq_of_mem_replicate zero]
    rfl
  · exact Nat.isDigit_of_mem_toDigits (by decide) (by decide) digit

theorem length_padded {width n : Nat} (positive : 0 < width) (fits : n < 10 ^ width) :
    (padded width n).length = width := by
  have short := (Nat.length_toDigits_le_iff (by decide) positive).mpr fits
  rw [padded, List.length_append, List.length_replicate]
  omega

theorem padded_cons {width n : Nat} (positive : 0 < width) (fits : n < 10 ^ width) :
    ∃ c rest, padded width n = c :: rest ∧ c.isDigit = true := by
  have length := length_padded positive fits
  obtain ⟨c, rest, digits⟩ := List.exists_cons_of_ne_nil
    (List.ne_nil_of_length_pos (show 0 < (padded width n).length by omega))
  have first : c ∈ padded width n := by
    rw [digits]
    exact List.mem_cons_self
  exact ⟨c, rest, digits, isDigit_of_mem_padded first⟩

/-- The number that digits stand for. -/
theorem foldl_eq_ofDigitChars (cs : List Char) :
    cs.foldl (fun n c => n * 10 + (c.toNat - '0'.toNat)) 0 = Nat.ofDigitChars 10 cs 0 := by
  rw [Nat.ofDigitChars_eq_foldl]
  simp only [Nat.mul_comm]

theorem ofDigitChars_padded (width n : Nat) : Nat.ofDigitChars 10 (padded width n) 0 = n := by
  rw [padded, Nat.ofDigitChars_append, Nat.ofDigitChars_replicate_zero, Nat.mul_zero,
    Nat.ofDigitChars_ten_toDigits]

/-- What does not go on with a digit. -/
def Stops (rest : List Char) : Prop := ∀ c ∈ rest.head?, c.isDigit = false

theorem Stops.takeWhile {rest : List Char} (stops : Stops rest) (n : Nat) :
    (rest.take n).takeWhile Char.isDigit = [] := by
  cases rest with
  | nil => simp
  | cons c rest =>
    cases n with
    | zero => rfl
    | succ n => simp [stops c rfl]

/-- The digits of a padded number are all that a reader takes. -/
theorem takeWhile_padded {w width n : Nat} {rest : List Char} (positive : 0 < w)
    (fits : n < 10 ^ w) (room : w ≤ width) (stops : Stops rest) :
    ((padded w n ++ rest).take width).takeWhile Char.isDigit = padded w n := by
  have length := length_padded positive fits
  rw [List.take_append, List.take_of_length_le (by omega),
    List.takeWhile_append_of_pos fun c => isDigit_of_mem_padded, stops.takeWhile, List.append_nil]

/-- A padded number is read to its end. -/
theorem scanDigits_padded {w width n : Nat} {rest : List Char} (positive : 0 < w)
    (fits : n < 10 ^ w) (room : w ≤ width) (stops : Stops rest) :
    scanDigits width (padded w n ++ rest) = some (n, rest) := by
  have length := length_padded positive fits
  have nonempty : (padded w n).isEmpty = false := by
    rw [List.isEmpty_eq_false_iff, ← List.length_pos_iff]
    omega
  rw [scanDigits, takeWhile_padded positive fits room stops, nonempty, foldl_eq_ofDigitChars,
    ofDigitChars_padded, List.drop_left]
  rfl

theorem dropBlanks_padded {w n : Nat} (positive : 0 < w) (fits : n < 10 ^ w) (rest : List Char) :
    Text.dropBlanks (padded w n ++ rest) = padded w n ++ rest := by
  obtain ⟨c, more, digits, digit⟩ := padded_cons positive fits
  rw [digits]
  exact dropBlanks_of_not_isBlank (not_isBlank_of_isDigit digit) _

/-- Two digits are read as the number below a hundred. -/
theorem scanNumber_padded {n : Nat} {rest : List Char} (fits : n < 100) (stops : Stops rest) :
    scanNumber 2 (padded 2 n ++ rest) = some (n, rest) := by
  rw [scanNumber, dropBlanks_padded (by decide) fits,
    scanDigits_padded (by decide) fits (Nat.le_refl 2) stops]

theorem scanMark_self (mark : Char) (h : Text.isBlank mark = false) (rest : List Char) :
    scanMark mark (mark :: rest) = some ((), rest) := by
  rw [scanMark, dropBlanks_of_not_isBlank h]
  exact if_pos rfl

/-- Four digits are read as the year. -/
theorem scanYear_yearChars {year : Int} {rest : List Char} (low : 0 ≤ year) (high : year ≤ 9999)
    (stops : Stops rest) : scanYear (yearChars year ++ rest) = some (year, rest) := by
  have fits : year.toNat < 10 ^ 4 := by omega
  obtain ⟨c, more, digits, digit⟩ := padded_cons (by decide) fits
  have reads := scanDigits_padded (by decide) fits (Nat.le_refl 4) stops
  have same : ((year.toNat : Int), rest) = (year, rest) := by rw [Int.toNat_of_nonneg low]
  rw [yearChars, if_pos ⟨low, high⟩, scanYear, dropBlanks_padded (by decide) fits]
  rw [digits, List.cons_append] at reads ⊢
  split
  case h_1 sign =>
    obtain rfl := (List.cons.inj sign).1
    cases digit
  case h_2 sign =>
    obtain rfl := (List.cons.inj sign).1
    cases digit
  case h_3 =>
    rw [reads]
    exact congrArg some same

/-! ## Dates and times of day -/

theorem stops_cons {c : Char} (h : c.isDigit = false) (rest : List Char) : Stops (c :: rest) := by
  intro d there
  obtain rfl := Option.some.inj there
  exact h

/-- A date is read to its end. -/
theorem scanDate_chars {d : Date} {rest : List Char} (low : 0 ≤ d.year) (high : d.year ≤ 9999)
    (month : d.month < 100) (day : d.day < 100) (stops : Stops rest) :
    scanDate (d.chars ++ rest) = some (d, rest) := by
  have hyphen (more : List Char) : Stops ('-' :: more) := stops_cons rfl more
  have text : d.chars ++ rest =
      yearChars d.year ++ '-' :: (padded 2 d.month ++ '-' :: (padded 2 d.day ++ rest)) := by
    simp [Date.chars]
  rw [text, scanDate, scanYear_yearChars low high (hyphen _)]
  simp only [Option.bind_eq_bind, Option.bind_some, scanMark_self '-' rfl,
    scanNumber_padded month (hyphen _), scanNumber_padded day stops]
  rfl

/-- The digits of a second are read to their end. -/
theorem scanFraction_fractionChars {nanos : Nat} {c : Char} (short : nanos < secondNanos)
    (point : c ≠ '.') (digit : c.isDigit = false) (rest : List Char) :
    scanFraction (fractionChars nanos ++ c :: rest) = some (nanos, c :: rest) := by
  have second : secondNanos = 1000000000 := rfl
  have stops := stops_cons digit rest
  have reads {w n : Nat} (positive : 0 < w) (fits : n < 10 ^ w) (room : w ≤ 9)
      (value : n * 10 ^ (9 - w) = nanos) :
      scanFraction ('.' :: (padded w n ++ c :: rest)) = some (nanos, c :: rest) := by
    have all : ∀ c ∈ padded w n, c.isDigit = true := fun c => isDigit_of_mem_padded
    have drops : (padded w n ++ c :: rest).dropWhile Char.isDigit = c :: rest := by
      rw [List.dropWhile_append_of_pos all, List.dropWhile_cons, digit]
      rfl
    rw [scanFraction, scanDigits_padded positive fits room stops]
    simpa [takeWhile_padded positive fits room stops, length_padded positive fits, drops]
      using value
  rw [fractionChars]
  split
  case isTrue zero =>
    rw [List.nil_append, scanFraction.eq_def]
    split
    case h_1 same => exact absurd (List.cons.inj same).1 point
    case h_2 => rw [zero]
  case isFalse =>
    split
    case isTrue millis => exact reads (by decide) (by omega) (by decide) (by omega)
    case isFalse =>
      split
      case isTrue micros => exact reads (by decide) (by omega) (by decide) (by omega)
      case isFalse => exact reads (by decide) (by omega) (by decide) (by omega)

/-- A time of day is read to its end. -/
theorem scanClock_clockChars {t : Instant} (valid : t.Valid) (punctual : t.Punctual) {c : Char}
    (point : c ≠ '.') (digit : c.isDigit = false) (rest : List Char) :
    scanClock (t.clockChars ++ c :: rest) = some ((t.second, t.nanos), c :: rest) := by
  have day : daySeconds = 86400 := rfl
  have second : secondNanos = 1000000000 := rfl
  have colon (more : List Char) : Stops (':' :: more) := stops_cons rfl more
  have early := valid.second
  have leap : t.nanos / secondNanos = 0 ∨ t.nanos / secondNanos = 1 ∧ t.second % 60 = 59 := by
    have short := valid.nanos
    rw [Instant.Punctual, second] at punctual
    rw [second] at short ⊢
    omega
  have hour : t.second / 3600 < 24 := by omega
  have minute : t.second / 60 % 60 < 60 := by omega
  have sixty : t.second % 60 + t.nanos / secondNanos < 61 := by omega
  have short : t.nanos % secondNanos < secondNanos := Nat.mod_lt _ (by decide)
  have fraction := scanFraction_fractionChars short point digit rest
  have stops : Stops (fractionChars (t.nanos % secondNanos) ++ c :: rest) := by
    rw [fractionChars]
    split
    case isTrue => exact stops_cons digit rest
    case isFalse => split <;> [skip; split] <;> exact stops_cons rfl _
  have text : t.clockChars ++ c :: rest = padded 2 (t.second / 3600) ++ ':' ::
      (padded 2 (t.second / 60 % 60) ++ ':' :: (padded 2 (t.second % 60 + t.nanos / secondNanos) ++
        (fractionChars (t.nanos % secondNanos) ++ c :: rest))) := by
    simp [Instant.clockChars]
  have again : (t.second / 3600 * 3600 + t.second / 60 % 60 * 60 +
        (t.second % 60 + t.nanos / secondNanos - (t.second % 60 + t.nanos / secondNanos) / 60),
      t.nanos % secondNanos + (t.second % 60 + t.nanos / secondNanos) / 60 * secondNanos) =
        (t.second, t.nanos) := by
    rw [second] at leap ⊢
    ext
    · dsimp only
      omega
    · dsimp only
      omega
  rw [text, scanClock, scanNumber_padded (by omega) (colon _)]
  simp only [Option.bind_eq_bind, Option.bind_some, scanMark_self ':' rfl,
    scanNumber_padded (show t.second / 60 % 60 < 100 by omega) (colon _),
    scanNumber_padded (show t.second % 60 + t.nanos / secondNanos < 100 by omega) stops, fraction]
  rw [if_neg (by omega), again]
  rfl

/-! ## Instants -/

/-- A clock that shows UTC shows the instant itself. -/
theorem ofLocal_zero {t : Instant} (early : t.second < daySeconds) : t.ofLocal 0 = t := by
  have natural : ¬ ((t.second : Int) - 0 < 0) := by omega
  have before : ¬ ((daySeconds : Int) ≤ (t.second : Int) - 0) := by omega
  rw [Instant.ofLocal, if_neg natural, if_neg before]
  simp

/-- What is known of a date that is valid. -/
theorem Date.bounds {d : Date} (valid : d.isValid = true) :
    1 ≤ d.month ∧ d.month ≤ 12 ∧ 1 ≤ d.day ∧ d.day ≤ daysInMonth d.year d.month := by
  simpa [Date.isValid, and_assoc] using valid

theorem daysInMonth_bounds (year : Int) (month : Nat) :
    28 ≤ daysInMonth year month ∧ daysInMonth year month ≤ 31 := by
  rw [daysInMonth]
  split
  · split <;> omega
  · split <;> omega

/-- **The punctual instants are those that settle as they are.** -/
theorem Instant.settled_eq_self_iff {t : Instant} : t.settled = t ↔ t.Punctual := by
  rw [settled, Punctual]
  split
  case isTrue inside =>
    refine ⟨fun same => ?_, fun last => absurd (last inside.1) inside.2⟩
    have := congrArg Instant.second same
    dsimp only at this
    omega
  case isFalse outside =>
    refine ⟨fun _ leap => ?_, fun _ => rfl⟩
    by_contra other
    exact outside ⟨leap, other⟩

theorem Instant.punctual_settled {t : Instant} (valid : t.Valid) : t.settled.Punctual := by
  have short := valid.nanos
  rw [settled]
  split
  case isTrue =>
    intro leap
    dsimp only at leap
    omega
  case isFalse outside =>
    intro leap
    by_contra other
    exact outside ⟨leap, other⟩

theorem Instant.Valid.settled {t : Instant} (valid : t.Valid) : t.settled.Valid := by
  have early := valid.second
  have short := valid.nanos
  have day : daySeconds = 86400 := rfl
  rw [Instant.settled]
  split
  case isTrue => exact ⟨valid.date, by dsimp only; omega, by dsimp only; omega⟩
  case isFalse => exact valid

@[simp]
theorem Instant.date_settled (t : Instant) : t.settled.date = t.date := by
  rw [settled]
  split <;> rfl

/-- An instant shares its text with the one that it settles to. -/
theorem Instant.zuluText_settled {t : Instant} (valid : t.Valid) :
    t.settled.zuluText = t.zuluText := by
  rw [settled]
  split
  case isFalse => rfl
  case isTrue inside =>
    have second : secondNanos = 1000000000 := rfl
    obtain ⟨leap, inside⟩ := inside
    have short := valid.nanos
    rw [second] at leap short
    have hour : (t.second + 1) / 3600 = t.second / 3600 := by omega
    have minute : (t.second + 1) / 60 % 60 = t.second / 60 % 60 := by omega
    have seconds : (t.second + 1) % 60 + (t.nanos - 1000000000) / 1000000000 =
        t.second % 60 + t.nanos / 1000000000 := by omega
    have fraction : (t.nanos - 1000000000) % 1000000000 = t.nanos % 1000000000 := by omega
    simp only [zuluText, textWith, clockChars, second, hour, minute, seconds, fraction]

theorem toList_zuluText (t : Instant) :
    t.zuluText.toList = t.date.chars ++ 'T' :: (t.clockChars ++ ['Z']) := by
  simp [Instant.zuluText, Instant.textWith]

/-- **An instant is read back from its stored text**, if four digits are enough for its year and it
is punctual. -/
theorem Instant.parse?_zuluText {t : Instant} (valid : t.Valid) (punctual : t.Punctual)
    (low : 0 ≤ t.date.year) (high : t.date.year ≤ 9999) :
    Instant.parse? t.zuluText = some t := by
  obtain ⟨-, month, -, day⟩ := Date.bounds valid.date
  have days := daysInMonth_bounds t.date.year t.date.month
  have date : scanDate (t.date.chars ++ 'T' :: (t.clockChars ++ ['Z'])) =
      some (t.date, 'T' :: (t.clockChars ++ ['Z'])) :=
    scanDate_chars low high (by omega) (by omega) (stops_cons rfl _)
  have clock : scanClock (t.clockChars ++ ['Z']) = some ((t.second, t.nanos), ['Z']) :=
    scanClock_clockChars valid punctual (by decide) rfl []
  have zone : scanZone (Text.dropBlanks ['Z']) = some (0, []) := rfl
  have utc : (⟨t.date, t.second, t.nanos⟩ : Instant).ofLocal 0 = t := ofLocal_zero valid.second
  have inRange : t.date.inRange = true := by
    have least : Date.yearRange.1 ≤ t.date.year := low.trans' (by decide)
    have greatest : t.date.year ≤ Date.yearRange.2 := high.trans (by decide)
    simp [Date.inRange, least, greatest]
  rw [Instant.parse?, toList_zuluText, date]
  simp only [Option.bind_eq_bind, Option.bind_some, clock, zone, utc, valid.date, inRange]
  rfl

/-! ## What is read -/

theorem Date.isValid_of_bounds {year : Int} {month day : Nat} (month_low : 1 ≤ month)
    (month_high : month ≤ 12) (day_low : 1 ≤ day) (day_high : day ≤ daysInMonth year month) :
    Date.isValid ⟨year, month, day⟩ = true := by
  simp [Date.isValid, *]

/-- The days before and after a day of the calendar are days of the calendar. -/
theorem Date.isValid_next {d : Date} (valid : d.isValid = true) : d.next.isValid = true := by
  obtain ⟨month_low, month_high, day_low, day_high⟩ := Date.bounds valid
  have days := daysInMonth_bounds
  rw [Date.next]
  split
  case isTrue => exact Date.isValid_of_bounds month_low month_high (by omega) (by omega)
  case isFalse =>
    split
    case isTrue =>
      exact Date.isValid_of_bounds (by omega) (by omega) (by omega) ((days _ _).1.trans' (by omega))
    case isFalse => rfl

theorem Date.isValid_previous {d : Date} (valid : d.isValid = true) :
    d.previous.isValid = true := by
  obtain ⟨month_low, month_high, day_low, day_high⟩ := Date.bounds valid
  have days := daysInMonth_bounds
  rw [Date.previous]
  split
  case isTrue => exact Date.isValid_of_bounds month_low month_high (by omega) (by omega)
  case isFalse =>
    split
    case isTrue =>
      exact Date.isValid_of_bounds (by omega) (by omega) ((days _ _).1.trans' (by omega)) le_rfl
    case isFalse => rfl

/-- A clock with an offset of less than a day shows instants. -/
theorem Instant.Valid.ofLocal {t : Instant} (valid : t.Valid) {offset : Int}
    (short : offset.natAbs < daySeconds) : (t.ofLocal offset).Valid := by
  have early := valid.second
  rw [Instant.ofLocal]
  split
  case isTrue => exact ⟨Date.isValid_previous valid.date, by dsimp only; omega, valid.nanos⟩
  case isFalse =>
    split
    case isTrue => exact ⟨Date.isValid_next valid.date, by dsimp only; omega, valid.nanos⟩
    case isFalse => exact ⟨valid.date, by dsimp only; omega, valid.nanos⟩

/-- A clock with an offset in minutes leaves leap seconds at the end of a minute. -/
theorem Instant.Punctual.ofLocal {t : Instant} (punctual : t.Punctual) {offset minutes : Int}
    (inMinutes : offset = 60 * minutes) (early : t.second < daySeconds)
    (short : offset.natAbs < daySeconds) : (t.ofLocal offset).Punctual := by
  have day : daySeconds = 86400 := rfl
  rw [Instant.Punctual] at punctual
  rw [Instant.ofLocal]
  split
  case isTrue =>
    intro leap
    have last := punctual leap
    dsimp only
    omega
  case isFalse =>
    split <;>
    · intro leap
      have last := punctual leap
      dsimp only
      omega

/-- Digits stand for a number below the power of ten with as many zeros. -/
theorem foldl_digits_lt {cs : List Char} (all : ∀ c ∈ cs, c.isDigit = true) (n : Nat) :
    cs.foldl (fun n c => n * 10 + (c.toNat - '0'.toNat)) n < (n + 1) * 10 ^ cs.length := by
  induction cs generalizing n with
  | nil => simp
  | cons c cs ih =>
    obtain ⟨digit, others⟩ := List.forall_mem_cons.mp all
    obtain ⟨-, high⟩ := Char.isDigit_iff_toNat.mp digit
    have nine : '9'.toNat = 57 := rfl
    have zero : '0'.toNat = 48 := rfl
    calc
      _ < (n * 10 + (c.toNat - '0'.toNat) + 1) * 10 ^ cs.length := ih others _
      _ ≤ ((n + 1) * 10) * 10 ^ cs.length := Nat.mul_le_mul_right _ (by omega)
      _ = (n + 1) * 10 ^ (c :: cs).length := by
        rw [List.length_cons, Nat.pow_succ', Nat.mul_assoc]

theorem lt_of_scanDigits {width n : Nat} {cs rest : List Char}
    (h : scanDigits width cs = some (n, rest)) :
    n < 10 ^ ((cs.take width).takeWhile Char.isDigit).length := by
  rw [scanDigits] at h
  split at h
  case isTrue => cases h
  case isFalse =>
    obtain ⟨rfl, -⟩ := Prod.mk.inj (Option.some.inj h)
    have all : ∀ c ∈ (cs.take width).takeWhile Char.isDigit, c.isDigit = true :=
      fun c there => List.mem_takeWhile_imp there
    simpa using foldl_digits_lt all 0

/-- A fraction of a second is less than a second. -/
theorem lt_of_scanFraction {n : Nat} {cs rest : List Char} (h : scanFraction cs = some (n, rest)) :
    n < secondNanos := by
  rw [scanFraction.eq_def] at h
  split at h
  case h_1 more =>
    obtain ⟨⟨m, _⟩, digits, h⟩ := Option.bind_eq_some_iff.mp h
    obtain ⟨rfl, -⟩ := Prod.mk.inj (Option.some.inj h)
    have below := lt_of_scanDigits digits
    have short : ((more.take 9).takeWhile Char.isDigit).length ≤ 9 :=
      (List.takeWhile_prefix _).length_le.trans (by rw [List.length_take]; omega)
    generalize ((more.take 9).takeWhile Char.isDigit).length = len at below short ⊢
    calc
      m * 10 ^ (9 - len) < 10 ^ len * 10 ^ (9 - len) :=
        Nat.mul_lt_mul_of_pos_right below (Nat.pow_pos (by decide))
      _ = secondNanos := by rw [← Nat.pow_add, Nat.add_sub_cancel' short]; rfl
  case h_2 =>
    obtain ⟨rfl, -⟩ := Prod.mk.inj (Option.some.inj h)
    decide

/-- The time of day that is read is one of the calendar. -/
theorem of_scanClock {second nanos : Nat} {cs rest : List Char}
    (h : scanClock cs = some ((second, nanos), rest)) :
    second < daySeconds ∧ nanos < 2 * secondNanos ∧ (secondNanos ≤ nanos → second % 60 = 59) := by
  rw [scanClock] at h
  obtain ⟨⟨hour, cs⟩, -, h⟩ := Option.bind_eq_some_iff.mp h
  obtain ⟨⟨⟨⟩, cs⟩, -, h⟩ := Option.bind_eq_some_iff.mp h
  obtain ⟨⟨minute, cs⟩, -, h⟩ := Option.bind_eq_some_iff.mp h
  obtain ⟨⟨⟨⟩, cs⟩, -, h⟩ := Option.bind_eq_some_iff.mp h
  obtain ⟨⟨s, cs⟩, -, h⟩ := Option.bind_eq_some_iff.mp h
  obtain ⟨⟨fraction, cs⟩, reads, h⟩ := Option.bind_eq_some_iff.mp h
  have short := lt_of_scanFraction reads
  have day : daySeconds = 86400 := rfl
  have billion : secondNanos = 1000000000 := rfl
  dsimp only at h
  split at h
  case isTrue => cases h
  case isFalse inDay =>
    obtain ⟨⟨rfl, rfl⟩, -⟩ := by simpa [pure] using h
    have early : s < 60 ∨ s = 60 := by omega
    rw [billion] at short ⊢
    rcases early with early | rfl
    · rw [Nat.div_eq_of_lt early]
      omega
    · omega

/-- Offsets are in minutes. -/
theorem of_scanZone {offset : Int} {cs rest : List Char}
    (h : scanZone cs = some (offset, rest)) : ∃ minutes, offset = 60 * minutes := by
  rw [scanZone.eq_def] at h
  split at h
  case h_1 | h_2 =>
    obtain ⟨rfl, -⟩ := Prod.mk.inj (Option.some.inj h)
    exact ⟨0, rfl⟩
  case h_3 =>
    split at h
    case isTrue =>
      obtain ⟨rfl, -⟩ := Prod.mk.inj (Option.some.inj h)
      exact ⟨0, rfl⟩
    case isFalse =>
      obtain ⟨⟨sign, cs⟩, -, h⟩ := Option.bind_eq_some_iff.mp h
      obtain ⟨⟨hours, cs⟩, -, h⟩ := Option.bind_eq_some_iff.mp h
      obtain ⟨⟨minutes, cs⟩, -, h⟩ := Option.bind_eq_some_iff.mp h
      dsimp only at h
      split at h
      case isTrue =>
        obtain ⟨rfl, -⟩ := Prod.mk.inj (Option.some.inj h)
        exact ⟨sign * (hours * 60 + minutes), by push_cast; ring⟩
      case isFalse => cases h

/-- **What is read is an instant, and punctual.** -/
theorem Instant.valid_of_parse? {s : String} {t : Instant} (h : Instant.parse? s = some t) :
    t.Valid ∧ t.Punctual := by
  rw [Instant.parse?] at h
  obtain ⟨⟨date, cs⟩, -, h⟩ := Option.bind_eq_some_iff.mp h
  -- whatever letter or space comes after the date, the rest is read alike
  dsimp only at h
  split at h
  case h_4 => cases h
  all_goals
    obtain ⟨cs, -, h⟩ := Option.bind_eq_some_iff.mp h
    obtain ⟨⟨⟨second, nanos⟩, cs⟩, clock, h⟩ := Option.bind_eq_some_iff.mp h
    obtain ⟨⟨offset, cs⟩, zone, h⟩ := Option.bind_eq_some_iff.mp h
    obtain ⟨early, nanosShort, leap⟩ := of_scanClock clock
    obtain ⟨minutes, inMinutes⟩ := of_scanZone zone
    dsimp only at h
    split at h
    case isFalse => cases h
    case isTrue good =>
      obtain rfl := Option.some.inj h
      simp only [Bool.and_eq_true, decide_eq_true_eq] at good
      obtain ⟨⟨⟨⟨-, valid⟩, -⟩, -⟩, short⟩ := good
      have shown : Instant.Valid ⟨date, second, nanos⟩ := ⟨valid, early, nanosShort⟩
      have punctual : Instant.Punctual ⟨date, second, nanos⟩ := leap
      exact ⟨shown.ofLocal short, punctual.ofLocal inMinutes early short⟩

end DomainEvents.Time
