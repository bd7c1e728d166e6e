import DataMigration.Operator.Time
import DataMigration.Proofs.Calendar.Days
import DataMigration.Proofs.Path.Bracketed
import DataMigration.Proofs.Text

/-!
# Seconds of the epoch as texts

The text of an instant has a year of four digits or a signed one, and then numbers of two digits
each. Whichever way the year is written, reading the text takes the notation that it is written in:
the strict one for four digits, and for a sign the one that reads the rest in the leap year 2000 and
then moves the date to its own year. So a whole number of seconds survives being written and read.
-/

namespace DataMigration

/-! ## Numbers of a given width -/

namespace Calendar.Instant

variable {width n : Nat}

theorem ascii_of_mem_padded {c : Char} (member : c ∈ padded width n) :
    48 ≤ c.toNat ∧ c.toNat ≤ 57 := by
  obtain zero | digit := List.mem_append.1 member
  · rw [List.eq_of_mem_replicate zero]
    decide
  · exact Decimal.ascii_of_mem_natDigits digit

theorem digit_of_mem_padded {c : Char} (member : c ∈ padded width n) :
    (Decimal.digit? c).isSome = true := by
  rw [Decimal.digit?, if_pos (ascii_of_mem_padded member)]
  rfl

theorem isDigit_of_mem_padded {c : Char} (member : c ∈ padded width n) :
    Text.isDigit c = true := by
  have ascii := ascii_of_mem_padded member
  rw [Text.isDigit, if_pos (by omega)]
  simpa using ascii

theorem isBlank_of_mem_padded {c : Char} (member : c ∈ padded width n) :
    Text.isBlank c = false := by
  have ascii := ascii_of_mem_padded member
  simp only [Text.isBlank, Bool.or_eq_false_iff, decide_eq_false_iff_not, beq_eq_false_iff_ne]
  omega

theorem padded_ne_nil : padded width n ≠ [] :=
  List.append_ne_nil_of_right_ne_nil _ Nat.toDigits_ne_nil

theorem nat?_padded (width n : Nat) : Decimal.nat? (padded width n) = some n := by
  have zeros : ∀ k, (List.replicate k '0').foldl (fun n c => 10 * n + (c.toNat - 48)) 0 = 0 := by
    intro k
    induction k with
    | zero => rfl
    | succ k ih => exact ih
  have digits : (Decimal.natDigits n).foldl (fun n c => 10 * n + (c.toNat - 48)) 0 = n :=
    Decimal.value_natDigits n
  rw [Decimal.nat?_eq_value padded_ne_nil fun c => digit_of_mem_padded, Decimal.value, padded,
    List.foldl_append, zeros, digits]

theorem le_length_padded (width n : Nat) : width ≤ (padded width n).length := by
  rw [padded, List.length_append, List.length_replicate]
  omega

theorem length_padded (wide : 0 < width) (fits : n < 10 ^ width) :
    (padded width n).length = width := by
  have short := (Nat.length_toDigits_le_iff (b := 10) (by decide) wide).2 fits
  rw [padded, List.length_append, List.length_replicate, Decimal.natDigits]
  omega

/-- A number of a given width is read back, whatever follows it. -/
theorem number_padded (wide : 0 < width) (fits : n < 10 ^ width) (rest : List Char) :
    number width width (padded width n ++ rest) = some (n, rest) := by
  have length := length_padded wide fits
  have taken : (padded width n ++ rest).take width = padded width n := by
    rw [List.take_append_of_le_length length.ge, List.take_of_length_le length.le]
  have digits : (padded width n).takeWhile (fun c => (Decimal.digit? c).isSome) = padded width n :=
    List.takeWhile_eq_self_iff.2 fun c => digit_of_mem_padded
  have left : (padded width n ++ rest).drop width = rest := by
    rw [List.drop_append_of_le_length length.ge, List.drop_of_length_le length.le, List.nil_append]
  simp only [number, taken, digits, length, Nat.lt_irrefl, if_false, nat?_padded, Option.map_some,
    left]

end Calendar.Instant

namespace Calendar

open Instant

/-! ## What is written after the year -/

namespace Clock

/-- The text of a clock with whole seconds, from the end of the year on. -/
def afterYear (c : Clock) : List Char :=
  '-' :: (padded 2 c.date.month ++ '-' :: (padded 2 c.date.day ++ 'T' :: (padded 2 c.hour ++
    ':' :: (padded 2 c.minute ++ ':' :: (padded 2 c.second ++ ['Z'])))))

/-- The clock shows the same in another year. -/
def inYear (c : Clock) (y : Int) : Clock := { c with date := { c.date with year := y } }

variable {c : Clock}

theorem isValid_iff : c.isValid = true ↔ c.date.isValid = true ∧ c.hour ≤ 23 ∧ c.minute ≤ 59 ∧
    c.second ≤ 60 := by
  simp only [isValid, Bool.and_eq_true, decide_eq_true_eq, and_assoc]

end Clock

theorem Date.isValid_iff {d : Date} : d.isValid = true ↔ minYear ≤ d.year ∧ d.year ≤ maxYear ∧
    1 ≤ d.month ∧ d.month ≤ 12 ∧ 1 ≤ d.day ∧ d.day ≤ daysInMonth d.year d.month := by
  simp only [isValid, Bool.and_eq_true, decide_eq_true_eq, and_assoc]

theorem daysInMonth_le (y : Int) (m : Nat) : daysInMonth y m ≤ 31 := by
  unfold daysInMonth
  split
  · split <;> decide
  · split <;> decide

/-- Two digits are enough for everything that a clock shows but the year. -/
theorem Clock.two_digits {c : Clock} (valid : c.isValid = true) : c.date.month < 10 ^ 2 ∧
    c.date.day < 10 ^ 2 ∧ c.hour < 10 ^ 2 ∧ c.minute < 10 ^ 2 ∧ c.second < 10 ^ 2 := by
  obtain ⟨date, hour, minute, second⟩ := isValid_iff.1 valid
  obtain ⟨_, _, _, month, _, day⟩ := Date.isValid_iff.1 date
  have day := day.trans (daysInMonth_le _ _)
  omega

/-- The strict notation reads what is written after a year of four digits. -/
theorem strict?_afterYear {c : Clock} (valid : c.isValid = true) (whole : c.nanos = 0) {y : Nat}
    (short : y < 10 ^ 4) : strict? (padded 4 y ++ c.afterYear) = some (c.inYear y, 0) := by
  obtain ⟨month, day, hour, minute, second⟩ := Clock.two_digits valid
  have two : ∀ {n : Nat}, n < 10 ^ 2 → ∀ rest, number 2 2 (padded 2 n ++ rest) = some (n, rest) :=
    fun fits rest => number_padded (by decide) fits rest
  have mark : ∀ (c : Char) rest, expect c (c :: rest) = some ((), rest) := fun _ _ => if_pos rfl
  refine Option.bind_eq_some_iff.2 ⟨_, number_padded (by decide) short _, ?_⟩
  refine Option.bind_eq_some_iff.2 ⟨_, mark '-' _, ?_⟩
  refine Option.bind_eq_some_iff.2 ⟨_, two month _, ?_⟩
  refine Option.bind_eq_some_iff.2 ⟨_, mark '-' _, ?_⟩
  refine Option.bind_eq_some_iff.2 ⟨_, two day _, ?_⟩
  refine Option.bind_eq_some_iff.2 ⟨((), _), rfl, ?_⟩
  refine Option.bind_eq_some_iff.2 ⟨_, two hour _, ?_⟩
  refine Option.bind_eq_some_iff.2 ⟨_, mark ':' _, ?_⟩
  refine Option.bind_eq_some_iff.2 ⟨_, two minute _, ?_⟩
  refine Option.bind_eq_some_iff.2 ⟨_, mark ':' _, ?_⟩
  refine Option.bind_eq_some_iff.2 ⟨_, two second _, ?_⟩
  refine Option.bind_eq_some_iff.2 ⟨(0, ['Z']), rfl, ?_⟩
  refine Option.bind_eq_some_iff.2 ⟨(0, []), rfl, ?_⟩
  refine (if_pos ⟨rfl, by decide⟩).trans ?_
  rw [Clock.inYear, whole]

theorem newline_notMem_padded {width n : Nat} : '\n' ∉ padded width n := fun member => by
  have digit := isDigit_of_mem_padded member
  revert digit
  decide

/-- What is written after the year has the form that a signed year asks for. -/
theorem Clock.afterYear_form {c : Clock} (valid : c.isValid = true) :
    ∃ m m' d d' h tail, c.afterYear = '-' :: m :: m' :: '-' :: d :: d' :: 'T' :: h :: tail ∧
      Text.isDigit m = true ∧ Text.isDigit m' = true ∧ Text.isDigit d = true ∧
      Text.isDigit d' = true ∧ '\n' ∉ h :: tail := by
  obtain ⟨month, day, hour, _⟩ := two_digits valid
  obtain ⟨m, m', months⟩ := List.length_eq_two.1 (@length_padded 2 _ (by decide) month)
  obtain ⟨d, d', days⟩ := List.length_eq_two.1 (@length_padded 2 _ (by decide) day)
  obtain ⟨h, h', hours⟩ := List.length_eq_two.1 (@length_padded 2 _ (by decide) hour)
  have digits : ∀ {n a b}, padded 2 n = [a, b] → Text.isDigit a = true ∧ Text.isDigit b = true := by
    intro n a b pair
    have member := fun {c} => @isDigit_of_mem_padded 2 n c
    rw [pair] at member
    exact ⟨member List.mem_cons_self, member (List.mem_cons_of_mem a List.mem_cons_self)⟩
  have line : '\n' ∉ h :: h' :: ':' ::
      (padded 2 c.minute ++ ':' :: (padded 2 c.second ++ ['Z'])) := by
    have hour : '\n' ∉ [h, h'] := hours ▸ newline_notMem_padded
    simp only [List.mem_cons, List.mem_append, newline_notMem_padded, List.not_mem_nil, not_or]
      at hour ⊢
    exact ⟨hour.1, hour.2.1, by decide⟩
  refine ⟨m, m', d, d', h, _, ?_, (digits months).1, (digits months).2, (digits days).1,
    (digits days).2, line⟩
  rw [afterYear, months, days, hours]
  rfl

/-- Behind a sign, the year is what stands before the first hyphen. -/
theorem extendedYear?_afterYear {c : Clock} (valid : c.isValid = true) {sign : Char}
    (signed : sign = '+' ∨ sign = '-') (n : Nat) :
    extendedYear? (sign :: (padded 4 n ++ c.afterYear)) =
      some (sign :: padded 4 n, c.afterYear) := by
  have digit : ∀ c ∈ padded 4 n, Text.isDigit c = true := fun _ => isDigit_of_mem_padded
  have year : (padded 4 n ++ c.afterYear).takeWhile Text.isDigit = padded 4 n := by
    rw [List.takeWhile_append_of_pos digit, Clock.afterYear, List.takeWhile_cons_of_neg (by decide),
      List.append_nil]
  have rest : (padded 4 n ++ c.afterYear).dropWhile Text.isDigit = c.afterYear := by
    rw [List.dropWhile_append_of_pos digit, Clock.afterYear, List.dropWhile_cons_of_neg (by decide)]
  obtain ⟨m, m', d, d', h, tail, form, month, month', day, day', line⟩ := c.afterYear_form valid
  obtain rfl | rfl := signed
  all_goals
    rw [extendedYear?]
    dsimp only
    rw [year, rest, form]
    exact if_pos ⟨le_length_padded 4 n, month, month', day, day', line⟩

theorem strict?_signed {sign : Char} (signed : sign = '+' ∨ sign = '-') (rest : List Char) :
    strict? (sign :: rest) = none := by
  obtain rfl | rfl := signed <;> rfl

/-! ## The clock of an instant -/

namespace Instant

/-- What a clock of universal time shows. -/
def clock (t : Instant) : Clock :=
  let s := (t.seconds % daySeconds).toNat
  ⟨Date.ofDays (t.seconds / daySeconds), s / 3600, s / 60 % 60, s % 60, t.nanos⟩

/-- The date of the instant is in the calendar. -/
def InCalendar (t : Instant) : Prop :=
  minDay ≤ t.seconds / daySeconds ∧ t.seconds / daySeconds ≤ maxDay

instance (t : Instant) : Decidable t.InCalendar := inferInstanceAs (Decidable (_ ∧ _))

theorem ofSeconds?_eq_some_iff {seconds : Int} {nanos : Nat} {t : Instant} :
    ofSeconds? seconds nanos = some t ↔ t = ⟨seconds, nanos⟩ ∧ t.InCalendar := by
  have given : ofSeconds? seconds nanos =
      if InCalendar ⟨seconds, nanos⟩ then some ⟨seconds, nanos⟩ else none := rfl
  rw [given, Option.ite_none_right_eq_some, Option.some.injEq, and_comm, eq_comm]
  exact and_congr_right fun same => by rw [same]

theorem isSome_ofSeconds?_iff {seconds : Int} {nanos : Nat} :
    (ofSeconds? seconds nanos).isSome = true ↔ InCalendar ⟨seconds, nanos⟩ := by
  simp only [Option.isSome_iff_exists, ofSeconds?_eq_some_iff, exists_eq_left]

variable {t : Instant}

theorem chars_eq (whole : t.nanos = 0) :
    t.chars = yearText t.clock.date.year ++ t.clock.afterYear := by
  simp only [chars, whole, clock, Clock.afterYear, fractionText]
  simp

/-- The clock shows the seconds of the day, and never a leap second. -/
theorem clock_time (t : Instant) :
    (t.clock.hour * 3600 + t.clock.minute * 60 + t.clock.second : Int) = t.seconds % daySeconds ∧
      t.clock.hour ≤ 23 ∧ t.clock.minute ≤ 59 ∧ t.clock.second ≤ 59 := by
  unfold clock daySeconds
  dsimp only
  omega

theorem clock_isValid (inside : t.InCalendar) : t.clock.isValid = true := by
  obtain ⟨_, hour, minute, second⟩ := t.clock_time
  exact Clock.isValid_iff.2 ⟨ofDays_isValid inside.1 inside.2, hour, minute, by omega⟩

/-- The clock shows the instant. -/
theorem instant?_clock (inside : t.InCalendar) : t.clock.instant? 0 = some t := by
  obtain ⟨time, _, _, second⟩ := t.clock_time
  have common : t.clock.second ≠ 60 := by omega
  have date : t.clock.date.toDays = t.seconds / daySeconds := toDays_ofDays _
  have shown : t.clock.date.toDays * daySeconds + t.clock.hour * 3600 + t.clock.minute * 60 +
      t.clock.second = t.seconds := by
    have whole := Int.ediv_mul_add_emod t.seconds daySeconds
    rw [date]
    omega
  rw [Clock.instant?, if_pos (clock_isValid inside), ofSeconds?_eq_some_iff]
  simp only [common, if_false, Int.sub_zero, shown]
  exact ⟨rfl, inside⟩

/-! ## Reading the text of an instant -/

theorem isInt64_of_year {y : Int} (first : minYear ≤ y) (last : y ≤ maxYear) :
    Decimal.isInt64 y = true := by
  have least : Decimal.int64Min ≤ minYear := by decide
  have greatest : maxYear < Decimal.int64Bound := by decide
  simp only [Decimal.isInt64, least.trans first, last.trans_lt greatest, decide_true, Bool.and_true]

/-- The year that is written behind a sign. -/
theorem int64?_padded {y : Int} (first : minYear ≤ y) (last : y ≤ maxYear) :
    Decimal.int64? ((if y < 0 then '-' else '+') :: padded 4 y.natAbs) = some y := by
  have fits := isInt64_of_year first last
  by_cases negative : y < 0
  · have written : -(y.natAbs : Int) = y := by omega
    simp only [Decimal.int64?, negative, if_true, nat?_padded, Option.map_some,
      Int.ofNat_eq_natCast, written, Option.filter_some, fits]
  · have written : (y.natAbs : Int) = y := by omega
    simp only [Decimal.int64?, negative, if_false, nat?_padded, Option.map_some,
      Int.ofNat_eq_natCast, written, Option.filter_some, fits, if_true]

/-- In the leap year 2000 every date has its day. -/
theorem isSome_instant?_inYear {c : Clock} (valid : c.isValid = true) :
    ((c.inYear 2000).instant? 0).isSome = true := by
  obtain ⟨date, hour, minute, second⟩ := Clock.isValid_iff.1 valid
  obtain ⟨_, _, month, month', day, day'⟩ := Date.isValid_iff.1 date
  have day' : c.date.day ≤ daysInMonth 2000 c.date.month := by
    refine day'.trans ?_
    unfold daysInMonth
    split
    · split <;> decide
    · exact le_refl _
  have start : minYear ≤ 2000 := by decide
  have final : 2000 ≤ maxYear := by decide
  have valid' : (c.inYear 2000).isValid = true :=
    Clock.isValid_iff.2 ⟨Date.isValid_iff.2 ⟨start, final, month, month', day, day'⟩,
      hour, minute, second⟩
  have days : 10957 ≤ (c.inYear 2000).date.toDays ∧ (c.inYear 2000).date.toDays ≤ 11330 := by
    have short := daysInMonth_le 2000 c.date.month
    unfold Clock.inYear Date.toDays monthStart
    dsimp only
    by_cases late : 2 < c.date.month
    · simp only [late, decide_true, if_true]
      omega
    · simp only [late, decide_false, Bool.false_eq_true, if_false]
      omega
  have low : minDay ≤ 0 := by decide +kernel
  have high : 20000 ≤ maxDay := by decide +kernel
  rw [Clock.instant?, if_pos valid', isSome_ofSeconds?_iff]
  have shown : (c.inYear 2000).hour ≤ 23 ∧ (c.inYear 2000).minute ≤ 59 ∧
      (c.inYear 2000).second ≤ 60 := ⟨hour, minute, second⟩
  unfold InCalendar daySeconds
  dsimp only
  split <;> omega

/-- Behind a sign, the date is read in the year 2000 and then moved to its own year. -/
theorem extendedInstant?_clock {t : Instant} (inside : t.InCalendar) {year : List Char}
    (reads : Decimal.int64? year = some t.clock.date.year) (whole : t.nanos = 0) :
    extendedInstant? year t.clock.afterYear = some t := by
  have valid := clock_isValid inside
  obtain ⟨u, leap⟩ := Option.isSome_iff_exists.1 (isSome_instant?_inYear valid)
  have rest : strict? (['2', '0', '0', '0'] ++ t.clock.afterYear) =
      some (t.clock.inYear 2000, 0) := strict?_afterYear valid whole (y := 2000) (by decide)
  refine Option.bind_eq_some_iff.2 ⟨_, reads, ?_⟩
  refine Option.bind_eq_some_iff.2 ⟨_, rest, ?_⟩
  refine Option.bind_eq_some_iff.2 ⟨u, leap, ?_⟩
  exact instant?_clock inside

theorem yearText_solid (y : Int) : ∀ c ∈ yearText y, Text.isBlank c = false := by
  unfold yearText
  split
  · exact fun _ => isBlank_of_mem_padded
  · refine List.forall_mem_cons.2 ⟨?_, fun _ => isBlank_of_mem_padded⟩
    split <;> rfl

theorem afterYear_solid (c : Clock) : ∀ ch ∈ c.afterYear, Text.isBlank ch = false := by
  have digits : ∀ n, ∀ ch ∈ padded 2 n, Text.isBlank ch = false := fun _ _ =>
    isBlank_of_mem_padded
  have hyphen : Text.isBlank '-' = false := by decide
  have colon : Text.isBlank ':' = false := by decide
  have mark : Text.isBlank 'T' = false := by decide
  have zone : Text.isBlank 'Z' = false := by decide
  simp only [Clock.afterYear, List.forall_mem_cons, List.forall_mem_append, hyphen, colon, mark,
    zone, true_and]
  exact ⟨digits _, digits _, digits _, digits _, digits _, List.forall_mem_nil _⟩

/-- The text of an instant with whole seconds is read as that instant. -/
theorem instant?_text {t : Instant} (inside : t.InCalendar) (whole : t.nanos = 0) :
    instant? t.text = some t := by
  have valid := clock_isValid inside
  have solid : ∀ c ∈ t.chars, Text.isBlank c = false := by
    rw [chars_eq whole]
    exact List.forall_mem_append.2 ⟨yearText_solid _, afterYear_solid _⟩
  have chars : Text.trimChars t.text.toList = t.chars := by
    rw [text, String.toList_ofList, Text.trimChars_eq_self solid]
  unfold instant?
  rw [chars, chars_eq whole, yearText]
  by_cases short : 0 ≤ t.clock.date.year ∧ t.clock.date.year ≤ 9999
  · have same : t.clock.inYear t.clock.date.year.toNat = t.clock := by
      rw [Int.toNat_of_nonneg short.1]
      rfl
    have read :
        strictInstant? (padded 4 t.clock.date.year.toNat ++ t.clock.afterYear) = some t := by
      rw [strictInstant?, strict?_afterYear valid whole (by omega), Option.bind_some, same,
        instant?_clock inside]
    rw [if_pos short]
    dsimp only
    rw [read]
  · obtain ⟨first, last, _⟩ := Date.isValid_iff.1 (Clock.isValid_iff.1 valid).1
    have signed : (if t.clock.date.year < 0 then '-' else '+') = '+' ∨
        (if t.clock.date.year < 0 then '-' else '+') = '-' := (ite_eq_or_eq ..).symm
    have unread : ∀ rest, strictInstant?
        ((if t.clock.date.year < 0 then '-' else '+') :: rest) = none := fun rest => by
      rw [strictInstant?, strict?_signed signed, Option.bind_none]
    rw [if_neg short, List.cons_append]
    dsimp only
    rw [unread, extendedYear?_afterYear valid signed]
    exact extendedInstant?_clock inside (int64?_padded first last) whole

end Instant

end Calendar

namespace Reshape

open Calendar

theorem unixToIso_int {t : Int} (fits : Decimal.isInt64 t = true) :
    unixToIso (.num (.int t)) = (Instant.ofSeconds? t 0).map fun u => .str u.text := by
  simp only [unixToIso, numberOf?, Number.toInt64?, fits, if_true, Option.bind_some, instantOf?]

/-- Seconds are written as a time stamp exactly when their date is in the calendar. -/
theorem unixToIso_eq_some_iff {t : Int} (fits : Decimal.isInt64 t = true) {stamp : Value} :
    unixToIso (.num (.int t)) = some stamp ↔
      Instant.InCalendar ⟨t, 0⟩ ∧ stamp = .str (Instant.mk t 0).text := by
  simp only [unixToIso_int fits, Option.map_eq_some_iff, Instant.ofSeconds?_eq_some_iff, and_assoc,
    exists_eq_left, @eq_comm _ stamp]

/-- A number of seconds that is written as a time stamp is read back from it, whatever its sign and
its year, and all seconds from 1970 to the year 9999 are written. -/
theorem isoToUnix_unixToIso (t : Int) (fits : Decimal.isInt64 t = true) :
    (∀ stamp, unixToIso (.num (.int t)) = some stamp → isoToUnix stamp = some (.num (.int t))) ∧
      ((∃ stamp, unixToIso (.num (.int t)) = some (.str stamp)) ↔
        minDay * Instant.daySeconds ≤ t ∧ t < (maxDay + 1) * Instant.daySeconds) ∧
      (0 ≤ t → t < Date.toDays ⟨10000, 1, 1⟩ * Instant.daySeconds →
        ∃ stamp, unixToIso (.num (.int t)) = some (.str stamp)) := by
  have written : (∃ stamp, unixToIso (.num (.int t)) = some (.str stamp)) ↔
      minDay * Instant.daySeconds ≤ t ∧ t < (maxDay + 1) * Instant.daySeconds := by
    simp only [unixToIso_eq_some_iff fits, exists_and_left, Value.str.injEq, exists_eq, and_true,
      Instant.InCalendar, Instant.daySeconds]
    omega
  refine ⟨fun stamp made => ?_, written, fun start final => written.2 ?_⟩
  · obtain ⟨inside, rfl⟩ := (unixToIso_eq_some_iff fits).1 made
    simp only [isoToUnix, Instant.instant?_text inside rfl, Option.map_some]
  · have low : minDay ≤ 0 := by decide +kernel
    have high : Date.toDays ⟨10000, 1, 1⟩ ≤ maxDay := by decide +kernel
    unfold Instant.daySeconds at final ⊢
    omega

/-- The first second of the year 10000 and the last one before the year 0 have signed years. -/
theorem isoToUnix_signed_years :
    unixToIso (.num (.int 253402300800)) = some (.str "+10000-01-01T00:00:00Z") ∧
      isoToUnix (.str "+10000-01-01T00:00:00Z") = some (.num (.int 253402300800)) ∧
      unixToIso (.num (.int (-62167219201))) = some (.str "-0001-12-31T23:59:59Z") ∧
      isoToUnix (.str "-0001-12-31T23:59:59Z") = some (.num (.int (-62167219201))) := by
  have late : unixToIso (.num (.int 253402300800)) = some (.str "+10000-01-01T00:00:00Z") := by
    rw [unixToIso_int (by decide)]
    rfl
  have early : unixToIso (.num (.int (-62167219201))) = some (.str "-0001-12-31T23:59:59Z") := by
    rw [unixToIso_int (by decide)]
    rfl
  exact ⟨late, (isoToUnix_unixToIso 253402300800 (by decide)).1 _ late,
    early, (isoToUnix_unixToIso (-62167219201) (by decide)).1 _ early⟩

end Reshape

end DataMigration
