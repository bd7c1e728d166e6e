import DataMigration.Calendar.Date
import Mathlib.Tactic.IntervalCases

/-!
# Days and dates

A distance in days is split into eras of 400 years, the era into years that start in March, and the
year into months. Putting the parts together again gives the distance back, and the parts are those
of a date of the calendar: a month has the days that the calendar gives it, and the leap day comes
in leap years only.
-/

namespace DataMigration.Calendar

/-! ## The years of an era -/

/-- The day of an era of 400 years on which one of its years begins. -/
def yearStart (y : Int) : Int := 365 * y + y / 4 - y / 100

/-- The year of an era in which a day of the era lies. -/
def yearOfEra (day : Int) : Int := (day - day / 1460 + day / 36524 - day / 146096) / 365

/-- A century has 36524 days, and four years in it have 1461. -/
theorem yearStart_eq {century quarter k : Int} (early : 0 ≤ quarter ∧ quarter ≤ 24)
    (few : 0 ≤ k ∧ k ≤ 3) :
    yearStart (100 * century + 4 * quarter + k) = 36524 * century + 1461 * quarter + 365 * k := by
  have fourth : (100 * century + 4 * quarter + k) / 4 = 25 * century + quarter := by omega
  have hundredth : (100 * century + 4 * quarter + k) / 100 = century := by omega
  rw [yearStart, fourth, hundredth]
  omega

/-- A day of an era by its century, four years of the century and the year among these. -/
theorem exists_yearOfEra {day : Int} (first : 0 ≤ day) (last : day < 146096) :
    ∃ century quarter k rest : Int, yearOfEra day = 100 * century + 4 * quarter + k ∧
      day = 36524 * century + 1461 * quarter + rest ∧
      (0 ≤ century ∧ century ≤ 3 ∧ 1461 * quarter + rest < 36524) ∧
      (0 ≤ quarter ∧ quarter ≤ 24 ∧ 0 ≤ rest ∧ rest ≤ 1460) ∧
      0 ≤ k ∧ k ≤ 3 ∧ 365 * k ≤ rest ∧ (rest < 365 * (k + 1) ∨ k = 3) := by
  obtain ⟨century, centuries⟩ : ∃ century, century = day / 36524 := ⟨_, rfl⟩
  obtain ⟨quarter, quarters⟩ : ∃ quarter, quarter = day % 36524 / 1461 := ⟨_, rfl⟩
  obtain ⟨rest, remains⟩ : ∃ rest, rest = day % 36524 % 1461 := ⟨_, rfl⟩
  have shift : day / 1460 = 25 * century + quarter + (24 * century + quarter + rest) / 1460 := by
    omega
  refine ⟨century, quarter, (rest - (24 * century + quarter + rest) / 1460) / 365, rest, ?_, ?_⟩
  · unfold yearOfEra
    omega
  · omega

/-- A day lies between the first days of its year and of the next one; the last year of an era has
a day more than there are up to the next. -/
theorem yearOfEra_spec {day : Int} (first : 0 ≤ day) (last : day < 146097) :
    0 ≤ yearOfEra day ∧ yearOfEra day < 400 ∧ yearStart (yearOfEra day) ≤ day ∧
      (day < yearStart (yearOfEra day + 1) ∨ yearOfEra day = 399 ∧ day = 146096) := by
  obtain rfl | early : day = 146096 ∨ day < 146096 := by omega
  · decide
  obtain ⟨century, quarter, k, rest, year, whole, inCentury, inQuarter, inYear⟩ :=
    exists_yearOfEra first early
  have start := @yearStart_eq century quarter k (by omega) (by omega)
  have next : day < yearStart (100 * century + 4 * quarter + k + 1) := by
    -- the next year is the next of the four, the first of the next four or of the next century
    obtain within | ⟨rfl, within⟩ | ⟨rfl, rfl⟩ :
        k < 3 ∨ (k = 3 ∧ quarter < 24) ∨ k = 3 ∧ quarter = 24 := by omega
    · have next := @yearStart_eq century quarter (k + 1) (by omega) (by omega)
      rw [Int.add_assoc, next]
      omega
    · have next := @yearStart_eq century (quarter + 1) 0 (by omega) (by omega)
      rw [show 100 * century + 4 * quarter + 3 + 1 = 100 * century + 4 * (quarter + 1) + 0 by omega,
        next]
      omega
    · have next := @yearStart_eq (century + 1) 0 0 (by omega) (by omega)
      rw [show 100 * century + 4 * 24 + 3 + 1 = 100 * (century + 1) + 4 * 0 + 0 by omega, next]
      omega
  rw [year]
  omega

/-- A year has a day 365 only if it ends with the leap day of the calendar year in which it ends. -/
theorem leap_of_yearStart {y day : Int}
    (next : day < yearStart (y + 1) ∨ y = 399 ∧ day = 146096) :
    day - yearStart y ≤ 365 ∧ (day - yearStart y = 365 → isLeapYear (y + 1) = true) := by
  unfold yearStart at *
  simp only [isLeapYear, Bool.and_eq_true, Bool.or_eq_true, beq_iff_eq, bne_iff_ne]
  omega

theorem isLeapYear_add_era (y era : Int) : isLeapYear (y + era * 400) = isLeapYear y := by
  have fourth : (y + era * 400) % 4 = y % 4 := by omega
  have hundredth : (y + era * 400) % 100 = y % 100 := by omega
  have last : (y + era * 400) % 400 = y % 400 := by omega
  rw [isLeapYear, fourth, hundredth, last, isLeapYear]

/-! ## The days of a year -/

/-- The month of a year that starts in March in which a day of the year lies; March is month 0. -/
def monthOfYear (day : Int) : Int := (5 * day + 2) / 153

/-- The date of a day of a year that starts in March. -/
def Date.ofMarch (y day : Int) : Date :=
  let m := monthOfYear day
  let month := if m < 10 then m + 3 else m - 9
  ⟨y + (if month ≤ 2 then 1 else 0), month.toNat, (day - monthStart m + 1).toNat⟩

/-- A day of a year that starts in March by month and day; January and February are in the calendar
year after it. -/
theorem exists_ofMarch {day : Int} (first : 0 ≤ day) (last : day ≤ 365) (y : Int) :
    ∃ m d : Nat, m ≤ 11 ∧ 1 ≤ d ∧ day = monthStart m + d - 1 ∧ day < monthStart (m + 1) ∧
      Date.ofMarch y day = if m < 10 then ⟨y, m + 3, d⟩ else ⟨y + 1, m - 9, d⟩ := by
  obtain ⟨m, months⟩ : ∃ m : Nat, (m : Int) = monthOfYear day :=
    ⟨_, Int.toNat_of_nonneg (by unfold monthOfYear; omega)⟩
  have start : monthStart m ≤ day := by
    rw [months, monthStart, monthOfYear]
    omega
  have twelve : m ≤ 11 := by
    unfold monthOfYear at months
    omega
  obtain ⟨d, days⟩ : ∃ d : Nat, (d : Int) = day - monthStart m + 1 :=
    ⟨_, Int.toNat_of_nonneg (by omega)⟩
  refine ⟨m, d, twelve, by omega, by omega, ?_, ?_⟩
  · rw [months, monthStart, monthOfYear]
    omega
  · have date : Date.ofMarch y day =
        let month : Int := if (m : Int) < 10 then m + 3 else m - 9
        ⟨y + (if month ≤ 2 then 1 else 0), month.toNat, d⟩ := by
      simp only [Date.ofMarch, ← months, ← days, Int.toNat_natCast]
    rw [date]
    by_cases spring : m < 10
    · simp only [spring, Nat.cast_lt_ofNat, if_true, Date.mk.injEq, and_true]
      omega
    · simp only [spring, Nat.cast_lt_ofNat, if_false, Date.mk.injEq, and_true]
      omega

/-! ## The days of the calendar -/

/-- A distance in days as a day of a year that starts in March. -/
structure MarchDay (n y day : Int) : Prop where
  whole : n + 719468 = 365 * y + y / 4 - y / 100 + y / 400 + day
  first : 0 ≤ day
  last : day ≤ 365
  leap : day = 365 → isLeapYear (y + 1) = true

theorem exists_marchDay (n : Int) : ∃ y day, MarchDay n y day ∧ Date.ofDays n = .ofMarch y day := by
  have same : Date.ofDays n = .ofMarch
      (yearOfEra ((n + 719468) % 146097) + (n + 719468) / 146097 * 400)
      ((n + 719468) % 146097 - yearStart (yearOfEra ((n + 719468) % 146097))) := rfl
  refine ⟨_, _, ?_, same⟩
  obtain ⟨era, eras⟩ : ∃ era, era = (n + 719468) / 146097 := ⟨_, rfl⟩
  obtain ⟨day, days⟩ : ∃ day, day = (n + 719468) % 146097 := ⟨_, rfl⟩
  rw [← eras, ← days]
  obtain ⟨first, last, start, next⟩ := @yearOfEra_spec day (by omega) (by omega)
  obtain ⟨short, leap⟩ := leap_of_yearStart next
  refine ⟨?_, by omega, short, fun full => ?_⟩
  · unfold yearStart
    generalize yearOfEra day = y at *
    omega
  · rw [Int.add_right_comm, isLeapYear_add_era]
    exact leap full

namespace MarchDay

variable {n y day : Int}

/-- The date of a day is at the distance of the day. -/
theorem toDays_ofMarch (march : MarchDay n y day) : (Date.ofMarch y day).toDays = n := by
  obtain ⟨m, d, months, days, rfl, next, made⟩ := exists_ofMarch march.first march.last y
  have whole := march.whole
  rw [made, Date.toDays]
  split
  · simp only [show 2 < m + 3 by omega, decide_true, if_true]
    push_cast
    rw [show (m : Int) + 3 - 3 = m by omega]
    omega
  · simp only [show ¬ 2 < m - 9 by omega, decide_false, Bool.false_eq_true, if_false]
    rw [show ((m - 9 : Nat) : Int) + 9 = m by omega, show y + 1 - 1 = y by omega]
    omega

/-- The date of a day has a month and a day of the month. -/
theorem ofMarch_month (march : MarchDay n y day) :
    let date := Date.ofMarch y day
    1 ≤ date.month ∧ date.month ≤ 12 ∧ 1 ≤ date.day ∧
      date.day ≤ daysInMonth date.year date.month := by
  obtain ⟨m, d, months, days, whole, next, made⟩ := exists_ofMarch march.first march.last y
  have last := march.last
  rw [made]
  unfold monthStart at whole next
  by_cases spring : m < 11
  · interval_cases m <;> simp [daysInMonth] <;> omega
  · -- the last day of February comes in leap years only
    obtain rfl : m = 11 := by omega
    have short : isLeapYear (y + 1) = false → d ≤ 28 := fun regular => by
      have := mt march.leap (Bool.eq_false_iff.1 regular)
      omega
    cases leap : isLeapYear (y + 1) with
    | true => simp [daysInMonth, leap]; omega
    | false => simpa [daysInMonth, leap] using ⟨days, short leap⟩

end MarchDay

@[simp] theorem toDays_ofDays (n : Int) : (Date.ofDays n).toDays = n := by
  obtain ⟨y, day, march, made⟩ := exists_marchDay n
  rw [made, march.toDays_ofMarch]

/-- Days in the range of the calendar have dates of the calendar. -/
theorem ofDays_isValid {n : Int} (first : minDay ≤ n) (last : n ≤ maxDay) :
    (Date.ofDays n).isValid = true := by
  obtain ⟨y, day, march, made⟩ := exists_marchDay n
  obtain ⟨month, month', monthDay, monthDay'⟩ := march.ofMarch_month
  have years : minYear ≤ (Date.ofMarch y day).year ∧ (Date.ofMarch y day).year ≤ maxYear := by
    have low : minDay = -96465292 := by decide +kernel
    have high : maxDay = 95026236 := by decide +kernel
    obtain ⟨m, d, twelve, _, whole, next, date⟩ := exists_ofMarch march.first march.last y
    obtain ⟨distance, nonneg, short, _⟩ := march
    -- the calendar begins and ends between two of the years that start in March
    have half : m < 10 ∧ day < 306 ∨ 10 ≤ m ∧ 306 ≤ day := by
      unfold monthStart at whole next
      omega
    have start : -262144 ≤ y ∧ (y = -262144 → 306 ≤ day) :=
      ⟨by omega, by rintro rfl; omega⟩
    have final : y ≤ 262142 ∧ (y = 262142 → day < 306) :=
      ⟨by omega, by rintro rfl; omega⟩
    rw [date, minYear, maxYear]
    split <;> dsimp only <;> omega
  rw [made]
  simp only [Date.isValid, Bool.and_eq_true, decide_eq_true_eq]
  exact ⟨⟨⟨⟨⟨years.1, years.2⟩, month⟩, month'⟩, monthDay⟩, monthDay'⟩

end DataMigration.Calendar
