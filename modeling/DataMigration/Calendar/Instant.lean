import DataMigration.Calendar.Date
import DataMigration.Decimal.Layout

/-!
# Instants

A point in universal time, as seconds since 1970 and nanoseconds. A count of nanoseconds of a
second or more stands for a leap second, which has no seconds of its own. `Instant.text` writes
the form of RFC 3339.
-/

namespace DataMigration.Calendar

/-- A point in time. -/
structure Instant where
  seconds : Int
  nanos : Nat
  deriving DecidableEq, Repr, Inhabited

namespace Instant

/-- The number of seconds of a day. -/
def daySeconds : Int := 86400

/-- The instant at `seconds` and `nanos`, if its date is in the calendar. -/
def ofSeconds? (seconds : Int) (nanos : Nat) : Option Instant :=
  let day := seconds / daySeconds
  if minDay ≤ day ∧ day ≤ maxDay then some ⟨seconds, nanos⟩ else none

/-- A decimal number of at least `width` digits. -/
def padded (width n : Nat) : List Char :=
  let ds := Decimal.natDigits n
  List.replicate (width - ds.length) '0' ++ ds

/-- A year: four digits, signed outside of 0 to 9999. -/
def yearText (y : Int) : List Char :=
  if 0 ≤ y ∧ y ≤ 9999 then padded 4 y.toNat
  else (if y < 0 then '-' else '+') :: padded 4 y.natAbs

/-- The fraction of a second with no, three, six or nine digits, as few as are exact. -/
def fractionText (nanos : Nat) : List Char :=
  if nanos = 0 then []
  else if nanos % 1000000 = 0 then '.' :: padded 3 (nanos / 1000000)
  else if nanos % 1000 = 0 then '.' :: padded 6 (nanos / 1000)
  else '.' :: padded 9 nanos

/-- The characters of the RFC 3339 form in universal time. -/
def chars (t : Instant) : List Char :=
  let date := Date.ofDays (t.seconds / daySeconds)
  let s := (t.seconds % daySeconds).toNat
  let leap := 1000000000 ≤ t.nanos
  let second := s % 60 + (if leap then 1 else 0)
  let nanos := if leap then t.nanos - 1000000000 else t.nanos
  yearText date.year ++ '-' :: padded 2 date.month ++ '-' :: padded 2 date.day ++
    'T' :: padded 2 (s / 3600) ++ ':' :: padded 2 (s / 60 % 60) ++ ':' :: padded 2 second ++
    fractionText nanos ++ ['Z']

/-- The RFC 3339 form in universal time. -/
def text (t : Instant) : String := String.ofList t.chars

/-- A leap second that the seconds between two times of day do not count: the one of the earlier
time of day. -/
def uncountedLeap (a b : Instant) : Int :=
  let clock (t : Instant) : Int := t.seconds % daySeconds
  let leap (t : Instant) : Int := if 1000000000 ≤ t.nanos then 1 else 0
  if clock a < clock b then leap a else if clock b < clock a then -leap b else 0

/-- Whole milliseconds from `a` to `b`, rounded towards zero. -/
def millisBetween (a b : Instant) : Int :=
  Int.tdiv ((b.seconds - a.seconds + uncountedLeap a b) * 1000000000 + (b.nanos - a.nanos : Int))
    1000000

/-- Seconds from `a` to `b`, to the millisecond. -/
def secondsBetween (a b : Instant) : Float := Float.ofInt (millisBetween a b) / 1000.0

/-- The instant as `YYYYMMDD_hhmmss`. -/
def stamp (t : Instant) : String :=
  let date := Date.ofDays (t.seconds / daySeconds)
  let s := (t.seconds % daySeconds).toNat
  String.ofList (yearText date.year ++ padded 2 date.month ++ padded 2 date.day ++ '_' ::
    padded 2 (s / 3600) ++ padded 2 (s / 60 % 60) ++ padded 2 (s % 60))

end Instant

end DataMigration.Calendar
