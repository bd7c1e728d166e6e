import DataMigration.Calendar.Instant
import DataMigration.Decimal.Read
import DataMigration.Text.Blank
import DataMigration.Text.Digit

/-!
# Reading dates and times

Three notations with a zone: the strict form of RFC 3339, a relaxed one that allows blanks and
short numbers, and the strict form behind a signed year of four digits or more. Without a zone
there are local dates and times, which are taken as universal time.
-/

namespace DataMigration.Calendar

/-- A wall-clock time of a date. A second of 60 is a leap second. -/
structure Clock where
  date : Date
  hour : Nat
  minute : Nat
  second : Nat
  nanos : Nat

/-- The clock shows a time of a valid date. -/
def Clock.isValid (c : Clock) : Bool :=
  c.date.isValid && decide (c.hour ≤ 23) && decide (c.minute ≤ 59) && decide (c.second ≤ 60)

/-- The instant when a clock that is `offset` seconds ahead of universal time shows `c`. -/
def Clock.instant? (c : Clock) (offset : Int) : Option Instant :=
  if c.isValid then
    let leap := c.second = 60
    let second : Nat := if leap then 59 else c.second
    let shown : Int :=
      c.date.toDays * Instant.daySeconds + c.hour * 3600 + c.minute * 60 + second
    Instant.ofSeconds? (shown - offset) (c.nanos + (if leap then 1000000000 else 0))
  else none

/-- A reader of a part of a text: its value and what follows. -/
abbrev Reader (α : Type) := List Char → Option (α × List Char)

/-- A natural number of `min` to `max` ASCII digits. -/
def number (min max : Nat) : Reader Nat := fun cs =>
  let digits := (cs.take max).takeWhile fun c => (Decimal.digit? c).isSome
  if digits.length < min then none
  else (Decimal.nat? digits).map fun n => (n, cs.drop digits.length)

/-- A fixed character. -/
def expect (c : Char) : Reader Unit := fun cs =>
  match cs with
  | d :: r => if d = c then some ((), r) else none
  | [] => none

/-- Blanks, then a number of one to `max` digits. -/
def looseNumber (max : Nat) : Reader Nat := fun cs => number 1 max (Text.dropBlanks cs)

/-- Blanks, then a year: up to four digits, or a sign and any number of digits. -/
def looseYear : Reader Int := fun cs =>
  let signed (sign : Int) (r : List Char) : Option (Int × List Char) := do
    let (n, r) ← number 1 r.length r
    if n < Nat.pow 2 31 then some (sign * n, r) else none
  match Text.dropBlanks cs with
  | '-' :: r => signed (-1) r
  | '+' :: r => signed 1 r
  | r => (number 1 4 r).map fun p => (Int.ofNat p.1, p.2)

/-- A point and a fraction of a second; digits after the ninth are dropped. -/
def fraction : Reader Nat := fun cs =>
  match cs with
  | '.' :: r => do
    let (n, rest) ← number 1 9 r
    let used := r.length - rest.length
    some (n * Nat.pow 10 (9 - used), rest.dropWhile fun c => (Decimal.digit? c).isSome)
  | r => some (0, r)

/-- The mark between a date and a time. -/
def dateTimeMark : Reader Unit := fun cs =>
  match cs with
  | 'T' :: r => some ((), r)
  | 't' :: r => some ((), r)
  | ' ' :: r => some ((), r)
  | _ => none

/-- A zone: `Z` or a sign, two digits of hours, what `between` accepts, two digits of minutes. -/
def zone (between : Reader Unit) : Reader Int := fun cs =>
  let offset (sign : Int) (r : List Char) : Option (Int × List Char) := do
    let (h, r) ← number 2 2 r
    let (_, r) ← between r
    let (m, r) ← number 2 2 r
    if m ≤ 59 then some (sign * (h * 3600 + m * 60 : Nat), r) else none
  match cs with
  | 'Z' :: r => some (0, r)
  | 'z' :: r => some (0, r)
  | '+' :: r => offset 1 r
  | '-' :: r => offset (-1) r
  | '−' :: r => offset (-1) r
  | _ => none

/-- The strict form of RFC 3339, with nothing before or after it. -/
def strict? (cs : List Char) : Option (Clock × Int) := do
  let (y, r) ← number 4 4 cs
  let (_, r) ← expect '-' r
  let (mo, r) ← number 2 2 r
  let (_, r) ← expect '-' r
  let (d, r) ← number 2 2 r
  let (_, r) ← dateTimeMark r
  let (h, r) ← number 2 2 r
  let (_, r) ← expect ':' r
  let (mi, r) ← number 2 2 r
  let (_, r) ← expect ':' r
  let (s, r) ← number 2 2 r
  let (n, r) ← fraction r
  let (offset, r) ← zone (expect ':') r
  if r = [] ∧ offset.natAbs < 86400 then some (⟨⟨y, mo, d⟩, h, mi, s, n⟩, offset) else none

/-- The instant that a strict text names. -/
def strictInstant? (cs : List Char) : Option Instant :=
  (strict? cs).bind fun p => p.1.instant? p.2

/-- A date with numbers of any length, blanks allowed in front of them. -/
def looseDate (separator : Reader Unit) : Reader Date := fun cs => do
  let (y, r) ← looseYear cs
  let (_, r) ← separator r
  let (m, r) ← looseNumber 2 r
  let (_, r) ← separator r
  let (d, r) ← looseNumber 2 r
  some (⟨y, m, d⟩, r)

/-- A time of day with numbers of any length. -/
def looseTime (separator : Reader Unit) : Reader (Nat × Nat × Nat × Nat) := fun cs => do
  let (h, r) ← looseNumber 2 cs
  let (_, r) ← separator r
  let (m, r) ← looseNumber 2 r
  let (_, r) ← separator r
  let (s, r) ← looseNumber 2 r
  let (n, r) ← fraction r
  some ((h, m, s, n), r)

/-- A character with blanks in front of it. -/
def expectLoosely (c : Char) : Reader Unit := fun cs => expect c (Text.dropBlanks cs)

/-- A colon or any blanks, or nothing. -/
def colonsOrBlanks : Reader Unit := fun cs =>
  some ((), cs.dropWhile fun c => c == ':' || Text.isBlank c)

/-- The relaxed form of RFC 3339 that time stamps of documents may have. -/
def relaxedInstant? (cs : List Char) : Option Instant := do
  let (date, r) ← looseDate (expectLoosely '-') cs
  let (_, r) ← dateTimeMark r
  let ((h, mi, s, n), r) ← looseTime (expectLoosely ':') r
  let r := Text.dropBlanks r
  let (offset, r) ←
    if (r.take 3).map Char.toLower = ['u', 't', 'c'] then some (0, r.drop 3)
    else zone colonsOrBlanks r
  if Text.dropBlanks r = [] ∧ offset.natAbs < 86400 then
    (Clock.mk date h mi s n).instant? offset
  else none

/-- A date alone: year, month and day between hyphens. -/
def dateOnly? (cs : List Char) : Option Date := do
  let (date, r) ← looseDate (expect '-') cs
  if r = [] ∧ date.isValid then some date else none

/-- A date, a mark and a time of day without a zone. -/
def localInstant? (mark : Reader Unit) (cs : List Char) : Option Instant := do
  let (date, r) ← looseDate (expect '-') cs
  let (_, r) ← mark r
  let ((h, mi, s, n), r) ← looseTime (expect ':') r
  if r = [] then (Clock.mk date h mi s n).instant? 0 else none

/-- Any blanks. -/
def blanks : Reader Unit := fun cs => some ((), Text.dropBlanks cs)

/-- The parts of a signed year of at least four digits and the rest of a time stamp. -/
def extendedYear? (cs : List Char) : Option (List Char × List Char) :=
  let after (sign : Char) (r : List Char) : Option (List Char × List Char) :=
    let digits := r.takeWhile Text.isDigit
    let rest := r.dropWhile Text.isDigit
    match rest with
    | '-' :: a :: b :: '-' :: c :: d :: 'T' :: e :: tail =>
      if 4 ≤ digits.length ∧ Text.isDigit a ∧ Text.isDigit b ∧ Text.isDigit c ∧ Text.isDigit d ∧
          '\n' ∉ e :: tail then some (sign :: digits, rest)
      else none
    | _ => none
  match cs with
  | '+' :: r => after '+' r
  | '-' :: r => after '-' r
  | _ => none

/-- The instant of a time stamp with a signed year, which is read in the leap year 2000 and then
moved to its own year. -/
def extendedInstant? (year rest : List Char) : Option Instant := do
  let y ← Decimal.int64? year
  let (clock, offset) ← strict? (['2', '0', '0', '0'] ++ rest)
  let _ ← clock.instant? offset
  let moved : Clock :=
    ⟨⟨y, clock.date.month, clock.date.day⟩, clock.hour, clock.minute, clock.second, clock.nanos⟩
  moved.instant? offset

/-- The instant that a text names in one of the accepted notations. -/
def instant? (s : String) : Option Instant :=
  let cs := Text.trimChars s.toList
  match strictInstant? cs with
  | some t => some t
  | none =>
    match extendedYear? cs with
    | some (year, rest) => extendedInstant? year rest
    | none =>
      match localInstant? (expect 'T') cs with
      | some t => some t
      | none =>
        match localInstant? blanks cs with
        | some t => some t
        | none => (dateOnly? cs).map fun d => ⟨d.toDays * Instant.daySeconds, 0⟩

/-- A text that names a date. -/
def isDate (s : String) : Bool := (dateOnly? s.toList).isSome

/-- A text that names a date and a time of day, with or without a zone. -/
def isDateTime (s : String) : Bool :=
  (strictInstant? s.toList).isSome || (localInstant? (expect 'T') s.toList).isSome

end DataMigration.Calendar
