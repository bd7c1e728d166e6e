import DataMigration.Json.Write
import DataMigration.Text.Case
import DataMigration.Text.Cut
import DataMigration.Text.Digit

/-!
# Field rules

Additional checks on the value of a field. They judge the text of a value.
-/

namespace DataMigration

/-- A named check that gives a message for a value it rejects. -/
structure FieldRule where
  name : String
  check : Value → Option String

namespace FieldRule

/-- An ASCII letter or digit. -/
def isAlphanumeric (c : Char) : Bool := c.isAlphanum

/-- A character of the part of an address before the at sign. -/
def isMailboxChar (c : Char) : Bool := isAlphanumeric c || "._%+-".toList.contains c

/-- A character of the part of an address after the at sign. -/
def isDomainChar (c : Char) : Bool := isAlphanumeric c || c == '.' || c == '-'

/-- Characters of a domain that end in a dot and at least two letters. -/
def isDomain (cs : List Char) : Bool :=
  let ending := (cs.reverse.takeWhile (· != '.')).reverse
  let before := (cs.reverse.dropWhile (· != '.')).reverse
  cs.all isDomainChar && decide (2 ≤ ending.length) && ending.all Char.isAlpha &&
    decide (2 ≤ before.length)

/-- An address for electronic mail. -/
def isEmail (s : String) : Bool :=
  match Text.cut? "@" s with
  | some (mailbox, domain) =>
    mailbox != "" && mailbox.toList.all isMailboxChar && isDomain domain.toList
  | none => false

/-- Accepts addresses for electronic mail. -/
def email : FieldRule where
  name := "email"
  check v := if isEmail v.text then none else some "Invalid email format"

/-- The bytes of the digits and plus signs of a text. -/
def phoneLength (s : String) : Nat :=
  (String.ofList (s.toList.filter fun c => Text.isDigit c || c == '+')).utf8ByteSize

/-- Accepts telephone numbers by their length. -/
def phone : FieldRule where
  name := "phone"
  check v :=
    let n := phoneLength v.text
    if 7 ≤ n ∧ n ≤ 15 then none else some "Invalid phone number length"

/-- The codes of currencies that are known. -/
def currencies : List String := ["USD", "EUR", "GBP", "JPY", "AUD", "CAD", "CHF", "CNY", "INR",
  "MXN", "BRL", "KRW", "HKD", "SGD", "SEK", "NOK", "DKK", "NZD"]

/-- Accepts codes of currencies in any case. -/
def currencyCode : FieldRule where
  name := "currency_code"
  check v :=
    if currencies.contains (Text.toUpper v.text) then none
    else some "Invalid currency code. Common codes: USD, EUR, GBP"

/-- Two capital letters. -/
def isCountryCode (s : String) : Bool := s.length == 2 && s.toList.all Char.isUpper

/-- Accepts codes of countries in any case. -/
def countryCode : FieldRule where
  name := "country_code"
  check v :=
    if isCountryCode (Text.toUpper v.text) then none
    else some "Country code must be a 2-letter ISO code (e.g., US, GB, DE)"

/-- The rules that are provided. -/
def all : List FieldRule := [email, phone, currencyCode, countryCode]

/-- The provided rule with a name. -/
def ofName? (name : String) : Option FieldRule := all.find? fun r => r.name == name

end FieldRule

/-- Rules by the paths of the fields they check. -/
abbrev FieldRules := Dict (List FieldRule)

namespace FieldRules

/-- Adds a rule after those that a field has already. -/
def register (rules : FieldRules) (field : String) (rule : FieldRule) : FieldRules :=
  Dict.upsert rules field [] (· ++ [rule])

/-- The rules of a field. -/
def forField (rules : FieldRules) (field : String) : List FieldRule :=
  (Dict.get? rules field).getD []

end FieldRules

end DataMigration
