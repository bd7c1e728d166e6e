import DataMigration.Operator.Basic
import DataMigration.Text.Case
import DataMigration.Text.Digit

/-!
# Operators on texts

They work on the text of a value, so a number or a truth value is reshaped as it reads.
-/

namespace DataMigration.Reshape

/-- Puts a text in front. -/
def addStart (v : Option Value) (config : Dict Value) : Option Value :=
  v.map fun v => .str (configText config "prefix" ++ v.text)

/-- Takes `strip` away from the start, if it is there, and puts `add` in its place. -/
def replaceStart (v : Value) (strip add : String) : Value :=
  let s := v.text
  .str (add ++ (Text.afterStart? strip s).getD s)

/-- The first word of a name, or what follows it. -/
def splitName (v : Option Value) (config : Dict Value) : Option Value :=
  match v with
  | none => none
  | some v =>
    let name := v.text
    if name = "" then none
    else
      let part := (configText? config "part").getD "first"
      if part = "first" then
        some (.str (match Text.cut? " " name with
          | some (first, _) => first
          | none => name))
      else if part = "last" then (Text.cut? " " name).map fun p => .str p.2
      else some v

/-- The first characters, 255 unless the configuration says otherwise. -/
def truncate (v : Option Value) (config : Dict Value) : Option Value :=
  let max := ((Dict.get? config "max_length").bind Value.asWord?).getD 255
  v.map fun v => .str (String.ofList (v.text.toList.take max))

/-- The names of countries and their codes. -/
def countryCodes : List (String × String) := [
  ("united states", "US"), ("united states of america", "US"), ("usa", "US"),
  ("united kingdom", "GB"), ("uk", "GB"), ("great britain", "GB"), ("germany", "DE"),
  ("france", "FR"), ("canada", "CA"), ("australia", "AU"), ("japan", "JP"), ("china", "CN"),
  ("india", "IN"), ("brazil", "BR"), ("mexico", "MX"), ("spain", "ES"), ("italy", "IT"),
  ("netherlands", "NL"), ("sweden", "SE"), ("switzerland", "CH"), ("belgium", "BE"),
  ("austria", "AT"), ("denmark", "DK"), ("norway", "NO"), ("finland", "FI"), ("ireland", "IE"),
  ("portugal", "PT"), ("poland", "PL"), ("new zealand", "NZ"), ("singapore", "SG")]

/-- The code of a country; two characters count as a code already. -/
def countryCode (v : Value) : Value :=
  let name := Text.toLower (Text.trim v.text)
  if name.toList.length = 2 then .str (Text.toUpper name)
  else
    match countryCodes.lookup name with
    | some code => .str code
    | none => v

/-- The digits and plus signs of a text. -/
def phoneChars (s : String) : List Char := s.toList.filter fun c => Text.isDigit c || c == '+'

/-- A phone number without decoration. More than ten bytes without a plus sign get one. -/
def cleanPhone (v : Value) : Option Value :=
  let phone := phoneChars v.text
  if phone = [] then none
  else if phone.head? ≠ some '+' ∧ 10 < (String.ofList phone).utf8ByteSize then
    some (.str (String.ofList ('+' :: phone)))
  else some (.str (String.ofList phone))

end DataMigration.Reshape
