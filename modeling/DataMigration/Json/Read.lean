import DataMigration.Value.Basic

/-!
# Reading JSON

The grammar of JSON texts. Numbers without fraction and exponent are integers if they fit 64 bits,
all others floats; of two members with one name the later counts. Every step of the reader uses a
character, so the length of the text bounds the depth of the recursion.
-/

namespace DataMigration.Json

/-- The blanks between tokens. -/
def isSpace (c : Char) : Bool := c == ' ' || c == '\n' || c == '\t' || c == '\r'

/-- Without the blanks in front. -/
def skip (cs : List Char) : List Char := cs.dropWhile isSpace

/-- The value of a digit in base 16. -/
def hexDigit? (c : Char) : Option Nat :=
  let n := c.toNat
  if 48 ≤ n ∧ n ≤ 57 then some (n - 48)
  else if 97 ≤ n ∧ n ≤ 102 then some (n - 87)
  else if 65 ≤ n ∧ n ≤ 70 then some (n - 55)
  else none

/-- Four digits in base 16. -/
def hexQuad? : List Char → Option (Nat × List Char)
  | a :: b :: c :: d :: r => do
    let a ← hexDigit? a
    let b ← hexDigit? b
    let c ← hexDigit? c
    let d ← hexDigit? d
    some (((a * 16 + b) * 16 + c) * 16 + d, r)
  | _ => none

/-- The character of an escape, after the backslash. -/
def escaped? : List Char → Option (Char × List Char)
  | '"' :: r => some ('"', r)
  | '\\' :: r => some ('\\', r)
  | '/' :: r => some ('/', r)
  | 'b' :: r => some (Char.ofNat 8, r)
  | 'f' :: r => some (Char.ofNat 12, r)
  | 'n' :: r => some ('\n', r)
  | 'r' :: r => some ('\r', r)
  | 't' :: r => some ('\t', r)
  | 'u' :: r => do
    let (hi, r) ← hexQuad? r
    if hi < 0xD800 ∨ 0xDFFF < hi then some (Char.ofNat hi, r)
    else if 0xDC00 ≤ hi then none
    else
      match r with
      | '\\' :: 'u' :: r => do
        let (lo, r) ← hexQuad? r
        if 0xDC00 ≤ lo ∧ lo ≤ 0xDFFF then
          some (Char.ofNat (0x10000 + (hi - 0xD800) * 0x400 + (lo - 0xDC00)), r)
        else none
      | _ => none
  | _ => none

/-- The rest of a quoted text, after its opening quote. -/
def quoted? : Nat → List Char → Option (List Char × List Char)
  | 0, _ => none
  | fuel + 1, cs =>
    match cs with
    | [] => none
    | '"' :: r => some ([], r)
    | '\\' :: r => do
      let (c, r) ← escaped? r
      let (s, r) ← quoted? fuel r
      some (c :: s, r)
    | c :: r =>
      if c.toNat < 32 then none
      else (quoted? fuel r).map fun p => (c :: p.1, p.2)

/-- A text in quotes. -/
def text? (cs : List Char) : Option (String × List Char) :=
  match cs with
  | '"' :: r => (quoted? (r.length + 1) r).map fun p => (String.ofList p.1, p.2)
  | _ => none

/-- An ASCII digit. -/
def isDigit (c : Char) : Bool := (Decimal.digit? c).isSome

/-- An exponent mark with at least one digit, or nothing. -/
def exponentPart? (cs : List Char) : Option (Option Int × List Char) :=
  let tail (sign : Int) (r : List Char) : Option (Option Int × List Char) :=
    (Decimal.nat? (r.takeWhile isDigit)).map fun n => (some (sign * n), r.dropWhile isDigit)
  let signed (r : List Char) : Option (Option Int × List Char) :=
    match r with
    | '+' :: r => tail 1 r
    | '-' :: r => tail (-1) r
    | r => tail 1 r
  match cs with
  | 'e' :: r => signed r
  | 'E' :: r => signed r
  | r => some (none, r)

/-- A point with at least one digit, or nothing. -/
def fractionPart? (cs : List Char) : Option (List Char × List Char) :=
  match cs with
  | '.' :: r => if r.takeWhile isDigit = [] then none
                else some (r.takeWhile isDigit, r.dropWhile isDigit)
  | r => some ([], r)

/-- The whole part: no digit may follow a leading zero. -/
def wholePart? (cs : List Char) : Option (List Char × List Char) :=
  match cs.takeWhile isDigit with
  | [] => none
  | '0' :: _ :: _ => none
  | ds => some (ds, cs.dropWhile isDigit)

/-- A number. -/
def number? (cs : List Char) : Option (Number × List Char) := do
  let (negative, r) := match cs with
    | '-' :: r => (true, r)
    | r => (false, r)
  let (whole, r) ← wholePart? r
  let (fraction, r) ← fractionPart? r
  let (exponent, r) ← exponentPart? r
  let digits ← Decimal.nat? (whole ++ fraction)
  let float := Decimal.toBinary64 negative digits (exponent.getD 0 - fraction.length)
  if fraction = [] ∧ exponent = none ∧ ¬(negative = true ∧ digits = 0) then
    let n : Int := if negative then -(digits : Int) else digits
    if Decimal.isInt64 n || Decimal.isWord n then some (.int n, r)
    else if float.isFinite then some (.float float, r) else none
  else if float.isFinite then some (.float float, r)
  else none

mutual

/-- A value, after blanks. -/
def value? : Nat → List Char → Option (Value × List Char)
  | 0, _ => none
  | fuel + 1, cs =>
    match skip cs with
    | 'n' :: 'u' :: 'l' :: 'l' :: r => some (.null, r)
    | 't' :: 'r' :: 'u' :: 'e' :: r => some (.bool true, r)
    | 'f' :: 'a' :: 'l' :: 's' :: 'e' :: r => some (.bool false, r)
    | '"' :: r => (text? ('"' :: r)).map fun p => (.str p.1, p.2)
    | '[' :: r =>
      match skip r with
      | ']' :: r => some (.arr [], r)
      | r => (items? fuel r).map fun p => (.arr p.1, p.2)
    | '\x7b' :: r =>
      match skip r with
      | '\x7d' :: r => some (.obj [], r)
      | r => (fields? fuel r).map fun p => (.obj (Dict.ofEntries p.1), p.2)
    | r => (number? r).map fun p => (.num p.1, p.2)

/-- One or more elements and the closing bracket. -/
def items? : Nat → List Char → Option (List Value × List Char)
  | 0, _ => none
  | fuel + 1, cs => do
    let (v, r) ← value? fuel cs
    match skip r with
    | ',' :: r => (items? fuel r).map fun p => (v :: p.1, p.2)
    | ']' :: r => some ([v], r)
    | _ => none

/-- One or more members and the closing brace. -/
def fields? : Nat → List Char → Option (List (String × Value) × List Char)
  | 0, _ => none
  | fuel + 1, cs => do
    let (k, r) ← text? (skip cs)
    match skip r with
    | ':' :: r =>
      let (v, r) ← value? fuel r
      match skip r with
      | ',' :: r => (fields? fuel r).map fun p => ((k, v) :: p.1, p.2)
      | '\x7d' :: r => some ([(k, v)], r)
      | _ => none
    | _ => none

end

/-- The value that a JSON text writes. -/
def read? (s : String) : Option Value :=
  let cs := s.toList
  match value? (cs.length + 1) cs with
  | some (v, r) => if skip r = [] then some v else none
  | none => none

end DataMigration.Json
