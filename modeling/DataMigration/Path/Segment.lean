import DataMigration.Decimal.Read
import DataMigration.Text.Cut
import DataMigration.Text.Digit
import DataMigration.Text.Word

/-!
# Field paths

A path is a text of segments between dots. A segment of the form `name[digits]` addresses an
element of the array `name`; every other segment is a name, which in front of an array may also
be an index.
-/

namespace DataMigration.Path

/-- One segment of a path. -/
inductive Segment where
  /-- A name, or an index when it meets an array. -/
  | plain (name : String)
  /-- Element `index` of the array `name`. -/
  | indexed (name : String) (index : Nat)
  /-- Written like an index, but its digits give no index. -/
  | unindexable (text : String)
  deriving DecidableEq, Repr

/-- The name and the digits of a text `name[digits]`. -/
def bracketed? (cs : List Char) : Option (List Char × List Char) :=
  let name := cs.takeWhile Text.isWordChar
  match cs.dropWhile Text.isWordChar with
  | '[' :: r =>
    let digits := r.takeWhile Text.isDigit
    if name ≠ [] ∧ digits ≠ [] ∧ r.dropWhile Text.isDigit = [']'] then some (name, digits) else none
  | _ => none

namespace Segment

/-- Reads one segment. -/
def ofText (s : String) : Segment :=
  match bracketed? s.toList with
  | none => .plain s
  | some (name, digits) =>
    match Decimal.word? digits with
    | some i => .indexed (String.ofList name) i
    | none => .unindexable s

/-- The index a plain name gives in front of an array. -/
def index? (name : String) : Option Nat := Decimal.word? name.toList

end Segment

/-- The segments of a path; an empty path has none. -/
def segments (path : String) : List Segment :=
  if path = "" then [] else (Text.split '.' path).map Segment.ofText

/-- The first segment without an index in brackets. -/
def root (path : String) : String :=
  let first := path.toList.takeWhile (· != '.')
  String.ofList (first.takeWhile (· != '['))

end DataMigration.Path
