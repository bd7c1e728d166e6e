import DataMigration.Text.CaseTable
import DataMigration.Text.Ranges

/-!
# Upper and lower case

The full case mappings of Unicode, independent of any locale: a character may map to several, and
a capital sigma that ends a word becomes the final form of the small sigma.
-/

namespace DataMigration.Text

/-- The image of a code point that belongs to one of the runs. -/
def CaseRun.image? (runs : List CaseRun) (n : Nat) : Option Nat :=
  (runs.find? fun r =>
      decide (r.first ≤ n) && decide (n ≤ r.last) && (n - r.first) % r.step == 0).map
    fun r => ((n : Int) + r.offset).toNat

/-- The mapping given by expansions and runs; characters in neither map to themselves. -/
def mapCase (expansions : List (Nat × List Nat)) (runs : List CaseRun) (c : Char) : List Char :=
  match expansions.lookup c.toNat with
  | some cs => cs.map Char.ofNat
  | none =>
    match CaseRun.image? runs c.toNat with
    | some n => [Char.ofNat n]
    | none => [c]

/-- The lower-case form of one character. -/
def lowerChar (c : Char) : List Char :=
  if c.toNat < 128 then [c.toLower] else mapCase lowerExpansions lowerRuns c

/-- The upper-case form of one character. -/
def upperChar (c : Char) : List Char :=
  if c.toNat < 128 then [c.toUpper] else mapCase upperExpansions upperRuns c

/-- Skipping what case ignores, a cased character comes first. -/
def cased (s : List Char) : Bool :=
  match s.dropWhile (inRanges caseIgnorableRanges) with
  | [] => false
  | c :: _ => inRanges casedRanges c

/-- Lower-cases `s`, which follows the reversed text `before`. -/
def lowerAfter (before : List Char) : List Char → List Char
  | [] => []
  | c :: s =>
    let image :=
      if c.toNat = 0x3A3 then [Char.ofNat (if cased before && !cased s then 0x3C2 else 0x3C3)]
      else lowerChar c
    image ++ lowerAfter (c :: before) s

/-- The text in lower case. -/
def toLower (s : String) : String := String.ofList (lowerAfter [] s.toList)

/-- The text in upper case. -/
def toUpper (s : String) : String := String.ofList (s.toList.flatMap upperChar)

end DataMigration.Text
