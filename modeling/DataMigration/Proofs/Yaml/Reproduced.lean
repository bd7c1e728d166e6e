import DataMigration.Proofs.Document.Written
import DataMigration.Yaml.Read

/-!
# Texts that reproduce a value

A text reproduces a value when what it is read as shows the value. For texts that are put together
from characters the reader is stated on characters, so that it can be run on them.
-/

namespace DataMigration.Yaml

/-- The tree of the only document that the characters hold. -/
def readChars? (cs : List Char) : Option Tree := (Token.ofChars? cs).bind ofTokens?

theorem read?_ofList (cs : List Char) : read? (String.ofList cs) = readChars? cs := by
  rw [read?, Token.ofText?, String.toList_ofList, readChars?]

/-- The text is read as a document that shows the value. -/
def Reproduces (text : String) (v : Value) : Prop :=
  ∃ t, read? text = some t ∧ t.shows v = true

/-- The characters are read as a document that shows the value. -/
def charsReproduce (cs : List Char) (v : Value) : Bool := (readChars? cs).any fun t => t.shows v

theorem reproduces_ofList_iff {cs : List Char} {v : Value} :
    Reproduces (String.ofList cs) v ↔ charsReproduce cs v = true := by
  rw [Reproduces, read?_ofList, charsReproduce, Option.any_eq_true]

end DataMigration.Yaml
