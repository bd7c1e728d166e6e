import DataMigration.Json.Write
import DataMigration.Path.Lookup
import DataMigration.Text.Blank

/-!
# Conditions

The expressions that guard a field mapping: `path exists`, `path == literal` and
`path != literal`, where a literal may stand in quotes. Over several payloads a condition holds as
soon as one of them satisfies it.
-/

namespace DataMigration

/-- A condition on a payload. -/
inductive Condition where
  | exists (path : String)
  | equals (path literal : String)
  | differs (path literal : String)
  deriving DecidableEq, Repr

namespace Condition

/-- A quote of either kind. -/
def isQuote (c : Char) : Bool := c == '\'' || c == '"'

/-- A literal without blanks and quotes around it. -/
def unquote (s : String) : String := Text.trimWhere isQuote (Text.trim s)

/-- Reads a condition. -/
def parse? (s : String) : Option Condition :=
  let s := Text.trim s
  match Text.beforeEnd? " exists" s with
  | some path =>
    let path := Text.trim path
    if path = "" then none else some (.exists path)
  | none =>
    match Text.cut? " == " s with
    | some (path, literal) => some (.equals (Text.trim path) (unquote literal))
    | none =>
      (Text.cut? " != " s).map fun p => .differs (Text.trim p.1) (unquote p.2)

/-- One payload satisfies the condition. An absent value differs from every literal. -/
def holdsFor (c : Condition) (payload : Value) : Bool :=
  match c with
  | .exists path => (Path.lookup payload path).isSome
  | .equals path literal => (Path.lookup payload path).any fun v => v.text == literal
  | .differs path literal => (Path.lookup payload path).all fun v => v.text != literal

/-- Some payload satisfies the condition. -/
def holds (c : Condition) (payloads : List Value) : Bool := payloads.any c.holdsFor

/-- The condition that a text expresses holds; a text that expresses none always does. -/
def textHolds (s : String) (payloads : List Value) : Bool :=
  match parse? s with
  | some c => c.holds payloads
  | none => true

end Condition

end DataMigration
