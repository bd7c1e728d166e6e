import DataMigration.Document.Record

/-!
# Findings

A problem with one field of a record or of a mapping. Findings of severity `error` keep a record
from being loaded and make a mapping unusable; the others are only reported.
-/

namespace DataMigration

/-- How bad a finding is. -/
inductive Severity where
  | error
  | warning
  | info
  deriving DecidableEq, Repr

namespace Severity

/-- The name in documents. -/
def name : Severity → String
  | .error => "error"
  | .warning => "warning"
  | .info => "info"

/-- All severities. -/
def all : List Severity := [.error, .warning, .info]

/-- The severity with a name. -/
def ofName? (s : String) : Option Severity := all.find? fun x => x.name == s

end Severity

/-- What a finding is about. -/
inductive FindingKind where
  | validation
  | required
  | type
  | maxLength
  | enum
  | unknownField
  | transform
  deriving DecidableEq, Repr

namespace FindingKind

/-- The name in documents. -/
def name : FindingKind → String
  | .validation => "validation"
  | .required => "required"
  | .type => "type"
  | .maxLength => "max_length"
  | .enum => "enum"
  | .unknownField => "unknown_field"
  | .transform => "transform"

/-- All kinds. -/
def all : List FindingKind :=
  [.validation, .required, .type, .maxLength, .enum, .unknownField, .transform]

/-- The kind with a name. -/
def ofName? (s : String) : Option FindingKind := all.find? fun x => x.name == s

end FindingKind

/-- A problem with one field. -/
structure Finding where
  field : String
  message : String
  kind : FindingKind
  severity : Severity := .error
  value : Option Value := none
  suggestedFix : Option String := none
  deriving DecidableEq

namespace Finding

/-- The finding rules its record or mapping out. -/
def isError (f : Finding) : Bool := f.severity == .error

/-- The finding as a document. -/
def toValue (f : Finding) : Value :=
  .obj ([("field", .str f.field), ("message", .str f.message), ("error_type", .str f.kind.name),
    ("severity", .str f.severity.name)] ++ Value.fieldIf "value" f.value id ++
    Value.fieldIf "suggested_fix" f.suggestedFix Value.str)

/-- The finding that a document holds. -/
def ofTree? (t : Tree) : Option Finding := do
  let r ← Record.ofTree?
    (fieldNames ["field", "message", "error_type", "severity", "value", "suggested_fix"]) t
  some {
    field := ← r.required "field" Tree.text?
    message := ← r.required "message" Tree.text?
    kind := ← r.required "error_type" (Tree.name? FindingKind.ofName?)
    severity := ← r.required "severity" (Tree.name? Severity.ofName?)
    value := ← r.optional "value" Tree.value?
    suggestedFix := ← r.optional "suggested_fix" Tree.text? }

end Finding

/-- A remark on a mapping that does not rule it out. -/
structure Caution where
  field : String
  message : String
  recommendation : Option String := none
  deriving DecidableEq, Repr

namespace Caution

/-- The remark as a document. -/
def toValue (c : Caution) : Value :=
  .obj ([("field", .str c.field), ("message", .str c.message)] ++
    Value.fieldIf "recommendation" c.recommendation Value.str)

/-- The remark that a document holds. -/
def ofTree? (t : Tree) : Option Caution := do
  let r ← Record.ofTree? (fieldNames ["field", "message", "recommendation"]) t
  some {
    field := ← r.required "field" Tree.text?
    message := ← r.required "message" Tree.text?
    recommendation := ← r.optional "recommendation" Tree.text? }

end Caution

end DataMigration
