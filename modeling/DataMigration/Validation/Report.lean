import DataMigration.Finding

/-!
# Reports of checks

The findings of a check that is made before any record is touched.
-/

namespace DataMigration

/-- What a check found. -/
structure CheckReport where
  errors : List Finding := []
  cautions : List Caution := []
  deriving DecidableEq

namespace CheckReport

/-- The check found no error. -/
def isValid (r : CheckReport) : Bool := r.errors.isEmpty

/-- The errors on one line. -/
def summary (r : CheckReport) : String :=
  "; ".intercalate (r.errors.map fun e => e.field ++ ": " ++ e.message)

/-- The report as a document. -/
def toValue (r : CheckReport) : Value :=
  .obj [("is_valid", .bool r.isValid), ("errors", .arr (r.errors.map Finding.toValue)),
    ("warnings", .arr (r.cautions.map Caution.toValue))]

end CheckReport

end DataMigration
