/-!
# Statuses of runs and steps

A run passes through its phases in one order. It may pause in each of them, and fail or be
cancelled anywhere before its end; only a completed run can be rolled back.
-/

namespace DataMigration

/-- Where a run or one of its steps stands. -/
inductive RunStatus where
  | pending
  | extracting
  | transforming
  | validating
  | loading
  | completed
  | failed
  | cancelled
  | paused
  | rollingBack
  | rolledBack
  deriving DecidableEq, Repr

namespace RunStatus

/-- The name in documents. -/
def name : RunStatus → String
  | .pending => "pending"
  | .extracting => "extracting"
  | .transforming => "transforming"
  | .validating => "validating"
  | .loading => "loading"
  | .completed => "completed"
  | .failed => "failed"
  | .cancelled => "cancelled"
  | .paused => "paused"
  | .rollingBack => "rolling_back"
  | .rolledBack => "rolled_back"

/-- All statuses. -/
def all : List RunStatus := [.pending, .extracting, .transforming, .validating, .loading,
  .completed, .failed, .cancelled, .paused, .rollingBack, .rolledBack]

/-- The status with a name. -/
def ofName? (s : String) : Option RunStatus := all.find? fun x => x.name == s

/-- A phase in which records flow. -/
def isActive : RunStatus → Bool
  | .extracting | .transforming | .validating | .loading => true
  | _ => false

/-- A status that a run ends in. -/
def isFinal : RunStatus → Bool
  | .completed | .failed | .cancelled | .rolledBack => true
  | _ => false

/-- The phase that follows. -/
def next? : RunStatus → Option RunStatus
  | .pending => some .extracting
  | .extracting => some .transforming
  | .transforming => some .validating
  | .validating => some .loading
  | .loading => some .completed
  | _ => none

/-- A run may go from one status to another, given the phase it was paused in. -/
def canGo (pausedFrom : Option RunStatus) (current next : RunStatus) : Bool :=
  match current, next with
  | _, .failed => !current.isFinal
  | _, .cancelled => !current.isFinal
  | _, .paused => current.isActive
  | .paused, _ => pausedFrom == some next
  | .completed, .rollingBack => true
  | .rollingBack, .rolledBack => true
  | _, _ => current.next? == some next

end RunStatus

end DataMigration
