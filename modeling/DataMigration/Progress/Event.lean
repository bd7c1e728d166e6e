import DataMigration.Run.Basic

/-!
# Progress events

What a run tells while it goes on.
-/

namespace DataMigration

/-- One message of a run. -/
inductive ProgressEvent where
  | progress (phase : RunStatus) (entity : String) (processed succeeded failed total : Nat)
      (message : String)
  | stepComplete (stepId name entity : String) (status : RunStatus)
      (processed succeeded failed : Nat)
  | complete (runId : String) (status : RunStatus) (processed succeeded failed : Nat)
  | error (phase : RunStatus) (message : String)
  deriving DecidableEq, Repr

namespace ProgressEvent

/-- The counters of a step in a phase. -/
def ofProgress (phase : RunStatus) (s : Step) (total : Nat) (message : String) : ProgressEvent :=
  .progress phase s.entity s.processed s.succeeded s.failed total message

/-- The end of a step. -/
def ofStep (s : Step) : ProgressEvent :=
  .stepComplete s.id s.name s.entity s.status s.processed s.succeeded s.failed

/-- The end of a run. -/
def ofRun (r : Run) : ProgressEvent := .complete r.id r.status r.processed r.succeeded r.failed

/-- The event as a document. -/
def toValue : ProgressEvent → Value
  | .progress phase entity processed succeeded failed total message =>
    .obj [("type", .str "progress"), ("phase", .str phase.name), ("entity", .str entity),
      ("records_processed", .nat processed), ("records_succeeded", .nat succeeded),
      ("records_failed", .nat failed), ("total_records", .nat total), ("message", .str message)]
  | .stepComplete stepId name entity status processed succeeded failed =>
    .obj [("type", .str "step_complete"), ("step_id", .str stepId), ("name", .str name),
      ("entity", .str entity), ("status", .str status.name), ("records_processed", .nat processed),
      ("records_succeeded", .nat succeeded), ("records_failed", .nat failed)]
  | .complete runId status processed succeeded failed =>
    .obj [("type", .str "complete"), ("run_id", .str runId), ("status", .str status.name),
      ("total_records_processed", .nat processed), ("total_records_succeeded", .nat succeeded),
      ("total_records_failed", .nat failed)]
  | .error phase message =>
    .obj [("type", .str "error"), ("phase", .str phase.name), ("message", .str message)]

/-- The event with a given type, from the rest of the document. -/
def ofTagged? (tag : String) (t : Tree) : Option ProgressEvent :=
  match tag with
  | "progress" => do
    let r ← Record.ofTree? (fieldNames ["phase", "entity", "records_processed",
      "records_succeeded", "records_failed", "total_records", "message"]) t
    some (.progress (← r.required "phase" (Tree.name? RunStatus.ofName?))
      (← r.required "entity" Tree.text?) (← r.required "records_processed" Tree.word?)
      (← r.required "records_succeeded" Tree.word?) (← r.required "records_failed" Tree.word?)
      (← r.required "total_records" Tree.word?) (← r.required "message" Tree.text?))
  | "step_complete" => do
    let r ← Record.ofTree? (fieldNames ["step_id", "name", "entity", "status",
      "records_processed", "records_succeeded", "records_failed"]) t
    some (.stepComplete (← r.required "step_id" Tree.text?) (← r.required "name" Tree.text?)
      (← r.required "entity" Tree.text?) (← r.required "status" (Tree.name? RunStatus.ofName?))
      (← r.required "records_processed" Tree.word?) (← r.required "records_succeeded" Tree.word?)
      (← r.required "records_failed" Tree.word?))
  | "complete" => do
    let r ← Record.ofTree? (fieldNames ["run_id", "status", "total_records_processed",
      "total_records_succeeded", "total_records_failed"]) t
    some (.complete (← r.required "run_id" Tree.text?)
      (← r.required "status" (Tree.name? RunStatus.ofName?))
      (← r.required "total_records_processed" Tree.word?)
      (← r.required "total_records_succeeded" Tree.word?)
      (← r.required "total_records_failed" Tree.word?))
  | "error" => do
    let r ← Record.ofTree? (fieldNames ["phase", "message"]) t
    some (.error (← r.required "phase" (Tree.name? RunStatus.ofName?))
      (← r.required "message" Tree.text?))
  | _ => none

/-- The event that a document holds: a mapping with a type, or a value that lists it first. -/
def ofTree? : Tree → Option ProgressEvent
  | .value (.arr (tag :: items)) => tag.asText?.bind fun tag => ofTagged? tag (.value (.arr items))
  | t => do
    let entries ← t.entries?
    match entries.filter fun e => e.1 == "type" with
    | [(_, tag)] => ofTagged? (← tag.text?) (.dict (entries.filter fun e => e.1 != "type"))
    | _ => none

end ProgressEvent

end DataMigration
