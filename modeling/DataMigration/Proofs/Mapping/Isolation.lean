import DataMigration.Mapping.Apply
import DataMigration.Proofs.Path.Write

/-!
# Field mappings fail alone

A field mapping that fails leaves the data as it found it: its operator does not see the data, and
a write that stops puts everything back. So the field mappings after it meet the data that they
would meet without it, and the record is the one that the other field mappings make, with one
finding more.
-/

namespace DataMigration

section

variable {tools : Toolbox} {payloads : Payloads}

namespace FieldMapping

/-- What a field mapping does to the data; nothing when its condition does not hold. -/
def perform (m : FieldMapping) (tools : Toolbox) (payloads : Payloads) (data : Dict Value) :
    Changed TransformError (Dict Value) :=
  if m.applies payloads.values then m.writeInto tools payloads data else { value := data }

theorem writeInto_value_of_error {m : FieldMapping} {data : Dict Value}
    (failed : (m.writeInto tools payloads data).error ≠ none) :
    (m.writeInto tools payloads data).value = data := by
  unfold writeInto at failed ⊢
  split at failed
  · rfl
  · exact absurd rfl failed
  · rename_i v _
    have stopped : (Path.write data m.target v).error ≠ none := by
      intro through
      exact failed (by rw [Changed.mapError_error, through]; rfl)
    exact Path.write_value_of_error stopped

/-- A field mapping that fails leaves the data as it is. -/
theorem perform_value_of_error {m : FieldMapping} {data : Dict Value} {e : TransformError}
    (failed : (m.perform tools payloads data).error = some e) :
    (m.perform tools payloads data).value = data := by
  unfold perform at failed ⊢
  split at failed
  · rename_i applies
    rw [if_pos applies]
    exact writeInto_value_of_error (by rw [failed]; exact Option.some_ne_none e)
  · cases failed

end FieldMapping

namespace EntityMapping

/-- Field mappings one after the other, each with the error that it fails with on the data which
those before it have left. -/
def trials (tools : Toolbox) (payloads : Payloads) :
    List FieldMapping → Dict Value → List (FieldMapping × Option TransformError)
  | [], _ => []
  | m :: rest, data =>
    let done := m.perform tools payloads data
    (m, done.error) :: trials tools payloads rest done.value

/-- The field mappings that fail, with their errors. -/
def failing (trials : List (FieldMapping × Option TransformError)) :
    List (FieldMapping × TransformError) :=
  trials.filterMap fun t => t.2.map fun e => (t.1, e)

/-- The field mappings that do not fail. -/
def succeeding (trials : List (FieldMapping × Option TransformError)) : List FieldMapping :=
  trials.filterMap fun t => if t.2.isNone then some t.1 else none

theorem step_data (tools : Toolbox) (payloads : Payloads) (r : TargetRecord) (m : FieldMapping) :
    (step tools payloads r m).data = (m.perform tools payloads r.data).value := by
  unfold step FieldMapping.perform
  split <;> rfl

end EntityMapping

end

/-- An address is no object that a domain could be written into; the tier after it is written. -/
example :
    let payload := Value.obj [("mail", .str "a@x.org"), ("tier", .nat 2)]
    let tried := EntityMapping.trials {} [("shop", payload)]
      [.copy "mail" "email", .copy "mail" "email.domain", .copy "tier" "tier"] []
    EntityMapping.failing tried =
      [(.copy "mail" "email.domain", .path (.notAnObject "email.domain" "email"))] := by
  decide +kernel

end DataMigration
