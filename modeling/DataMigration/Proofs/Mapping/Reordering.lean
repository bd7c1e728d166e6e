import DataMigration.Proofs.Mapping.Plantings
import DataMigration.Proofs.Path.Commuting

/-!
# The order of independent field mappings

A field mapping reads the payloads and writes at its target path; it does not read the data that
the others made. So two neighbours with independent target paths may change places when both of
their writes come through, and with them any field mappings of which each two are independent.
-/

namespace DataMigration

section

variable {tools : Toolbox} {payloads : Payloads} {data : Dict Value}

/-- The write of a field mapping comes through, if it writes at all. -/
def FieldMapping.Succeeds (f : FieldMapping) (tools : Toolbox) (payloads : Payloads)
    (data : Dict Value) : Prop :=
  ∀ w ∈ f.planting? tools payloads, (Path.write data f.target w.value).error = none

instance (f : FieldMapping) : Decidable (f.Succeeds tools payloads data) :=
  inferInstanceAs (Decidable (∀ w ∈ f.planting? tools payloads, _))

theorem FieldMapping.perform_value_of_planting? {f : FieldMapping} {w : Path.Planting}
    (planting : f.planting? tools payloads = some w) :
    (f.perform tools payloads data).value = (Path.write data f.target w.value).value := by
  rw [perform_eq_write planting, Changed.mapError_value]

/-- Two neighbours with independent target paths do the same in either order. -/
theorem FieldMapping.perform_comm {f g : FieldMapping}
    (independent : Path.Independent f.target g.target) (first : f.Succeeds tools payloads data)
    (second : g.Succeeds tools payloads (f.perform tools payloads data).value) :
    g.Succeeds tools payloads data ∧
      f.Succeeds tools payloads (g.perform tools payloads data).value ∧
      (f.perform tools payloads (g.perform tools payloads data).value).value =
        (g.perform tools payloads (f.perform tools payloads data).value).value := by
  cases planting : f.planting? tools payloads with
  | none =>
    simp only [perform_of_planting?_none planting, and_true] at second ⊢
    exact ⟨second, fun w member => by simp [planting] at member⟩
  | some w =>
    cases planting' : g.planting? tools payloads with
    | none =>
      simp only [perform_of_planting?_none planting', and_true] at second ⊢
      exact ⟨fun w member => by simp [planting'] at member, first⟩
    | some w' =>
      rw [perform_value_of_planting? planting] at second
      obtain ⟨first', second', same⟩ :=
        independent.write_comm (first w planting) (second w' planting')
      simp only [perform_value_of_planting? planting, perform_value_of_planting? planting', same,
        and_true]
      refine ⟨fun _ member => ?_, fun _ member => ?_⟩
      · cases planting'.symm.trans member
        exact first'
      · cases planting.symm.trans member
        exact second'

namespace EntityMapping

/-- The writes of field mappings, one after the other, all come through. -/
def WritesSucceed (tools : Toolbox) (payloads : Payloads) : List FieldMapping → Dict Value → Prop
  | [], _ => True
  | f :: rest, data =>
    f.Succeeds tools payloads data ∧
      WritesSucceed tools payloads rest (f.perform tools payloads data).value

/-- The data that field mappings leave, one after the other. -/
def performAll (tools : Toolbox) (payloads : Payloads) (fields : List FieldMapping)
    (data : Dict Value) : Dict Value :=
  fields.foldl (fun data f => (f.perform tools payloads data).value) data

theorem foldl_step_data (fields : List FieldMapping) (r : TargetRecord) :
    (fields.foldl (step tools payloads) r).data = performAll tools payloads fields r.data := by
  induction fields generalizing r with
  | nil => rfl
  | cons f rest ih =>
    rw [List.foldl_cons, ih, step_data]
    rfl

/-- The other order of field mappings comes about by exchanges of neighbours with independent
target paths. -/
inductive Reordered : List FieldMapping → List FieldMapping → Prop
  | nil : Reordered [] []
  | cons (f : FieldMapping) {fields fields' : List FieldMapping} (rest : Reordered fields fields') :
      Reordered (f :: fields) (f :: fields')
  | swap {f g : FieldMapping} (independent : Path.Independent f.target g.target)
      (rest : List FieldMapping) : Reordered (f :: g :: rest) (g :: f :: rest)
  | trans {fields fields' fields'' : List FieldMapping} (first : Reordered fields fields')
      (second : Reordered fields' fields'') : Reordered fields fields''

/-- Field mappings of which each two are independent may come in any order. -/
theorem Reordered.of_perm {fields fields' : List FieldMapping}
    (independent : fields.Pairwise fun f g => Path.Independent f.target g.target)
    (perm : fields.Perm fields') : Reordered fields fields' := by
  induction perm with
  | nil => exact .nil
  | cons f _ ih => exact .cons f (ih (List.pairwise_cons.1 independent).2)
  | swap f g rest => exact .swap ((List.pairwise_cons.1 independent).1 f List.mem_cons_self) rest
  | trans perm _ ih ih' =>
    have independent' := perm.pairwise independent fun apart => Path.Independent.symm apart
    exact .trans (ih independent) (ih' independent')

theorem Reordered.performAll {fields fields' : List FieldMapping}
    (reordered : Reordered fields fields') (succeed : WritesSucceed tools payloads fields data) :
    WritesSucceed tools payloads fields' data ∧
      performAll tools payloads fields' data = performAll tools payloads fields data := by
  induction reordered generalizing data with
  | nil => exact ⟨succeed, rfl⟩
  | cons f _ ih =>
    obtain ⟨later, same⟩ := ih succeed.2
    exact ⟨⟨succeed.1, later⟩, same⟩
  | swap independent rest =>
    obtain ⟨first, second, later⟩ := succeed
    obtain ⟨first', second', same⟩ := FieldMapping.perform_comm independent first second
    rw [← same] at later
    exact ⟨⟨first', second', later⟩, congrArg (EntityMapping.performAll tools payloads rest) same⟩
  | trans _ _ ih ih' =>
    obtain ⟨middle, same⟩ := ih succeed
    obtain ⟨last, same'⟩ := ih' middle
    exact ⟨last, same'.trans same⟩

end EntityMapping

end

/-- Independent writes commute: when two come through one after the other, they come through in the
other order, too, and leave the same object. So field mappings with independent target paths may
come in any order: when the writes of all field mappings of a record come through, the record gets
the same data. -/
theorem EntityMapping.independent_writes_commute :
    (∀ (fields : Dict Value) (path other : String) (v w : Value),
      Path.Independent path other → (Path.write fields path v).error = none →
      (Path.write (Path.write fields path v).value other w).error = none →
      (Path.write fields other w).error = none ∧
        (Path.write (Path.write fields other w).value path v).error = none ∧
        (Path.write (Path.write fields other w).value path v).value =
          (Path.write (Path.write fields path v).value other w).value) ∧
    (∀ fields fields' : List FieldMapping,
      fields.Pairwise (fun f g => Path.Independent f.target g.target) → fields.Perm fields' →
      Reordered fields fields') ∧
    ∀ (em : EntityMapping) (fields' : List FieldMapping) (tools : Toolbox)
      (now : Calendar.Instant) (target : EntityRef) (first : SourceRecord)
      (others : List SourceRecord),
      let payloads := Payloads.ofRecords (first :: others)
      let em' := { em with fields := fields' }
      Reordered em.fields fields' → WritesSucceed tools payloads em.fields [] →
      WritesSucceed tools payloads fields' [] ∧
        ∃ r r', em.apply tools now target (first :: others) = .ok r ∧
          em'.apply tools now target (first :: others) = .ok r' ∧ r'.data = r.data := by
  refine ⟨fun fields path other v w independent first second =>
      independent.write_comm first second,
    fun fields fields' independent perm => .of_perm independent perm, ?_⟩
  intro em fields' tools now target first others payloads em' reordered succeed
  obtain ⟨succeed', same⟩ := reordered.performAll succeed
  refine ⟨succeed', _, _, rfl, rfl, ?_⟩
  rw [foldl_step_data, foldl_step_data]
  exact same

/-- Two addresses of a contact in one list, the second first, and a name. -/
def mailFields : List FieldMapping :=
  [.copy "work" "mails[1].address", .copy "home" "mails[0].address", .copy "name" "name"]

/-- The contact that is filled by field mappings. -/
def mailMapping (fields : List FieldMapping) : EntityMapping where
  name := "users"
  source := ⟨"shop", "user"⟩
  target := ⟨"crm", "contact"⟩
  fields := fields

/-- A user with two addresses. -/
def mailUser : SourceRecord where
  id := "1"
  service := "shop"
  entity := "user"
  data := .obj [("home", .str "ann@home.org"), ("name", .str "Ann"), ("work", .str "ann@x.org")]
  extractedAt := ⟨0, 0⟩

/-- Written from the front, the list of addresses is never filled up with null, and is the same. -/
theorem mailMapping_commutes :
    (let written := Path.write [] "mails[1].address" (.str "ann@x.org")
      let done := Path.write written.value "mails[0].address" (.str "ann@home.org")
      let written' := Path.write [] "mails[0].address" (.str "ann@home.org")
      written.error = none ∧ done.error = none ∧ written'.error = none ∧
        (Path.write written'.value "mails[1].address" (.str "ann@x.org")).value = done.value) ∧
    EntityMapping.WritesSucceed {} (Payloads.ofRecords [mailUser]) mailFields [] ∧
    ∃ r r', (mailMapping mailFields).apply {} ⟨0, 0⟩ ⟨"crm", "contact"⟩ [mailUser] = .ok r ∧
      (mailMapping mailFields.reverse).apply {} ⟨0, 0⟩ ⟨"crm", "contact"⟩ [mailUser] = .ok r' ∧
      r'.data = r.data := by
  obtain ⟨writes, orders, records⟩ := EntityMapping.independent_writes_commute
  have independent : mailFields.Pairwise fun f g => Path.Independent f.target g.target := by
    decide +kernel
  have succeed :
      EntityMapping.WritesSucceed {} (Payloads.ofRecords [mailUser]) mailFields [] :=
    ⟨by decide +kernel, by decide +kernel, by decide +kernel, trivial⟩
  have through : (Path.write [] "mails[1].address" (.str "ann@x.org")).error = none := by
    decide +kernel
  have through' : (Path.write (Path.write [] "mails[1].address" (.str "ann@x.org")).value
      "mails[0].address" (.str "ann@home.org")).error = none := by decide +kernel
  obtain ⟨first', _, same⟩ := writes [] _ _ _ _ (by decide +kernel) through through'
  have reordered := orders mailFields mailFields.reverse independent (List.reverse_perm _).symm
  obtain ⟨_, made⟩ := records (mailMapping mailFields) mailFields.reverse {} ⟨0, 0⟩
    ⟨"crm", "contact"⟩ mailUser [] reordered succeed
  exact ⟨⟨through, through', first', same⟩, succeed, made⟩

end DataMigration
