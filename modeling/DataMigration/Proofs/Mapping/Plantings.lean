import DataMigration.Proofs.Mapping.Isolation
import DataMigration.Proofs.Path.Places

/-!
# What field mappings plant

The data of a record are made by values that are planted one after the other. Something is found at
a place in the end if one of them supplies it, in itself or on the way to itself, and no later one
puts something else in its place.
-/

namespace DataMigration

namespace Path

/-- A value and the places that it is planted at. -/
structure Planting where
  places : List Place
  value : Value
  deriving DecidableEq

namespace Planting

/-- A walk finds something in the planted value, or ends on the way to it. -/
def Supplies (w : Planting) (ps : List Place) : Prop :=
  (∃ below, ps = w.places ++ below ∧ (found? w.value below).isSome = true) ∨
    ∃ below, w.places = ps ++ below ∧ below ≠ []

/-- A walk leads into the planted value and finds nothing there. -/
def Clears (w : Planting) (ps : List Place) : Prop :=
  ∃ below, ps = w.places ++ below ∧ found? w.value below = none

variable {w : Planting} {v : Value} {ps : List Place}

/-- What is found after a value was planted: what it supplies, and what it does not clear. -/
theorem isSome_found?_plant_iff (fits : Fits w.places v) :
    (found? (plant w.value w.places v) ps).isSome = true ↔
      w.Supplies ps ∨ (found? v ps).isSome = true ∧ ¬ w.Clears ps := by
  by_cases below : w.places <+: ps
  · obtain ⟨below, rfl⟩ := below
    rw [found?_plant_below]
    cases found : found? w.value below with
    | some u => exact iff_of_true rfl (.inl (.inl ⟨below, rfl, by rw [found]; rfl⟩))
    | none =>
      refine iff_of_false Bool.false_ne_true ?_
      rintro ((⟨below', same, other⟩ | ⟨more, same, some⟩) | ⟨_, kept⟩)
      · rw [← List.append_cancel_left same, found] at other
        cases other
      · rw [List.append_assoc, List.self_eq_append_right] at same
        exact some (List.append_eq_nil_iff.1 same).2
      · exact kept ⟨below, rfl, found⟩
  · have whole : ¬ w.Clears ps := fun ⟨more, same, _⟩ => below ⟨more, same.symm⟩
    by_cases above : ps <+: w.places
    · obtain ⟨more, same⟩ := above
      have some : more ≠ [] := by
        rintro rfl
        exact below ⟨[], by rw [← same, List.append_nil, List.append_nil]⟩
      refine iff_of_true ?_ (.inl (.inr ⟨more, same.symm, some⟩))
      rw [← same]
      exact found?_plant_above some
    · rw [found?_plant_beside fits above below, and_iff_left whole]
      refine (or_iff_right ?_).symm
      rintro (⟨more, same, _⟩ | ⟨more, same, _⟩)
      · exact below ⟨more, same.symm⟩
      · exact above ⟨more, same.symm⟩

end Planting

/-- One value comes from another by plantings that fit, one after the other. -/
inductive Planted : Value → List Planting → Value → Prop
  | nil (v : Value) : Planted v [] v
  | cons {v u : Value} {w : Planting} {ws : List Planting} (fits : Fits w.places v)
      (rest : Planted (plant w.value w.places v) ws u) : Planted v (w :: ws) u

/-- One of the plantings supplies a walk, and none that comes later clears it. -/
def Remains (ws : List Planting) (ps : List Place) : Prop :=
  ∃ before w after, ws = before ++ w :: after ∧ w.Supplies ps ∧ ∀ w' ∈ after, ¬ w'.Clears ps

variable {v u : Value} {ws : List Planting} {ps : List Place}

theorem remains_cons {w : Planting} :
    Remains (w :: ws) ps ↔ (w.Supplies ps ∧ ∀ w' ∈ ws, ¬ w'.Clears ps) ∨ Remains ws ps := by
  constructor
  · rintro ⟨before, w', after, whole, supplies, kept⟩
    cases before with
    | nil =>
      obtain ⟨rfl, rfl⟩ := List.cons.inj whole
      exact .inl ⟨supplies, kept⟩
    | cons _ before =>
      exact .inr ⟨before, w', after, (List.cons.inj whole).2, supplies, kept⟩
  · rintro (⟨supplies, kept⟩ | ⟨before, w', after, rfl, supplies, kept⟩)
    · exact ⟨[], w, ws, rfl, supplies, kept⟩
    · exact ⟨w :: before, w', after, rfl, supplies, kept⟩

/-- What is found after all plantings: what remains of them, and what they do not clear. -/
theorem Planted.isSome_found?_iff (planted : Planted v ws u) :
    (found? u ps).isSome = true ↔
      Remains ws ps ∨ (found? v ps).isSome = true ∧ ∀ w ∈ ws, ¬ w.Clears ps := by
  induction planted with
  | nil v => simp [Remains]
  | cons fits rest ih =>
    rw [ih, Planting.isSome_found?_plant_iff fits, remains_cons, List.forall_mem_cons]
    tauto

end Path

section

variable {tools : Toolbox} {payloads : Payloads}

/-- What a field mapping plants if nothing stops it. -/
def FieldMapping.planting? (f : FieldMapping) (tools : Toolbox) (payloads : Payloads) :
    Option Path.Planting :=
  if f.applies payloads.values then
    match f.value tools payloads with
    | .ok (some v) => some { places := Path.places f.target, value := v }
    | _ => none
  else none

theorem FieldMapping.perform_of_planting?_none {f : FieldMapping} {data : Dict Value}
    (idle : f.planting? tools payloads = none) :
    (f.perform tools payloads data).value = data := by
  unfold planting? at idle
  unfold perform writeInto
  split at idle
  · rename_i applies
    rw [if_pos applies]
    cases outcome : f.value tools payloads with
    | error e => rfl
    | ok given =>
      cases given with
      | none => rfl
      | some v => simp [outcome] at idle
  · rename_i guarded
    rw [if_neg guarded]

theorem FieldMapping.planting?_eq_some_iff {f : FieldMapping} {w : Path.Planting} :
    f.planting? tools payloads = some w ↔
      f.applies payloads.values = true ∧ f.value tools payloads = .ok (some w.value) ∧
        w.places = Path.places f.target := by
  obtain ⟨places, v⟩ := w
  unfold planting?
  split
  · rename_i applies
    split
    · rename_i outcome
      simp [applies, outcome, and_comm, eq_comm]
    · rename_i other
      exact iff_of_false (Option.some_ne_none _).symm fun ⟨_, outcome, _⟩ => other v outcome
  · rename_i guarded
    exact iff_of_false (Option.some_ne_none _).symm fun ⟨applies, _⟩ => guarded applies

/-- A field mapping that plants something writes it at its target path. -/
theorem FieldMapping.perform_eq_write {f : FieldMapping} {data : Dict Value} {w : Path.Planting}
    (planting : f.planting? tools payloads = some w) :
    f.perform tools payloads data = (Path.write data f.target w.value).mapError .path := by
  obtain ⟨applies, outcome, _⟩ := planting?_eq_some_iff.1 planting
  rw [perform, if_pos applies, writeInto, outcome]

theorem FieldMapping.perform_of_planting?_some {f : FieldMapping} {data : Dict Value}
    {w : Path.Planting} (planting : f.planting? tools payloads = some w)
    (through : (f.perform tools payloads data).error = none) :
    Path.Fits w.places (.obj data) ∧
      .obj (f.perform tools payloads data).value =
        Path.plant w.value w.places (.obj data) := by
  rw [perform_eq_write planting, Changed.mapError_error, Option.map_eq_none_iff] at through
  rw [perform_eq_write planting, Changed.mapError_value, (planting?_eq_some_iff.1 planting).2.2]
  exact ⟨(Path.write_error_eq_none_iff.1 through).2, Path.obj_write_value through⟩

namespace EntityMapping

/-- The plantings of field mappings that nothing stops. -/
def plantingsFrom (tools : Toolbox) (payloads : Payloads) (fields : List FieldMapping)
    (data : Dict Value) : List Path.Planting :=
  (succeeding (trials tools payloads fields data)).filterMap fun f => f.planting? tools payloads

/-- The plantings that make the data of a record. -/
def plantings (m : EntityMapping) (tools : Toolbox) (payloads : Payloads) : List Path.Planting :=
  plantingsFrom tools payloads m.fields []

theorem plantingsFrom_cons (f : FieldMapping) (rest : List FieldMapping) (data : Dict Value) :
    plantingsFrom tools payloads (f :: rest) data =
      (if (f.perform tools payloads data).error.isNone then (f.planting? tools payloads).toList
        else []) ++
        plantingsFrom tools payloads rest (f.perform tools payloads data).value := by
  unfold plantingsFrom succeeding
  rw [trials, List.filterMap_cons]
  split
  · rename_i skipped
    split at skipped
    · cases skipped
    · rename_i failed
      rw [if_neg failed, List.nil_append]
  · rename_i g taken
    split at taken
    · rename_i through
      cases taken
      rw [if_pos through, List.filterMap_cons]
      cases f.planting? tools payloads <;> rfl
    · cases taken

theorem planted_foldl_step (fields : List FieldMapping) (r : TargetRecord) :
    Path.Planted (.obj r.data) (plantingsFrom tools payloads fields r.data)
      (.obj (fields.foldl (step tools payloads) r).data) := by
  induction fields generalizing r with
  | nil => exact .nil _
  | cons f rest ih =>
    have further := ih (step tools payloads r f)
    rw [step_data] at further
    rw [List.foldl_cons, plantingsFrom_cons]
    cases outcome : (f.perform tools payloads r.data).error with
    | some e =>
      rw [FieldMapping.perform_value_of_error outcome] at further ⊢
      exact further
    | none =>
      cases planting : f.planting? tools payloads with
      | none =>
        rw [FieldMapping.perform_of_planting?_none planting] at further ⊢
        exact further
      | some w =>
        obtain ⟨fits, planted⟩ := FieldMapping.perform_of_planting?_some planting outcome
        rw [planted] at further
        exact .cons fits further

/-- The data of a record are made by the plantings of its field mappings. -/
theorem planted_apply (m : EntityMapping) (tools : Toolbox) (now : Calendar.Instant)
    (target : EntityRef) (first : SourceRecord) (others : List SourceRecord) :
    ∃ made, m.apply tools now target (first :: others) = .ok made ∧
      Path.Planted (.obj []) (m.plantings tools (Payloads.ofRecords (first :: others)))
        (.obj made.data) := by
  let start : TargetRecord := {
    id := m.targetId tools first (Payloads.ofRecords (first :: others))
    service := target.service
    entity := target.entity
    sources := (first :: others).map SourceRef.ofRecord
    transformedAt := now }
  exact ⟨_, rfl, planted_foldl_step m.fields start⟩

end EntityMapping

end

end DataMigration
