import DataMigration.Proofs.Mapping.Plantings

/-!
# The id of a record and the id that it carries

The id of a record is found before its data are made: the first field mapping of `id` gives it, if
its source has a value. What the record carries under `id` is made by all field mappings that plant
something there, under their conditions, with their defaults, and from no source value, too. The two
agree when the first field mapping of `id` makes its value from a source value and no later one
plants anything there.
-/

namespace DataMigration

namespace Path

/-- What is at a place after a planting, if `v` was there before; null stands for nothing. -/
def Planting.under (p : Place) (v : Value) (w : Planting) : Value :=
  match w.places with
  | [] => (inside? w.value p).getD .null
  | q :: ps => if q = p then plant w.value ps v else v

variable {v u : Value} {ws : List Planting} {p : Place}

theorem Planting.inside?_plant {w : Planting} (fits : Fits w.places v) :
    (inside? (plant w.value w.places v) p).getD .null = w.under p ((inside? v p).getD .null) := by
  unfold under
  split
  · rename_i places
    rw [places, plant]
  · rename_i q ps places
    rw [places] at fits ⊢
    split
    · rename_i same
      rw [same, Path.inside?_plant, Option.getD_some]
    · rename_i other
      exact inside?_plant_of_ne fits (Ne.symm other)

/-- What is at a place after all plantings: one after the other they put something there or leave
it as it is. -/
theorem Planted.inside?_eq (planted : Planted v ws u) :
    (inside? u p).getD .null = ws.foldl (Planting.under p) ((inside? v p).getD .null) := by
  induction planted with
  | nil v => rfl
  | cons fits rest ih => rw [ih, Planting.inside?_plant fits, List.foldl_cons]

theorem foldl_under_of_beside
    (beside : ∀ w ∈ ws, ∃ q ps, w.places = q :: ps ∧ q ≠ p) (v : Value) :
    ws.foldl (Planting.under p) v = v := by
  induction ws with
  | nil => rfl
  | cons w ws ih =>
    obtain ⟨q, ps, places, other⟩ := beside w List.mem_cons_self
    rw [List.foldl_cons, Planting.under, places]
    dsimp only
    rw [if_neg other]
    exact ih fun w' member => beside w' (List.mem_cons_of_mem _ member)

theorem Segment.places_ne_nil (s : Segment) : s.places ≠ [] := by
  cases s <;> exact List.cons_ne_nil _ _

theorem places_ne_nil {path : String} (named : path ≠ "") : places path ≠ [] := by
  obtain ⟨text, texts, pieces⟩ := List.exists_cons_of_ne_nil (Text.splitAt_ne_nil '.' path.toList)
  rw [places, segments, if_neg named, Text.split, pieces, List.map_cons, List.map_cons,
    List.flatMap_cons]
  exact List.append_ne_nil_of_left_ne_nil (Segment.places_ne_nil _) _

end Path

variable {tools : Toolbox} {payloads : Payloads}

namespace FieldMapping

/-- What the operator of a field mapping makes of a source value. -/
def fromSource (f : FieldMapping) (tools : Toolbox) (payloads : Payloads) (raw : Value) : Outcome :=
  (tools.operators.call f).outcome (some raw) f.config payloads tools.tables

/-- The field mapping plants nothing at a root key or below it. -/
def LeavesAlone (f : FieldMapping) (tools : Toolbox) (payloads : Payloads) (name : String) : Prop :=
  f.planting? tools payloads = none ∨ (Path.places f.target).head? ≠ some (.key name)

end FieldMapping

namespace EntityMapping

section

variable {fields before : List FieldMapping} {f : FieldMapping} {data : Dict Value}
  {w : Path.Planting}

theorem exists_plantingsFrom_append (before rest : List FieldMapping) (data : Dict Value) :
    ∃ data', plantingsFrom tools payloads (before ++ rest) data =
      plantingsFrom tools payloads before data ++ plantingsFrom tools payloads rest data' := by
  induction before generalizing data with
  | nil => exact ⟨data, rfl⟩
  | cons f before ih =>
    obtain ⟨data', rest⟩ := ih (f.perform tools payloads data).value
    exact ⟨data', by rw [List.cons_append, plantingsFrom_cons, plantingsFrom_cons, rest,
      List.append_assoc]⟩

/-- A planting is that of a field mapping whose target path has a place. -/
theorem exists_of_mem_plantingsFrom (member : w ∈ plantingsFrom tools payloads fields data) :
    ∃ f ∈ fields, f.planting? tools payloads = some w ∧ w.places ≠ [] := by
  induction fields generalizing data with
  | nil => cases member
  | cons f rest ih =>
    rw [plantingsFrom_cons] at member
    obtain here | later := List.mem_append.1 member
    · split at here
      · rename_i through
        have planting : f.planting? tools payloads = some w := Option.mem_toList.1 here
        rw [FieldMapping.perform_eq_write planting, Changed.mapError_error, Option.isNone_map,
          Option.isNone_iff_eq_none] at through
        rw [(FieldMapping.planting?_eq_some_iff.1 planting).2.2]
        exact ⟨f, List.mem_cons_self, planting,
          Path.places_ne_nil (Path.write_error_eq_none_iff.1 through).1⟩
      · cases here
    · obtain ⟨g, among, planting⟩ := ih later
      exact ⟨g, List.mem_cons_of_mem f among, planting⟩

/-- A planting at a root key comes through on any data. -/
theorem plantingsFrom_of_rootKey {name : String} (planting : f.planting? tools payloads = some w)
    (named : f.target ≠ "") (places : Path.places f.target = [.key name]) (rest : List FieldMapping)
    (data : Dict Value) : plantingsFrom tools payloads (f :: rest) data =
      w :: plantingsFrom tools payloads rest (f.perform tools payloads data).value := by
  have fits : Path.Fits (Path.places f.target) (.obj data) := by
    rw [places]
    exact .key (.nil _)
  have through : (f.perform tools payloads data).error = none := by
    rw [FieldMapping.perform_eq_write planting, Changed.mapError_error,
      Path.write_error_eq_none_iff.2 ⟨named, fits⟩]
    rfl
  rw [plantingsFrom_cons, through, planting]
  rfl

end

/-! ## The two passes -/

/-- The field mapping that the id of a record is taken from. -/
def idMapping? (m : EntityMapping) : Option FieldMapping := m.fields.find? fun f => f.target == "id"

/-- The text that identifies a record: what the first field mapping of `id` makes of its source
value, that value if it makes nothing of it, and service and id of the first source record if there
is none. -/
inductive Identifies (m : EntityMapping) (tools : Toolbox) (payloads : Payloads)
    (first : SourceRecord) : String → Prop
  | made {f : FieldMapping} {raw v : Value} (mapped : m.idMapping? = some f)
      (source : f.sourceValue? payloads = some raw)
      (gives : f.fromSource tools payloads raw = .ok (some v)) :
      Identifies m tools payloads first v.text
  | raw {f : FieldMapping} {raw : Value} (mapped : m.idMapping? = some f)
      (source : f.sourceValue? payloads = some raw)
      (gives : ∀ v, f.fromSource tools payloads raw ≠ .ok (some v)) :
      Identifies m tools payloads first raw.text
  | origin (unread : m.idMapping?.bind (·.sourceValue? payloads) = none) :
      Identifies m tools payloads first (first.service ++ "_" ++ first.id)

variable {m : EntityMapping} {first : SourceRecord} {f : FieldMapping} {v : Value}

theorem targetId_of_source {raw : Value} (mapped : m.idMapping? = some f)
    (source : f.sourceValue? payloads = some raw) :
    m.targetId tools first payloads =
      match f.fromSource tools payloads raw with
      | .ok (some v) => v.text
      | _ => raw.text := by
  unfold idMapping? at mapped
  unfold targetId
  rw [mapped, Option.bind_eq_bind, Option.bind_some, source]
  rfl

theorem targetId_of_unread (unread : m.idMapping?.bind (·.sourceValue? payloads) = none) :
    m.targetId tools first payloads = first.service ++ "_" ++ first.id := by
  unfold idMapping? at unread
  unfold targetId
  cases mapped : m.fields.find? fun f => f.target == "id" with
  | none => rfl
  | some f =>
    rw [mapped, Option.bind_some] at unread
    rw [Option.bind_eq_bind, Option.bind_some, unread]
    rfl

theorem identifies_iff {s : String} :
    m.Identifies tools payloads first s ↔ m.targetId tools first payloads = s := by
  constructor
  · rintro (⟨mapped, source, gives⟩ | ⟨mapped, source, gives⟩ | unread)
    · rw [targetId_of_source mapped source, gives]
    · rw [targetId_of_source mapped source]
      split
      · rename_i v given
        exact absurd given (gives v)
      · rfl
    · exact targetId_of_unread unread
  · rintro rfl
    cases unread : m.idMapping?.bind (·.sourceValue? payloads) with
    | none =>
      rw [targetId_of_unread unread]
      exact .origin unread
    | some raw =>
      obtain ⟨f, mapped, source⟩ := Option.bind_eq_some_iff.1 unread
      rw [targetId_of_source mapped source]
      split
      · rename_i v given
        exact .made mapped source given
      · rename_i other
        exact .raw mapped source other

/-- What the field mappings of a record leave under `id`; null if there is nothing. -/
def carriedId (m : EntityMapping) (tools : Toolbox) (payloads : Payloads) : Value :=
  (m.plantings tools payloads).foldl (Path.Planting.under (.key "id")) .null

/-- A field mapping is the first of `id`, plants a value there, and no later one plants anything
there or below. -/
structure SettlesId (m : EntityMapping) (tools : Toolbox) (payloads : Payloads)
    (f : FieldMapping) (v : Value) : Prop where
  target : f.target = "id"
  applies : f.applies payloads.values = true
  value : f.value tools payloads = .ok (some v)
  something : v ≠ .null
  alone : ∃ before after, m.fields = before ++ f :: after ∧ (∀ g ∈ before, g.target ≠ "id") ∧
    ∀ g ∈ after, g.LeavesAlone tools payloads "id"

namespace SettlesId

theorem idMapping?_eq (settles : m.SettlesId tools payloads f v) : m.idMapping? = some f := by
  obtain ⟨before, after, fields, first, _⟩ := settles.alone
  rw [idMapping?, fields, List.find?_append,
    List.find?_eq_none.2 fun g member => mt beq_iff_eq.1 (first g member), Option.none_or]
  exact List.find?_cons_of_pos (beq_iff_eq.2 settles.target)

theorem carriedId_eq (settles : m.SettlesId tools payloads f v) :
    m.carriedId tools payloads = v := by
  obtain ⟨before, after, fields, _, last⟩ := settles.alone
  have root : Path.places f.target = [.key "id"] := by
    rw [settles.target]
    decide +kernel
  have planting : f.planting? tools payloads = some ⟨Path.places f.target, v⟩ :=
    FieldMapping.planting?_eq_some_iff.2 ⟨settles.applies, settles.value, rfl⟩
  have named : f.target ≠ "" := by
    rw [settles.target]
    decide
  obtain ⟨data, whole⟩ := @exists_plantingsFrom_append tools payloads before (f :: after) []
  have beside : ∀ w ∈ plantingsFrom tools payloads after (f.perform tools payloads data).value,
      ∃ q ps, w.places = q :: ps ∧ q ≠ .key "id" := by
    intro w member
    obtain ⟨g, among, planted, some⟩ := exists_of_mem_plantingsFrom member
    obtain ⟨q, ps, places⟩ := List.exists_cons_of_ne_nil some
    refine ⟨q, ps, places, fun same => ?_⟩
    obtain idle | apart := last g among
    · rw [planted] at idle
      cases idle
    · rw [← (FieldMapping.planting?_eq_some_iff.1 planted).2.2, places, same] at apart
      exact apart rfl
  rw [carriedId, plantings, fields, whole, plantingsFrom_of_rootKey planting named root,
    List.foldl_append, List.foldl_cons, Path.foldl_under_of_beside beside, Path.Planting.under,
    root]
  exact if_pos rfl

end SettlesId

theorem foldl_step_id (fields : List FieldMapping) (r : TargetRecord) :
    (fields.foldl (step tools payloads) r).id = r.id := by
  induction fields generalizing r with
  | nil => rfl
  | cons f rest ih =>
    rw [List.foldl_cons, ih, step]
    split <;> rfl

theorem get?_id_eq_some_iff {made : TargetRecord}
    (planted : Path.Planted (.obj []) (m.plantings tools payloads) (.obj made.data)) :
    Dict.get? made.data "id" = some v ∧ v ≠ .null ↔
      m.carriedId tools payloads = v ∧ v ≠ .null := by
  have left : (Dict.get? made.data "id").getD .null = m.carriedId tools payloads :=
    planted.inside?_eq (p := .key "id")
  refine and_congr_left fun something => ?_
  rw [← left]
  cases Dict.get? made.data "id" with
  | none => exact iff_of_false (Option.some_ne_none v).symm fun same => something same.symm
  | some w => exact Option.some_inj

/-- A record with an id that is not null is identified by its text exactly if the field mappings
leave a value under `id` whose text also identifies the record. That is so if the first field
mapping of `id` settles it and its operator makes something of a source value. If that field mapping
has no source value, the record is identified by its origin, whatever it carries. -/
theorem id_agrees_iff (m : EntityMapping) (tools : Toolbox) (now : Calendar.Instant)
    (target : EntityRef) (first : SourceRecord) (others : List SourceRecord) :
    let payloads := Payloads.ofRecords (first :: others)
    ∃ made, m.apply tools now target (first :: others) = .ok made ∧
      ((∀ v, Dict.get? made.data "id" = some v → v ≠ .null → made.id = v.text) ↔
        (m.carriedId tools payloads ≠ .null →
          m.Identifies tools payloads first (m.carriedId tools payloads).text)) ∧
      ∀ f v, m.SettlesId tools payloads f v →
        Dict.get? made.data "id" = some v ∧
        (∀ raw u, f.sourceValue? payloads = some raw →
          f.fromSource tools payloads raw = .ok (some u) → made.id = v.text) ∧
        (f.sourceValue? payloads = none → made.id = first.service ++ "_" ++ first.id) := by
  intro payloads
  obtain ⟨made, done, planted⟩ := m.planted_apply tools now target first others
  have named : made.id = m.targetId tools first payloads := by
    cases done
    exact foldl_step_id m.fields _
  have carried : ∀ v, Dict.get? made.data "id" = some v ∧ v ≠ .null ↔
      m.carriedId tools payloads = v ∧ v ≠ .null := fun _ => get?_id_eq_some_iff planted
  refine ⟨made, done, ?_, fun f v settles => ⟨?_, fun raw u source gives => ?_, fun unread => ?_⟩⟩
  · simp only [identifies_iff, ← named, ← and_imp, carried]
    exact ⟨fun agrees something => agrees _ ⟨rfl, something⟩,
      fun agrees _ ⟨same, something⟩ => same ▸ agrees (same ▸ something)⟩
  · exact ((carried v).2 ⟨settles.carriedId_eq, settles.something⟩).1
  · have same : v = u := by
      have value := settles.value
      rw [FieldMapping.value, source] at value
      unfold FieldMapping.fromSource at gives
      rw [gives] at value
      cases value
      rfl
    rw [named, targetId_of_source settles.idMapping?_eq source, gives, same]
  · rw [named]
    exact targetId_of_unread (by rw [settles.idMapping?_eq]; exact unread)

/-- A contact that is made by one field mapping from a user of a shop. -/
def contactMapping (field : FieldMapping) : EntityMapping where
  name := "users"
  source := ⟨"shop", "user"⟩
  target := ⟨"crm", "contact"⟩
  fields := [field]

/-- A user of a shop with a mail address. -/
def shopUser : SourceRecord where
  id := "1"
  service := "shop"
  entity := "user"
  data := .obj [("mail", .str "Ann@x.org")]
  extractedAt := ⟨0, 0⟩

/-- The id is the mail address in small letters. -/
def mailField : FieldMapping where
  source := some "mail"
  target := "id"
  operator := .lowercase

/-- The mail address settles the id of the contact, which identifies its record, too. -/
theorem mailField_id_agrees :
    (contactMapping mailField).SettlesId {} (Payloads.ofRecords [shopUser]) mailField
        (.str "ann@x.org") ∧
      ∃ made, (contactMapping mailField).apply {} ⟨0, 0⟩ ⟨"crm", "contact"⟩ [shopUser] = .ok made ∧
        Dict.get? made.data "id" = some (.str "ann@x.org") ∧ made.id = "ann@x.org" := by
  have settles : (contactMapping mailField).SettlesId {} (Payloads.ofRecords [shopUser]) mailField
      (.str "ann@x.org") :=
    { target := rfl
      applies := rfl
      value := rfl
      something := Value.noConfusion
      alone := ⟨[], [], rfl, List.forall_mem_nil _, List.forall_mem_nil _⟩ }
  obtain ⟨made, done, _, settled⟩ :=
    id_agrees_iff (contactMapping mailField) {} ⟨0, 0⟩ ⟨"crm", "contact"⟩ shopUser []
  obtain ⟨carried, agrees, _⟩ := settled mailField _ settles
  exact ⟨settles, made, done, carried, agrees (.str "Ann@x.org") (.str "ann@x.org") rfl rfl⟩

/-- The id is a fixed one, made from no source value. -/
def fixedField : FieldMapping where
  target := "id"
  operator := .default
  config := [("value", .str "c_1")]

/-- The contact carries the fixed id, and its record is identified by the user it comes from. -/
theorem fixedField_id_disagrees :
    ∃ made, (contactMapping fixedField).apply {} ⟨0, 0⟩ ⟨"crm", "contact"⟩ [shopUser] = .ok made ∧
      Dict.get? made.data "id" = some (.str "c_1") ∧ made.id = "shop_1" ∧
      made.id ≠ (Value.str "c_1").text :=
  ⟨_, rfl, rfl, rfl, by decide⟩

end EntityMapping

end DataMigration
