import DataMigration.Proofs.Migration.Accounting
import DataMigration.Proofs.Migration.Loops

/-!
# What records flow where

Sources give records, which are kept under keys until the transformation, and entity mappings are
fed the records that are kept under the keys of their sources. What is kept after the extraction is
what was kept before it, followed by what the sources gave that it came to.
-/

namespace DataMigration

variable {σ : Type}

/-- What comes of going on, unless the work has stopped. -/
def Progressed.further {α : Type} (p : Progressed σ) (f : MigrationState σ → List α) : List α :=
  match p with
  | (s, none) => f s
  | (_, some _) => []

@[simp]
theorem Progressed.further_nil {α : Type} (p : Progressed σ) :
    (p.further fun _ => ([] : List α)) = [] := by
  obtain ⟨s, _ | e⟩ := p <;> rfl

/-- The records that are kept under a key. -/
def MigrationState.held (s : MigrationState σ) (key : String) : List SourceRecord :=
  (Dict.get? s.extracted key).getD []

theorem MigrationState.held_congr {s t : MigrationState σ} (same : t.extracted = s.extracted)
    (key : String) : t.held key = s.held key := by
  rw [held, same]
  rfl

namespace Migration

/-- The records that a source gave. -/
def gave : Extracted → List SourceRecord
  | .ok x => x.records
  | .error _ => []

/-- What those sources gave, in their order, that are asked for. -/
def gathered (asked : Source → Bool) (ys : List (Source × Extracted)) : List SourceRecord :=
  (ys.filter fun y => asked y.1).flatMap fun y => gave y.2

theorem gathered_cons (asked : Source → Bool) (y : Source × Extracted)
    (ys : List (Source × Extracted)) :
    gathered asked (y :: ys) = (if asked y.1 then gave y.2 else []) ++ gathered asked ys := by
  simp only [gathered, List.filter_cons]
  split <;> rfl

variable (m : Migration σ)

/-- What the sources give that an extraction comes to. -/
def yields : List Source → List Extracted → MigrationState σ → List (Source × Extracted)
  | [], _, _ => []
  | source :: rest, x :: ahead, s =>
    (source, x) :: (m.extractStep source x s).further (yields rest ahead)
  | source :: rest, [], s =>
    let (s, x, ahead) := m.readAhead s source rest
    (source, x) :: (m.extractStep source x s).further (yields rest ahead)

/-- The records that entity mappings are fed which a transformation comes to. -/
def fed (tools : Toolbox) :
    List EntityMapping → MigrationState σ → List (EntityMapping × List SourceRecord)
  | [], _ => []
  | em :: rest, s =>
    (em, s.extractedRecords em.source.service em.source.entity) ::
      (m.transformStep tools em s).further (fed tools rest)

/-- A run with a mapping up to the point where its transformation begins. -/
def beginTransforming (mapping : Mapping) (s : MigrationState σ) : Progressed σ :=
  (m.phase .extracting m.runExtraction (adopt mapping (m.fresh s))).andThen fun s =>
    s.goTo m .transforming

/-- What the sources give to a run with a mapping. -/
def readings (mapping : Mapping) (s : MigrationState σ) : List (Source × Extracted) :=
  ((adopt mapping (m.fresh s)).goTo m .extracting).further (m.yields m.config.sources [])

/-! ## Extraction -/

theorem extracted_absorb (source : Source) (x : Extraction) (s : MigrationState σ) (step : Step) :
    (m.absorb source x s step).1.extracted =
      Dict.upsert s.extracted source.key [] (· ++ x.records) := by
  have saved := (Kept.extracted m).saveExtracted source x s (countExtraction x step)
  simp only [absorb, MigrationState.emit]
  rw [saved]

/-- A source adds what it gives to what is kept under its key. -/
theorem held_extractStep (source : Source) (x : Extracted) (s : MigrationState σ) (key : String) :
    (m.extractStep source x s).1.held key =
      s.held key ++ if source.key == key then gave x else [] := by
  have k := Kept.extracted m
  let opened := s.newStep m ("Extract " ++ source.entity ++ " from " ++ source.service)
    source.entity .extracting
  cases x with
  | ok x =>
    let taken := m.absorb source x opened.1 opened.2
    have ends : (m.extractStep source (.ok x) s).1.extracted = taken.1.extracted :=
      (k.checkpoint (taken.1.finishStep m taken.2 none)).trans (k.finishStep taken.1 taken.2 none)
    have added : taken.1.extracted = Dict.upsert s.extracted source.key [] (· ++ x.records) :=
      m.extracted_absorb source x opened.1 opened.2
    simp only [MigrationState.held, ends, added, Dict.upsert, Dict.get?_insert, beq_iff_eq, gave]
    by_cases same : key = source.key
    · rw [if_pos same, if_pos same.symm, same]
      rfl
    · rw [if_neg same, if_neg (Ne.symm same), List.append_nil]
  | error e =>
    have ends : (m.extractStep source (.error e) s).1.extracted = s.extracted := by
      simp only [extractStep]
      split
      · exact (k.checkpoint _).trans (k.finishStep opened.1 opened.2 _)
      · exact k.finishStep opened.1 opened.2 _
    simp only [MigrationState.held, ends, gave, ite_self, List.append_nil]

/-- An extraction adds what its sources give, in their order, to what is kept. -/
theorem held_extractAll (sources : List Source) (ahead : List Extracted) (s : MigrationState σ)
    (key : String) :
    (m.extractAll sources ahead s).1.held key =
      s.held key ++ gathered (·.key == key) (m.yields sources ahead s) := by
  induction sources generalizing ahead s with
  | nil => exact (List.append_nil _).symm
  | cons source rest ih =>
    have next : ∀ x ahead t, t.held key = s.held key →
        ((m.extractStep source x t).andThen (m.extractAll rest ahead)).1.held key =
          s.held key ++ gathered (·.key == key)
            ((source, x) :: (m.extractStep source x t).further (m.yields rest ahead)) := by
      intro x ahead t before
      have first := m.held_extractStep source x t key
      rw [gathered_cons, ← List.append_assoc, ← before, ← first]
      generalize m.extractStep source x t = p
      obtain ⟨u, _ | e⟩ := p
      · exact ih ahead u
      · exact (List.append_nil _).symm
    cases ahead with
    | nil =>
      have read := (Kept.extracted m).readAhead s source rest
      exact next _ _ _ (MigrationState.held_congr read key)
    | cons x ahead => exact next x ahead s rfl

theorem extracted_goTo (s : MigrationState σ) (next : RunStatus) :
    (s.goTo m next).1.extracted = s.extracted :=
  s.goTo_unmoved m MigrationState.extracted (fun _ _ => rfl) next

/-- After the extraction phase, however far it came, what the sources gave stands behind what was
kept before. -/
theorem held_extracting (mapping : Mapping) (s : MigrationState σ) (key : String) :
    (m.phase .extracting m.runExtraction (adopt mapping (m.fresh s))).1.held key =
      s.held key ++ gathered (·.key == key) (m.readings mapping s) := by
  have began := m.extracted_goTo (adopt mapping (m.fresh s)) .extracting
  rw [readings, phase]
  revert began
  generalize (adopt mapping (m.fresh s)).goTo m .extracting = p
  obtain ⟨t, _ | e⟩ := p
  · intro began
    have same : t.held key = s.held key := MigrationState.held_congr began key
    rw [← same]
    exact m.held_extractAll m.config.sources [] t key
  · intro began
    have same : t.held key = s.held key := MigrationState.held_congr began key
    exact same.trans (List.append_nil _).symm

/-- When the transformation begins, what the sources gave stands behind what was kept before. -/
theorem held_beginTransforming {mapping : Mapping} {s t : MigrationState σ}
    (begun : m.beginTransforming mapping s = (t, none)) (key : String) :
    t.held key = s.held key ++ gathered (·.key == key) (m.readings mapping s) := by
  obtain ⟨u, extracting, enters⟩ := Progressed.andThen_eq_none_iff.1 begun
  have last := MigrationState.held_congr (m.extracted_goTo u .transforming) key
  have held := m.held_extracting mapping s key
  rw [enters] at last
  rw [extracting] at held
  exact last.trans held

/-! ## Transformation -/

theorem fed_singleton (tools : Toolbox) (em : EntityMapping) (s : MigrationState σ) :
    m.fed tools [em] s = [(em, s.extractedRecords em.source.service em.source.entity)] := by
  have none : m.fed tools [] = fun _ => [] := rfl
  rw [fed, none, Progressed.further_nil]

/-- An entity mapping is fed what is kept for its source when the transformation begins. -/
theorem records_of_mem_fed {tools : Toolbox} {ems : List EntityMapping} {s : MigrationState σ}
    {p : EntityMapping × List SourceRecord} (member : p ∈ m.fed tools ems s) :
    p.2 = s.extractedRecords p.1.source.service p.1.source.entity := by
  induction ems generalizing s with
  | nil => cases member
  | cons em rest ih =>
    obtain rfl | later := List.mem_cons.1 member
    · rfl
    · have same := (Kept.extracted m).transformStep (fun _ _ => rfl) (fun _ _ => rfl) tools em s
      revert later same
      generalize m.transformStep tools em s = q
      obtain ⟨t, _ | e⟩ := q
      · intro later same
        have extracted : t.extracted = s.extracted := same
        rw [ih later, MigrationState.extractedRecords, extracted]
        rfl
      · intro later
        cases later

/-- The records of the working set of a target. -/
def recordsOf (working : List WorkingSet) (target : EntityRef) : List TargetRecord :=
  ((working.find? fun set => set.target = target).map WorkingSet.records).getD []

/-- What the records that were fed to the mappings into a target have become. -/
def came (f : EntityMapping → SourceRecord → List TargetRecord) (target : EntityRef)
    (fed : List (EntityMapping × List SourceRecord)) : List TargetRecord :=
  (fed.filter fun p => p.1.target = target).flatMap fun p => p.2.flatMap (f p.1)

theorem recordsOf_addRecords (place target : EntityRef) (records : List TargetRecord)
    (working : List WorkingSet) :
    recordsOf (addRecords place records working) target =
      recordsOf working target ++ if place = target then records else [] := by
  induction working with
  | nil =>
    by_cases same : place = target <;> simp [addRecords, recordsOf, same]
  | cons set rest ih =>
    unfold recordsOf at ih ⊢
    by_cases here : set.target = place
    · by_cases same : place = target <;> simp [addRecords, here, same]
    · by_cases found : set.target = target
      · have other : place ≠ target := fun same => here (found.trans same.symm)
        have apart : addRecords place records (set :: rest) =
            set :: addRecords place records rest := if_neg here
        simp only [apart, List.find?_cons, found, decide_true, if_neg other, List.append_nil]
      · simp only [addRecords, if_neg here, List.find?_cons, found, decide_false]
        exact ih

theorem came_cons (f : EntityMapping → SourceRecord → List TargetRecord) (target : EntityRef)
    (p : EntityMapping × List SourceRecord) (fed : List (EntityMapping × List SourceRecord)) :
    came f target (p :: fed) =
      (if p.1.target = target then p.2.flatMap (f p.1) else []) ++ came f target fed := by
  by_cases into : p.1.target = target <;> simp [came, into]

/-- A step that goes through adds what its records have become to the working set of its target. -/
theorem recordsOf_transformStep {tools : Toolbox} {em : EntityMapping} {s t : MigrationState σ}
    (through : m.transformStep tools em s = (t, none)) (target : EntityRef) :
    recordsOf t.working target = recordsOf s.working target ++
      if em.target = target then
        (s.extractedRecords em.source.service em.source.entity).flatMap (m.transformed em tools)
      else [] := by
  by_cases none : s.extractedRecords em.source.service em.source.entity = []
  · rw [m.transformStep_of_nil tools none] at through
    cases through
    rw [none, List.flatMap_nil, ite_self, List.append_nil]
    rfl
  · rw [m.transformStep_of_ne_nil tools none] at through
    let sources := s.extractedRecords em.source.service em.source.entity
    let p := s.newStep m ("Transform " ++ em.source.entity ++ " to " ++ em.target.entity)
      em.target.entity .transforming
    obtain ⟨done, rest, whole, handled, all⟩ := m.transformRecords_handles em tools sources p.1 p.2
    have still := (Kept.working m).transformRecords (fun _ _ => rfl) em tools sources p.1 p.2
    simp only at through
    revert through handled all still
    generalize m.transformRecords em tools sources p.1 p.2 = q
    obtain ⟨w, stop⟩ := q
    intro through handled all still
    cases through
    rw [all rfl, List.append_nil] at whole
    have records : w.records = sources.flatMap (m.transformed em tools) :=
      whole ▸ handled.records
    have working : addRecords em.target w.records w.state.working =
        addRecords em.target (sources.flatMap (m.transformed em tools)) s.working :=
      congrArg₂ (addRecords em.target) records still
    exact (congrArg (recordsOf · target) working).trans (recordsOf_addRecords ..)

/-- A transformation that goes through adds what the records that were fed have become. -/
theorem recordsOf_transformAll {tools : Toolbox} {ems : List EntityMapping}
    {s t : MigrationState σ} (through : m.transformAll tools ems s = (t, none))
    (target : EntityRef) :
    recordsOf t.working target =
      recordsOf s.working target ++
        came (fun em => m.transformed em tools) target (m.fed tools ems s) := by
  induction ems generalizing s with
  | nil =>
    cases through
    exact (List.append_nil _).symm
  | cons em rest ih =>
    obtain ⟨u, first, others⟩ := Progressed.andThen_eq_none_iff.1 through
    have added := m.recordsOf_transformStep first target
    simp only [fed, first, Progressed.further]
    rw [ih others, added, came_cons, List.append_assoc]

/-! ## Validation -/

/-- What a run with a mapping has made of a source record when it is validated. -/
def becomes (mapping : Mapping) (em : EntityMapping) (source : SourceRecord) :
    List TargetRecord :=
  (m.transformed em (m.toolbox (some mapping)) source).flatMap
    (m.accepted (m.registry.entitySchema? em.target))

theorem validateStep_eq_thinned {set set' : WorkingSet} {s t : MigrationState σ}
    (through : m.validateStep set s = (set', t, none)) : set' = m.thinned set := by
  let schema := m.registry.entitySchema? set.target
  let opened := (s.newStep m ("Validate " ++ set.target.entity) set.target.entity .validating).1
  obtain ⟨done, rest, whole, handled, all⟩ :=
    m.validateRecords_handles schema set.records opened (m.validationStep set s)
  rw [validateStep_eq] at through
  revert through handled all
  generalize m.validateRecords schema set.records opened (m.validationStep set s) = q
  obtain ⟨w, stop⟩ := q
  intro through handled all
  cases through
  rw [all rfl, List.append_nil] at whole
  exact congrArg (WorkingSet.mk set.target) (whole ▸ handled.records)

/-- A validation that goes through thins every working set out. -/
theorem validateAll_eq_thinned {sets sets' : List WorkingSet} {s t : MigrationState σ}
    (through : m.validateAll sets s = (sets', t, none)) : sets' = sets.map m.thinned := by
  induction sets generalizing s sets' with
  | nil =>
    cases through
    rfl
  | cons set rest ih =>
    simp only [validateAll] at through
    split at through <;> rename_i first
    · obtain ⟨kept, further⟩ := Prod.mk.inj through
      have others := ih (Prod.ext rfl further)
      rw [← kept, m.validateStep_eq_thinned first]
      exact congrArg (m.thinned set :: ·) others
    · cases through

theorem recordsOf_thinned (working : List WorkingSet) (target : EntityRef) :
    recordsOf (working.map m.thinned) target =
      (recordsOf working target).flatMap (m.accepted (m.registry.entitySchema? target)) := by
  induction working with
  | nil => rfl
  | cons set rest ih =>
    unfold recordsOf at ih ⊢
    have same : (m.thinned set).target = set.target := rfl
    by_cases here : set.target = target
    · simp only [List.map_cons, List.find?_cons, same, here, decide_true]
      exact congrArg (fun e => set.records.flatMap (m.accepted (m.registry.entitySchema? e))) here
    · simp only [List.map_cons, List.find?_cons, same, here, decide_false]
      exact ih

/-! ## Everything before the loading -/

/-- The records that a run with a mapping feeds to the entity mappings. -/
def feeds (mapping : Mapping) (s : MigrationState σ) :
    List (EntityMapping × List SourceRecord) :=
  m.fed (m.toolbox (some mapping)) mapping.entities (m.beginTransforming mapping s).1

theorem working_goTo (s : MigrationState σ) (next : RunStatus) :
    (s.goTo m next).1.working = s.working :=
  s.goTo_unmoved m MigrationState.working (fun _ _ => rfl) next

/-- A run begins its transformation with empty working sets. -/
theorem working_beginTransforming (mapping : Mapping) (s : MigrationState σ) :
    (m.beginTransforming mapping s).1.working = [] := by
  have k := Kept.working m
  have extracted := k.andThen (m.working_goTo (adopt mapping (m.fresh s)) .extracting)
    (k.runExtraction fun _ _ => rfl)
  exact k.andThen extracted fun t => m.working_goTo t .transforming

theorem came_flatMap_accepted (mapping : Mapping) (target : EntityRef)
    (fed : List (EntityMapping × List SourceRecord)) :
    (came (fun em => m.transformed em (m.toolbox (some mapping))) target fed).flatMap
        (m.accepted (m.registry.entitySchema? target)) =
      came (m.becomes mapping) target fed := by
  induction fed with
  | nil => rfl
  | cons p rest ih =>
    rw [came_cons, came_cons, List.flatMap_append, ih]
    split
    · rename_i into
      rw [List.flatMap_assoc, ← into]
      rfl
    · rfl

/-- A run that comes to its loading has, for every target, what the records that were fed to the
mappings into it have become, in their order. -/
theorem recordsOf_prepare {mapping : Mapping} {s t : MigrationState σ}
    (prepared : m.prepare mapping (adopt mapping (m.fresh s)) = (t, none))
    (target : EntityRef) :
    recordsOf t.working target = came (m.becomes mapping) target (m.feeds mapping s) := by
  obtain ⟨u, earlier, validating⟩ := Progressed.andThen_eq_none_iff.1 prepared
  obtain ⟨v, extracting, transforming⟩ := Progressed.andThen_eq_none_iff.1 earlier
  obtain ⟨w, enters, transformed⟩ := Progressed.andThen_eq_none_iff.1 transforming
  obtain ⟨x, goesOn, saves⟩ := Progressed.andThen_eq_none_iff.1 transformed
  obtain ⟨y, entered, validated⟩ := Progressed.andThen_eq_none_iff.1 validating
  have begun : m.beginTransforming mapping s = (w, none) := by
    rw [beginTransforming, extracting]
    exact enters
  have empty := m.working_beginTransforming mapping s
  have saved := (Kept.working m).saveTransformed x
  have still := m.working_goTo u .validating
  rw [begun] at empty
  rw [(Prod.mk.inj saves).1] at saved
  rw [entered] at still
  have made := m.recordsOf_transformAll goesOn target
  have thinned : t.working = y.working.map m.thinned := by
    have sets : (m.validateAll y.working y).1 = t.working :=
      congrArg (fun p : Progressed σ => p.1.working) validated
    have stop : (m.validateAll y.working y).2.2 = none := congrArg Prod.snd validated
    exact m.validateAll_eq_thinned (Prod.ext sets (Prod.ext rfl stop))
  have start : recordsOf w.working target = [] := by
    have none : w.working = [] := empty
    rw [none]
    rfl
  have same : y.working = x.working := Eq.trans still saved
  rw [thinned, recordsOf_thinned, same, made, start, List.nil_append, came_flatMap_accepted,
    feeds, begun]

end Migration

end DataMigration
