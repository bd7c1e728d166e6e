import DataMigration.Proofs.Files.Writing
import DataMigration.Proofs.Migration.Flow

/-!
# What is saved of an extraction

A migration that saves what it extracts writes the records of each source into the file of the key
of the source, in place of what stands there. What is kept in memory under a key grows. So the file
of a key holds what the last of its sources gave, and that is all that is kept under the key exactly
if nothing was kept before and the sources before it gave nothing.
-/

namespace DataMigration

variable {σ : Type}

namespace Json

theorem prettyItems_length_lt (level : Nat) (v : Value) (vs : List Value) :
    (prettyItems level vs).length < (prettyItems level (v :: vs)).length := by
  cases vs with
  | nil => simp [prettyItems, newline]
  | cons w ws =>
    simp only [prettyItems, List.length_append, List.length_cons]
    omega

theorem prettyItems_length_le (level : Nat) (more vs : List Value) :
    (prettyItems level vs).length ≤ (prettyItems level (more ++ vs)).length := by
  induction more with
  | nil => exact Nat.le_refl _
  | cons v more ih => exact ih.trans (prettyItems_length_lt level v (more ++ vs)).le

/-- The brackets around a list, and the line break before the last one unless the list is empty. -/
theorem prettyChars_arr_length (vs : List Value) :
    (prettyChars 0 (.arr vs)).length =
      (prettyItems 1 vs).length + if vs = [] then 2 else 3 := by
  cases vs with
  | nil => simp [prettyChars, prettyItems]
  | cons v vs => simp [prettyChars, newline]

/-- With more elements in front of it a list reads otherwise. -/
theorem pretty_append_eq_iff {more vs : List Value} :
    pretty (.arr (more ++ vs)) = pretty (.arr vs) ↔ more = [] := by
  constructor
  · intro same
    cases more with
    | nil => rfl
    | cons v more =>
      have chars := congrArg List.length (String.ofList_injective same)
      have first := prettyItems_length_lt 1 v (more ++ vs)
      have others := prettyItems_length_le 1 more vs
      rw [prettyChars_arr_length, prettyChars_arr_length, List.cons_append,
        if_neg (List.cons_ne_nil _ _)] at chars
      split at chars <;> omega
  · rintro rfl
    rfl

end Json

/-- Records as they are saved. -/
def document (rs : List SourceRecord) : String := Json.pretty (.arr (rs.map SourceRecord.toValue))

theorem document_append_eq_iff {more rs : List SourceRecord} :
    document (more ++ rs) = document rs ↔ more = [] := by
  rw [document, List.map_append, document, Json.pretty_append_eq_iff, List.map_eq_nil_iff]

namespace Migration

variable (m : Migration σ)

/-- The path of the file for the records of a key. -/
def extractedPath (key : String) : String :=
  FilePath.join (FilePath.join m.config.outputDir "extracted") (key ++ ".json")

/-- Why the records that a source gave could not be saved, if they could not. -/
def saveError? (source : Source) (x : Extracted) (s : MigrationState σ) : Option MigrationError :=
  match x with
  | .ok x => (s.writeArtifact m "extracted" source.key
      (.arr (x.records.map SourceRecord.toValue))).2.2
  | .error _ => none

/-- Why the records that an extraction comes to could not be saved. -/
def saveErrors : List Source → List Extracted → MigrationState σ → List MigrationError
  | [], _, _ => []
  | source :: rest, x :: ahead, s =>
    (m.saveError? source x s).toList ++ (m.extractStep source x s).further (saveErrors rest ahead)
  | source :: rest, [], s =>
    let (s, x, ahead) := m.readAhead s source rest
    (m.saveError? source x s).toList ++ (m.extractStep source x s).further (saveErrors rest ahead)

/-- Why the records that a run with a mapping extracts could not be saved. -/
def unsaved (mapping : Mapping) (s : MigrationState σ) : List MigrationError :=
  ((adopt mapping (m.fresh s)).goTo m .extracting).further (m.saveErrors m.config.sources [])

/-- The extractions that were a success, with their sources. -/
def taken (ys : List (Source × Extracted)) : List (Source × Extraction) :=
  ys.filterMap fun y => y.2.toOption.map (y.1, ·)

theorem gathered_eq_taken (asked : Source → Bool) (ys : List (Source × Extracted)) :
    gathered asked ys = ((taken ys).filter fun y => asked y.1).flatMap fun y => y.2.records := by
  induction ys with
  | nil => rfl
  | cons y ys ih =>
    obtain ⟨source, x | x⟩ := y
    · rw [gathered_cons, ih]
      simp [taken, gave, Except.toOption]
    · rw [gathered_cons, ih]
      by_cases wanted : asked source <;> simp [taken, gave, Except.toOption, wanted]

/-! ## One source -/

/-- An artifact that can be written to some files is written, whatever else the state is. -/
theorem writeArtifact_wrote {directory name : String} {v : Value} {s t : MigrationState σ}
    (fine : (s.writeArtifact m directory name v).2.2 = none) (same : t.files = s.files) :
    let path := FilePath.join (FilePath.join m.config.outputDir directory) (name ++ ".json")
    ∃ files, t.writeArtifact m directory name v = ({ t with files }, path, none) ∧
      s.files.Wrote path (Json.pretty v) files := by
  intro path
  simp only [MigrationState.writeArtifact, same] at fine ⊢
  split at fine
  · cases fine
  · rename_i made directories
    split at fine
    · cases fine
    · rename_i files writes
      have wrote := Files.wrote_of_write
        (fun _ _ => Files.at?_makeDirectories directories) writes
      exact ⟨files, rfl, wrote⟩

theorem files_read (s : MigrationState σ) (source : Source) :
    (m.read s source).1.files = s.files := by
  simp only [read]
  split
  · rfl
  · split
    · rfl
    · rfl

theorem files_readAll (sources : List Source) (s : MigrationState σ) :
    (m.readAll sources s).1.files = s.files := by
  induction sources generalizing s with
  | nil => rfl
  | cons source rest ih => exact (ih (m.read s source).1).trans (m.files_read s source)

theorem files_readAhead (s : MigrationState σ) (source : Source) (rest : List Source) :
    (m.readAhead s source rest).1.files = s.files :=
  (m.files_readAll _ _).trans (m.files_read s source)

theorem files_checkpoint (s : MigrationState σ) : (s.checkpoint m).1.files = s.files := by
  obtain ⟨run, control, changed, _⟩ := s.checkpoint_frame m
  rw [changed]

/-- A source that cannot be read leaves the files as they are. -/
theorem files_extractStep_error (source : Source) (e : ExtractionError) (s : MigrationState σ) :
    (m.extractStep source (.error e) s).1.files = s.files := by
  simp only [extractStep]
  split
  · exact m.files_checkpoint _
  · rfl

/-- What a source gave is written into the file of its key. -/
theorem extractStep_wrote {source : Source} {x : Extraction} {s : MigrationState σ}
    (saves : m.config.saveExtracted = true) (fine : m.saveError? source (.ok x) s = none) :
    s.files.Wrote (m.extractedPath source.key) (document x.records)
      (m.extractStep source (.ok x) s).1.files := by
  let opened := s.newStep m ("Extract " ++ source.entity ++ " from " ++ source.service)
    source.entity .extracting
  obtain ⟨files, writes, wrote⟩ := m.writeArtifact_wrote (t := opened.1) fine rfl
  have saved : (m.saveExtracted source x opened.1 (countExtraction x opened.2)).1.files = files := by
    simp only [saveExtracted, saves, if_true, writes]
  have ends : (m.extractStep source (.ok x) s).1.files =
      (m.saveExtracted source x opened.1 (countExtraction x opened.2)).1.files :=
    m.files_checkpoint _
  rw [ends, saved]
  exact wrote

/-! ## One source after the other -/

/-- Under the paths of the keys stand the records that were given last. -/
abbrev HoldsExtracted (fs : Files) (ys : List (Source × Extraction)) : Prop :=
  fs.HoldsLast (fun y : Source × Extraction => m.extractedPath y.1.key)
    (fun y => document y.2.records) ys

/-- The step of a source writes what the source gave, if it gave anything. -/
theorem holds_extractStep {source : Source} {x : Extracted} {s : MigrationState σ}
    {ys : List (Source × Extraction)} (saves : m.config.saveExtracted = true)
    (fine : m.saveError? source x s = none) (h : m.HoldsExtracted s.files ys) :
    m.HoldsExtracted (m.extractStep source x s).1.files (ys ++ taken [(source, x)]) := by
  cases x with
  | ok x => exact h.concat (m.extractStep_wrote saves fine)
  | error e =>
    rw [files_extractStep_error]
    exact (List.append_nil ys).symm ▸ h

/-- An extraction whose files are all written leaves in them what the sources gave last. -/
theorem holds_extractAll (saves : m.config.saveExtracted = true) (sources : List Source)
    (ahead : List Extracted) (s : MigrationState σ) (ys : List (Source × Extraction))
    (fine : m.saveErrors sources ahead s = []) (h : m.HoldsExtracted s.files ys) :
    m.HoldsExtracted (m.extractAll sources ahead s).1.files
      (ys ++ taken (m.yields sources ahead s)) := by
  induction sources generalizing ahead s ys with
  | nil => exact (List.append_nil ys).symm ▸ h
  | cons source rest ih =>
    have next : ∀ x ahead t, m.HoldsExtracted t.files ys →
        (m.saveError? source x t).toList ++
          (m.extractStep source x t).further (m.saveErrors rest ahead) = [] →
        m.HoldsExtracted ((m.extractStep source x t).andThen (m.extractAll rest ahead)).1.files
          (ys ++ taken ((source, x) :: (m.extractStep source x t).further (m.yields rest ahead))) := by
      intro x ahead t before fine
      obtain ⟨here, later⟩ := List.append_eq_nil_iff.1 fine
      have step := m.holds_extractStep saves (Option.toList_eq_nil_iff.1 here) before
      have split (zs : List (Source × Extracted)) :
          ys ++ taken ((source, x) :: zs) = ys ++ taken [(source, x)] ++ taken zs := by
        rw [List.append_assoc, taken, taken, taken, ← List.filterMap_append]
        rfl
      rw [split]
      revert step later
      generalize m.extractStep source x t = p
      obtain ⟨u, _ | e⟩ := p
      · exact fun later step => ih ahead u _ later step
      · exact fun _ step => (List.append_nil _).symm ▸ step
    cases ahead with
    | nil =>
      have same := m.files_readAhead s source rest
      exact next _ _ (m.readAhead s source rest).1 (same.symm ▸ h) fine
    | cons x ahead => exact next x ahead s h fine

/-! ## Which file belongs to a key -/

theorem slash_notMem_file {key : String} (plain : '/' ∉ key.toList) :
    '/' ∉ (key ++ ".json").toList := by
  rw [String.toList_append, List.mem_append]
  exact not_or.2 ⟨plain, by decide⟩

theorem extractedPath_eq {key : String} (plain : '/' ∉ key.toList) :
    m.extractedPath key =
      FilePath.join m.config.outputDir "extracted" ++ "/" ++ (key ++ ".json") := by
  let directory := FilePath.join m.config.outputDir "extracted"
  have below : directory ≠ "" ∧ Text.endsWith "/" directory = false :=
    FilePath.join_name (by decide) (by decide)
  exact FilePath.join_of_name below.1 below.2 (slash_notMem_file plain)

/-- The file of a key without slashes bears the name of the key. -/
theorem exists_place_extractedPath {fs : Files} {key : String} {found : List String}
    (plain : '/' ∉ key.toList) (leads : fs.place (m.extractedPath key) = .ok found) :
    ∃ above, found = above ++ [key ++ ".json"] := by
  have long : 5 ≤ (key ++ ".json").length := by
    rw [String.length_append]
    exact Nat.le_add_left 5 key.length
  have other : ∀ name : String, name.length < 5 → key ++ ".json" ≠ name := by
    rintro name short rfl
    exact Nat.lt_irrefl _ (Nat.lt_of_le_of_lt long short)
  rw [extractedPath_eq m plain] at leads
  exact Files.place_append (slash_notMem_file plain) (other _ (by decide)) (other _ (by decide))
    (other _ (by decide)) leads

/-- Keys without slashes have different files. -/
theorem key_of_same_place {fs : Files} {key key' : String} {found : List String}
    (plain : '/' ∉ key.toList) (plain' : '/' ∉ key'.toList)
    (leads : fs.place (m.extractedPath key) = .ok found)
    (leads' : fs.place (m.extractedPath key') = .ok found) : key = key' := by
  obtain ⟨above, rfl⟩ := m.exists_place_extractedPath plain leads
  obtain ⟨above', same⟩ := m.exists_place_extractedPath plain' leads'
  obtain ⟨_, names⟩ := List.append_inj' same rfl
  exact (String.append_left_inj _).1 (List.singleton_inj.1 names)

/-! ## The extraction phase of a run -/

/-- After an extraction phase whose files are all written, they hold what the sources gave last. -/
theorem holds_extracting {mapping : Mapping} {s : MigrationState σ}
    (saves : m.config.saveExtracted = true) (fine : m.unsaved mapping s = []) :
    m.HoldsExtracted (m.phase .extracting m.runExtraction (adopt mapping (m.fresh s))).1.files
      (taken (m.readings mapping s)) := by
  unfold unsaved at fine
  unfold readings phase
  revert fine
  generalize (adopt mapping (m.fresh s)).goTo m .extracting = p
  obtain ⟨t, _ | e⟩ := p
  · exact fun fine => m.holds_extractAll saves m.config.sources [] t [] fine (.nil t.files)
  · exact fun _ => .nil t.files

/-- What is kept under the key of a source is what was kept before, what the sources before it gave,
and what it gave itself, if the sources after it have other keys. -/
theorem held_extracting_of_last {mapping : Mapping} {s : MigrationState σ} {key : String}
    {before after : List (Source × Extraction)} {last : Source × Extraction}
    (whole : taken (m.readings mapping s) = before ++ last :: after) (own : last.1.key = key)
    (others : ∀ z ∈ after, z.1.key ≠ key) :
    (m.phase .extracting m.runExtraction (adopt mapping (m.fresh s))).1.held key =
      s.held key ++ (before.filter fun z => z.1.key == key).flatMap (fun z => z.2.records) ++
        last.2.records := by
  have none : (after.filter fun z => z.1.key == key) = [] :=
    List.filter_eq_nil_iff.2 fun z member => by simpa using others z member
  have one : ((last :: after).filter fun z => z.1.key == key) = [last] := by
    rw [List.filter_cons, if_pos (beq_iff_eq.2 own), none]
  rw [held_extracting, gathered_eq_taken, whole, List.filter_append, one, List.flatMap_append,
    List.flatMap_singleton, List.append_assoc]

/-- After the extraction phase of a run that saves what it extracts, the file of a key holds what was
written last to its place. Without slashes in the keys, that is what the last source with the key
gave. The file holds all that is kept under the key exactly if nothing was kept before the run and
the sources before gave nothing. -/
theorem extracted_file_complete_iff (mapping : Mapping) (s : MigrationState σ)
    (saves : m.config.saveExtracted = true) (fine : m.unsaved mapping s = []) :
    let t := (m.phase .extracting m.runExtraction (adopt mapping (m.fresh s))).1
    let ys := taken (m.readings mapping s)
    ∀ y ∈ ys, ∃ before last after,
      t.files.LastAt (fun z : Source × Extraction => m.extractedPath z.1.key) ys
        (m.extractedPath y.1.key) before last after ∧
      t.files.read (m.extractedPath y.1.key) = .ok (document last.2.records) ∧
      ((∀ z ∈ ys, '/' ∉ z.1.key.toList) → last.1.key = y.1.key) ∧
      (last.1.key = y.1.key →
        (t.files.read (m.extractedPath y.1.key) = .ok (document (t.held y.1.key)) ↔
          s.held y.1.key = [] ∧ ∀ z ∈ before, z.1.key = y.1.key → z.2.records = [])) := by
  intro t ys y member
  have holds := m.holds_extracting saves fine
  obtain ⟨before, last, after, at_, reads⟩ := holds y member
  refine ⟨before, last, after, at_, reads, fun plain => ?_, fun own => ?_⟩
  · obtain ⟨found, leads, _⟩ := Files.read_eq_ok_iff.1 reads
    have among : last ∈ taken (m.readings mapping s) := by
      rw [at_.whole]
      exact List.mem_append_right before List.mem_cons_self
    exact m.key_of_same_place (plain last among) (plain y member) (at_.here.trans leads) leads
  · have others : ∀ z ∈ after, z.1.key ≠ y.1.key := by
      intro z later same
      exact at_.later z later (congrArg (fun key => t.files.place (m.extractedPath key)) same)
    have held := m.held_extracting_of_last at_.whole own others
    have kept : t.held y.1.key = _ := held
    rw [reads, kept, Except.ok.injEq, eq_comm, document_append_eq_iff, List.append_eq_nil_iff,
      List.flatMap_eq_nil_iff]
    simp

/-- A migration that saves what it extracts from sources, each of which gives one record. -/
def archiveMigration (sources : List Source) : Migration Memory where
  config := { name := "archive", targetService := "crm", saveExtracted := true, sources }
  connectors := ({} : Connectors Memory).withExtractor .manual fun source =>
    .ok (.ofPayloads source ⟨0, 0⟩ [.obj [("id", .str source.name)]])
  now := ⟨0, 0⟩

/-- A source of the users of a shop. -/
def shopUsers (name : String) : Source := { Source.ofType .manual "shop" "user" with name }

/-- The users and the customers of a shop have files of their own, which are complete. -/
theorem archiveMigration_complete :
    let m := archiveMigration [shopUsers "north", .ofType .manual "shop" "customer"]
    let s := m.initial []
    let mapping : Mapping := { name := "archive" }
    let t := (m.phase .extracting m.runExtraction (adopt mapping (m.fresh s))).1
    m.config.saveExtracted = true ∧ m.unsaved mapping s = [] ∧
    (taken (m.readings mapping s)).map (fun y => y.1.key) = ["shop_user", "shop_customer"] ∧
    ∀ y ∈ taken (m.readings mapping s),
      t.files.read (m.extractedPath y.1.key) = .ok (document (t.held y.1.key)) := by
  intro m s mapping t
  have fine : m.unsaved mapping s = [] := by decide +kernel
  have keys : (taken (m.readings mapping s)).map (fun y => y.1.key) =
      ["shop_user", "shop_customer"] := by decide +kernel
  refine ⟨rfl, fine, keys, fun y member => ?_⟩
  obtain ⟨before, last, after, at_, _, plain, complete⟩ :=
    extracted_file_complete_iff m mapping s rfl fine y member
  have own : last.1.key = y.1.key := by
    refine plain fun z among => ?_
    have key : z.1.key ∈ ["shop_user", "shop_customer"] := keys ▸ List.mem_map_of_mem among
    revert key
    generalize z.1.key = k
    revert k
    decide
  refine (complete own).2 ⟨rfl, fun z earlier same => ?_⟩
  have apart : ((before ++ last :: after).map fun y => y.1.key).Nodup := by
    rw [← at_.whole, keys]
    decide
  rw [List.map_append, List.nodup_append] at apart
  exact absurd (same.trans own.symm)
    (apart.2.2 _ (List.mem_map_of_mem earlier) _ (List.mem_map_of_mem List.mem_cons_self))

/-- The file of the users holds those of the second source only, though all are kept in memory. -/
theorem archiveMigration_incomplete :
    let m := archiveMigration [shopUsers "north", shopUsers "south"]
    let s := m.initial []
    let mapping : Mapping := { name := "archive" }
    let t := (m.phase .extracting m.runExtraction (adopt mapping (m.fresh s))).1
    m.config.saveExtracted = true ∧ m.unsaved mapping s = [] ∧ s.held "shop_user" = [] ∧
    (taken (m.readings mapping s)).map (fun y => y.1.key) = ["shop_user", "shop_user"] ∧
    (t.held "shop_user").map SourceRecord.id = ["north", "south"] ∧
    t.files.read (m.extractedPath "shop_user") =
      .ok (document ((t.held "shop_user").drop 1)) ∧
    t.files.read (m.extractedPath "shop_user") ≠ .ok (document (t.held "shop_user")) := by
  decide +kernel

end Migration

end DataMigration
