import DataMigration.Migration.Run
import DataMigration.Proofs.Path.Bracketed

/-!
# Which records share an id

A record has the id that its payload carries, or else the digits of its position among all payloads
that the source was given, counted before any of them is left out. Carried ids and positions are
texts of one kind. So two records share their id when their payloads carry the same one, and also
when one payload carries the position of another that carries none; and never otherwise.
-/

namespace DataMigration

/-- Different numbers have different digits. -/
theorem natText_injective : Function.Injective natText := by
  intro a b same
  rw [← Decimal.value_natDigits a, ← Decimal.value_natDigits b, String.ofList_injective same]

/-- The payload has a value under `id` that is not null and reads so. -/
def CarriesId (payload : Value) (id : String) : Prop :=
  ∃ v, payload.member? "id" = some v ∧ v ≠ .null ∧ v.text = id

theorem payloadId?_eq_some_iff {payload : Value} {id : String} :
    payloadId? payload = some id ↔ CarriesId payload id := by
  simp only [payloadId?, Option.map_eq_some_iff, Value.present_eq_some_iff, CarriesId, and_assoc]

/-- Both payloads carry an id, and it is the same. -/
def SameId (p q : Value) : Prop := ∃ id, CarriesId p id ∧ CarriesId q id

/-- The first payload carries the position of the second one, which carries no id. -/
def NamesPosition (p q : Value × Nat) : Prop :=
  CarriesId p.1 (natText q.2) ∧ ¬ ∃ id, CarriesId q.1 id

namespace Source

variable (source : Source) (now : Calendar.Instant)

/-- What becomes of payloads that a source is given: in a file, of which it takes those that it asks
for, as values at hand, or added by hand. -/
inductive Gives (payloads : List Value) : List SourceRecord → Prop
  | file {path : String} {fs : Files} {e : Extractor} {x : Extraction}
      (placed : source.filePath = some path)
      (read : Extractor.readPayloads fs path = .ok payloads)
      (built : Extractor.ofFile source now = .ok e) (extracted : e.extract fs = .ok x) :
      Gives payloads x.records
  | values {fs : Files} {x : Extraction}
      (extracted : (Extractor.ofPayloads source now payloads).extract fs = .ok x) :
      Gives payloads x.records
  | byHand {σ : Type} (m : Migration σ) (s : MigrationState σ) (service entity : String)
      (own : source = Source.ofType .manual service entity) (clock : m.now = now) :
      Gives payloads ((m.addSourceData service entity payloads s).extractedRecords service entity)

variable {source now}

/-- Each record is that of a payload and its position, in their order. -/
theorem Gives.exists_taken {payloads : List Value} {records : List SourceRecord}
    (gives : source.Gives now payloads records) :
    ∃ taken : List (Value × Nat),
      taken.Sublist payloads.zipIdx ∧ records = taken.map (source.recordAt now) := by
  cases gives with
  | file placed read built extracted =>
    simp only [Extractor.ofFile, placed, Except.ok.injEq] at built
    subst built
    simp only [Extractor.readRecords, read, Except.map, Except.ok.injEq] at extracted
    subst extracted
    exact ⟨_, List.filter_sublist, rfl⟩
  | values extracted =>
    cases extracted
    exact ⟨_, List.Sublist.refl _, rfl⟩
  | byHand m s service entity own clock =>
    subst own clock
    refine ⟨_, List.Sublist.refl _, ?_⟩
    have kept : Dict.get? (m.addSourceData service entity payloads s).extracted
        (recordKey service entity) = some ((ofType .manual service entity).records m.now payloads) :=
      Dict.get?_insert_self _ _ _
    rw [MigrationState.extractedRecords, kept]
    rfl

/-- The records of payloads at two positions share their id in three cases only. -/
theorem recordAt_id_eq_iff {p q : Value × Nat} (apart : p.2 ≠ q.2) :
    (source.recordAt now p).id = (source.recordAt now q).id ↔
      SameId p.1 q.1 ∨ NamesPosition p q ∨ NamesPosition q p := by
  have id_eq : ∀ p : Value × Nat,
      (source.recordAt now p).id = (payloadId? p.1).getD (natText p.2) := fun _ => rfl
  simp only [id_eq, SameId, NamesPosition, ← payloadId?_eq_some_iff]
  cases payloadId? p.1 <;> cases payloadId? q.1
  · simpa using fun same => apart (natText_injective same)
  · simp [eq_comm]
  · simp
  · simp [eq_comm]

/-- Positions among the payloads are given out once. -/
theorem apart_of_sublist_zipIdx {payloads : List Value} {taken : List (Value × Nat)}
    (part : taken.Sublist payloads.zipIdx) : taken.Pairwise fun p q => p.2 ≠ q.2 := by
  have once : (payloads.zipIdx.map Prod.snd).Nodup := by
    rw [List.zipIdx_map_snd]
    exact List.nodup_range'
  exact List.Pairwise.sublist part (List.pairwise_map.1 once)

/-- Two records that a source gives share their id exactly if their payloads carry the same one, or
one payload carries the position of the other, which carries none. Where an entity mapping makes no
id of its own, target records made of them share their id exactly if they do. -/
theorem given_records_share_id_iff {payloads : List Value} {records : List SourceRecord}
    (gives : source.Gives now payloads records) :
    (∃ taken : List (Value × Nat),
      taken.Sublist payloads.zipIdx ∧ records = taken.map (source.recordAt now) ∧
      taken.Pairwise fun p q => (source.recordAt now p).id = (source.recordAt now q).id ↔
        SameId p.1 q.1 ∨ NamesPosition p q ∨ NamesPosition q p) ∧
    ∀ (em : EntityMapping) (tools : Toolbox), (∀ f ∈ em.fields, f.target ≠ "id") →
      records.Pairwise fun r r' =>
        em.targetId tools r (Payloads.ofRecords [r]) =
          em.targetId tools r' (Payloads.ofRecords [r']) ↔ r.id = r'.id := by
  obtain ⟨taken, part, rfl⟩ := gives.exists_taken
  refine ⟨⟨taken, part, rfl, ?_⟩, fun em tools without => ?_⟩
  · exact (apart_of_sublist_zipIdx part).imp recordAt_id_eq_iff
  · have none : (em.fields.find? fun f => f.target == "id") = none :=
      List.find?_eq_none.2 fun f member => by simpa using without f member
    have made : ∀ p, em.targetId tools (source.recordAt now p)
        (Payloads.ofRecords [source.recordAt now p]) =
          source.service ++ "_" ++ (source.recordAt now p).id := by
      intro p
      simp only [EntityMapping.targetId, none]
      rfl
    rw [List.pairwise_map]
    refine List.pairwise_of_forall fun p q => ?_
    rw [made, made]
    exact String.append_right_inj _

/-- Three users of a shop, the second of whom carries the position of the third as an id. -/
def signUps : List Value :=
  [.obj [("mail", .str "ann@x.org")], .obj [("id", .nat 2), ("mail", .str "bob@x.org")],
    .obj [("mail", .str "cid@x.org")]]

/-- The records of the users. -/
def signUpRecords : List SourceRecord := (ofType .manual "shop" "user").records ⟨0, 0⟩ signUps

/-- An entity mapping for the users that makes no id of its own. -/
def signUpMapping : EntityMapping where
  name := "contacts"
  source := ⟨"shop", "user"⟩
  target := ⟨"crm", "contact"⟩
  fields := [.copy "mail" "email"]

theorem signUps_targets :
    (ofType .manual "shop" "user").Gives ⟨0, 0⟩ signUps signUpRecords ∧
      (∀ f ∈ signUpMapping.fields, f.target ≠ "id") ∧
      signUpRecords.Pairwise fun r r' =>
        signUpMapping.targetId {} r (Payloads.ofRecords [r]) =
          signUpMapping.targetId {} r' (Payloads.ofRecords [r']) ↔ r.id = r'.id := by
  have extracted : (Extractor.ofPayloads (ofType .manual "shop" "user") ⟨0, 0⟩ signUps).extract {} =
      .ok (.ofRecords signUpRecords) := rfl
  have gives : (ofType .manual "shop" "user").Gives ⟨0, 0⟩ signUps signUpRecords :=
    .values extracted
  have without : ∀ f ∈ signUpMapping.fields, f.target ≠ "id" := by decide
  exact ⟨gives, without, (given_records_share_id_iff gives).2 signUpMapping {} without⟩

/-- The third user carries no id and takes that of the second one, and so do their target
records. -/
theorem signUps_share_id :
    signUpRecords.map SourceRecord.id = ["0", "2", "2"] ∧
      signUps.map payloadId? = [none, some "2", none] ∧
      signUpRecords.map (fun r => signUpMapping.targetId {} r (Payloads.ofRecords [r])) =
        ["shop_0", "shop_2", "shop_2"] := by
  decide

end Source

end DataMigration
