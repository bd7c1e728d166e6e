import DataMigration.Proofs.Migration.Flow
import DataMigration.Proofs.Migration.Loadable
import Mathlib.Data.List.Basic

/-!
# Whose records an entity mapping is fed

The records of an entity of a service are kept under the two names joined by an underscore. Where
the names have underscores of their own, several entities share a key, and what is kept for one of
them is kept for all. So an entity mapping is fed the records of its own source as long as nothing
was given for another entity with the same key; and names without underscores are the only ones
that share their key with nothing.
-/

namespace DataMigration

variable {σ : Type}

/-! ## Keys -/

namespace EntityRef

/-- The key under which the records of an entity are kept. -/
def key (r : EntityRef) : String := recordKey r.service r.entity

/-- The names do without the character that joins them in the key. -/
def Plain (r : EntityRef) : Prop := '_' ∉ r.service.toList ∧ '_' ∉ r.entity.toList

theorem key_toList (r : EntityRef) :
    r.key.toList = r.service.toList ++ '_' :: r.entity.toList := by
  simp [key, recordKey]

theorem key_eq_iff {a b : EntityRef} : a.key = b.key ↔
    a.service.toList ++ '_' :: a.entity.toList = b.service.toList ++ '_' :: b.entity.toList := by
  rw [← String.toList_inj, key_toList, key_toList]

/-- A plain entity shares its key with no other. -/
theorem Plain.eq_of_key_eq {a b : EntityRef} (plain : a.Plain) (same : b.key = a.key) : b = a := by
  have joined := key_eq_iff.1 same.symm
  obtain ⟨service, _, entity⟩ := (List.append_cons_inj_of_notMem plain.1 plain.2).1 joined
  exact (congrArg₂ mk (String.toList_inj.1 service) (String.toList_inj.1 entity)).symm

/-- Any other entity shares its key: an underscore in a name may as well be the joint. -/
theorem exists_ne_key_eq {a : EntityRef} (h : ¬ a.Plain) : ∃ b, b ≠ a ∧ b.key = a.key := by
  by_cases service : '_' ∈ a.service.toList
  · obtain ⟨front, back, cut⟩ := List.append_of_mem service
    refine ⟨⟨String.ofList front, String.ofList (back ++ '_' :: a.entity.toList)⟩, ?_, ?_⟩
    · intro same
      have shorter := congrArg (fun r : EntityRef => r.service.toList.length) same
      simp only [String.toList_ofList, cut, List.length_append, List.length_cons] at shorter
      omega
    · rw [key_eq_iff, cut]
      simp
  · have entity : '_' ∈ a.entity.toList := by
      by_contra absent
      exact h ⟨service, absent⟩
    obtain ⟨front, back, cut⟩ := List.append_of_mem entity
    refine ⟨⟨String.ofList (a.service.toList ++ '_' :: front), String.ofList back⟩, ?_, ?_⟩
    · intro same
      have shorter := congrArg (fun r : EntityRef => r.entity.toList.length) same
      simp only [String.toList_ofList, cut, List.length_append, List.length_cons] at shorter
      omega
    · rw [key_eq_iff, cut]
      simp

end EntityRef

/-! ## What was given for an entity -/

/-- The entity that a source is about. -/
def Source.origin (s : Source) : EntityRef := ⟨s.service, s.entity⟩

/-- The entity that a record names as its own. -/
def SourceRecord.origin (r : SourceRecord) : EntityRef := ⟨r.service, r.entity⟩

/-- Payloads that are added by hand for an entity. -/
structure Addition where
  origin : EntityRef
  payloads : List Value

namespace Migration

variable (m : Migration σ)

/-- The records of payloads that are added by hand. -/
def addedRecords (a : Addition) : List SourceRecord :=
  (Source.ofType .manual a.origin.service a.origin.entity).records m.now a.payloads

/-- The state after payloads were added by hand, one addition after the other. -/
def supplied (added : List Addition) (s : MigrationState σ) : MigrationState σ :=
  added.foldl (fun s a => m.addSourceData a.origin.service a.origin.entity a.payloads s) s

/-- The records of the last addition for the entities that are asked for, if there is one. -/
def lastAdded? (asked : EntityRef → Bool) (added : List Addition) : Option (List SourceRecord) :=
  (added.filter fun a => asked a.origin).getLast?.map m.addedRecords

/-- The records that were given for the entities that are asked for: what was added last, and what
their sources gave. -/
def given (asked : EntityRef → Bool) (added : List Addition) (ys : List (Source × Extracted)) :
    List SourceRecord :=
  (m.lastAdded? asked added).getD [] ++ gathered (fun source => asked source.origin) ys

/-- The records that were given for one entity. -/
def own (e : EntityRef) (added : List Addition) (ys : List (Source × Extracted)) :
    List SourceRecord := m.given (· == e) added ys

theorem held_supplied (added : List Addition) (s : MigrationState σ) (key : String) :
    (m.supplied added s).held key = (m.lastAdded? (·.key == key) added).getD (s.held key) := by
  induction added generalizing s with
  | nil => rfl
  | cons a rest ih =>
    have first : (m.addSourceData a.origin.service a.origin.entity a.payloads s).held key =
        if a.origin.key == key then m.addedRecords a else s.held key := by
      simp only [MigrationState.held, addSourceData, Dict.get?_insert, beq_iff_eq]
      by_cases same : a.origin.key = key
      · rw [if_pos same, if_pos (by exact same.symm)]
        rfl
      · rw [if_neg same, if_neg (by exact Ne.symm same)]
    have next : m.supplied (a :: rest) s =
        m.supplied rest (m.addSourceData a.origin.service a.origin.entity a.payloads s) := rfl
    rw [next, ih, first]
    simp only [lastAdded?, List.filter_cons]
    split
    · rw [List.getLast?_cons]
      cases (rest.filter fun a => a.origin.key == key).getLast? <;> rfl
    · rfl

/-- The last of several additions is also the last one for its own entity. -/
theorem mem_lastAdded? {asked : EntityRef → Bool} {added : List Addition} {r : SourceRecord}
    (member : r ∈ (m.lastAdded? asked added).getD []) :
    ∃ a, asked a.origin = true ∧ r ∈ m.addedRecords a ∧
      m.lastAdded? (· == a.origin) added = some (m.addedRecords a) := by
  unfold lastAdded? at member
  cases last : (added.filter fun a => asked a.origin).getLast? with
  | none =>
    rw [last] at member
    cases member
  | some a =>
    rw [last] at member
    obtain ⟨before, ends⟩ := List.getLast?_eq_some_iff.1 last
    have inside : a ∈ added.filter fun a => asked a.origin := by
      rw [ends]
      exact List.mem_append_right _ List.mem_cons_self
    have chosen := (List.mem_filter.1 inside).2
    have fewer : added.filter (fun b => b.origin == a.origin) =
        (added.filter fun a => asked a.origin).filter fun b => b.origin == a.origin := by
      rw [List.filter_filter]
      refine List.filter_congr fun b _ => ?_
      cases same : b.origin == a.origin with
      | false => rfl
      | true => rw [beq_iff_eq.1 same, chosen, Bool.and_self]
    have itself : [a].filter (fun b => b.origin == a.origin) = [a] := by simp
    refine ⟨a, chosen, member, ?_⟩
    rw [lastAdded?, fewer, ends, List.filter_append, itself, List.getLast?_concat]
    rfl

/-- Records that were given for some entities were given for one of them. -/
theorem mem_own_of_mem_given {asked : EntityRef → Bool} {added : List Addition}
    {ys : List (Source × Extracted)} {r : SourceRecord} (member : r ∈ m.given asked added ys) :
    ∃ e, asked e = true ∧ r ∈ m.own e added ys := by
  obtain byHand | bySource := List.mem_append.1 member
  · obtain ⟨a, chosen, inside, alone⟩ := m.mem_lastAdded? byHand
    refine ⟨a.origin, chosen, List.mem_append_left _ ?_⟩
    rw [alone]
    exact inside
  · obtain ⟨y, inside, gives⟩ := List.mem_flatMap.1 bySource
    obtain ⟨present, chosen⟩ := List.mem_filter.1 inside
    refine ⟨y.1.origin, chosen, List.mem_append_right _ ?_⟩
    exact List.mem_flatMap.2 ⟨y, List.mem_filter.2 ⟨present, beq_self_eq_true _⟩, gives⟩

theorem given_congr {asked asked' : EntityRef → Bool} {added : List Addition}
    {ys : List (Source × Extracted)} (additions : ∀ a ∈ added, asked a.origin = asked' a.origin)
    (sources : ∀ y ∈ ys, asked y.1.origin = asked' y.1.origin) :
    m.given asked added ys = m.given asked' added ys := by
  rw [given, given, lastAdded?, lastAdded?, gathered, gathered, List.filter_congr additions,
    List.filter_congr sources]

/-- What was given under the key of an entity was given for it when no other has its key. -/
theorem given_key_eq_own {e : EntityRef} {added : List Addition} {ys : List (Source × Extracted)}
    (alone : ∀ e' ∈ added.map Addition.origin ++ ys.map (fun y => y.1.origin),
      e'.key = e.key → e' = e) :
    m.given (·.key == e.key) added ys = m.own e added ys := by
  have same : ∀ e' ∈ added.map Addition.origin ++ ys.map (fun y => y.1.origin),
      (e'.key == e.key) = (e' == e) := by
    intro e' member
    rw [Bool.eq_iff_iff, beq_iff_eq, beq_iff_eq]
    exact ⟨alone e' member, congrArg EntityRef.key⟩
  refine m.given_congr (fun a member => same _ ?_) (fun y member => same _ ?_)
  · exact List.mem_append_left _ (List.mem_map_of_mem member)
  · exact List.mem_append_right _ (List.mem_map_of_mem member)

/-- Every source gives records that name it as their own. -/
def Honest (ys : List (Source × Extracted)) : Prop :=
  ∀ y ∈ ys, ∀ r ∈ gave y.2, r.origin = y.1.origin

instance (ys : List (Source × Extracted)) : Decidable (Honest ys) :=
  inferInstanceAs (Decidable (∀ y ∈ ys, ∀ r ∈ gave y.2, r.origin = y.1.origin))

theorem origin_of_mem_own {e : EntityRef} {added : List Addition}
    {ys : List (Source × Extracted)} (honest : Honest ys) {r : SourceRecord}
    (member : r ∈ m.own e added ys) : r.origin = e := by
  obtain byHand | bySource := List.mem_append.1 member
  · obtain ⟨a, chosen, inside, _⟩ := m.mem_lastAdded? byHand
    obtain ⟨p, _, rfl⟩ := List.mem_map.1 inside
    exact beq_iff_eq.1 chosen
  · obtain ⟨y, inside, gives⟩ := List.mem_flatMap.1 bySource
    obtain ⟨present, chosen⟩ := List.mem_filter.1 inside
    exact (honest y present r gives).trans (beq_iff_eq.1 chosen)

/-- What is given under a key was always given for the entity itself if and only if all entities
with records are plain. -/
theorem given_key_eq_own_iff {added : List Addition} {ys : List (Source × Extracted)}
    (honest : Honest ys) :
    (∀ e : EntityRef, m.given (·.key == e.key) added ys = m.own e added ys) ↔
      ∀ e, m.own e added ys ≠ [] → e.Plain := by
  constructor
  · intro kept e some
    by_contra unplain
    obtain ⟨e', other, same⟩ := EntityRef.exists_ne_key_eq unplain
    have both : m.own e' added ys = m.own e added ys := by
      rw [← kept e', ← kept e, same]
    obtain ⟨r, member⟩ := List.exists_mem_of_ne_nil _ some
    have here := m.origin_of_mem_own honest member
    rw [← both] at member
    exact other ((m.origin_of_mem_own honest member).symm.trans here)
  · intro plain e
    by_cases alone : ∀ e', e'.key = e.key → e' = e
    · exact m.given_key_eq_own fun e' _ => alone e'
    · -- the key is shared, so none of those who share it has any records
      push Not at alone
      obtain ⟨e', same, other⟩ := alone
      have nobody : ∀ o : EntityRef, o.key = e.key → ¬ o.Plain := by
        intro o shared plain
        have first := plain.eq_of_key_eq shared.symm
        exact other ((plain.eq_of_key_eq (same.trans shared.symm)).trans first.symm)
      have none : m.given (·.key == e.key) added ys = [] := by
        refine List.eq_nil_iff_forall_not_mem.2 fun r member => ?_
        obtain ⟨o, shared, has⟩ := m.mem_own_of_mem_given member
        exact nobody o (beq_iff_eq.1 shared) (plain o (List.ne_nil_of_mem has))
      have nothing : m.own e added ys = [] := by
        by_contra some
        exact nobody e rfl (plain e some)
      rw [none, nothing]

/-- An entity mapping is fed what was given under the key of its source: by hand before the run,
and by the sources of the run. That was all given for its source if no other entity has the key.
Every entity mapping is fed the records of its own source if and only if no entity with records has
an underscore in its names. -/
theorem fed_own_iff (m : Migration σ) {s t : MigrationState σ} (added : List Addition)
    (mapping : Mapping) (empty : s.extracted = [])
    (begun : m.beginTransforming mapping (m.supplied added s) = (t, none)) :
    let ys := m.readings mapping (m.supplied added s)
    let feeds := m.fed (m.toolbox (some mapping)) mapping.entities t
    (∀ p ∈ feeds, p.2 = m.given (·.key == p.1.source.key) added ys) ∧
    (∀ p ∈ feeds, (∀ e ∈ added.map Addition.origin ++ ys.map (fun y => y.1.origin),
      e.key = p.1.source.key → e = p.1.source) → p.2 = m.own p.1.source added ys) ∧
    (Honest ys →
      ((∀ em, m.fed (m.toolbox (some mapping)) [em] t = [(em, m.own em.source added ys)]) ↔
        ∀ e, m.own e added ys ≠ [] → e.Plain)) := by
  intro ys feeds
  have held (e : EntityRef) :
      t.extractedRecords e.service e.entity = m.given (·.key == e.key) added ys := by
    have kept : t.held e.key = _ := m.held_beginTransforming begun e.key
    have before := m.held_supplied added s e.key
    have none : s.held e.key = [] := by rw [MigrationState.held, empty]; rfl
    rw [before, none] at kept
    exact kept
  have fed : ∀ p ∈ feeds, p.2 = m.given (·.key == p.1.source.key) added ys :=
    fun p member => (m.records_of_mem_fed member).trans (held p.1.source)
  refine ⟨fed, fun p member alone => (fed p member).trans (m.given_key_eq_own alone), ?_⟩
  intro honest
  rw [← m.given_key_eq_own_iff honest]
  constructor
  · intro all e
    have one := all { name := "", source := e, target := e }
    rw [fed_singleton] at one
    exact (held e).symm.trans (congrArg Prod.snd (List.cons.inj one).1)
  · intro all em
    rw [fed_singleton, held em.source, all em.source]

/-- The users of the European branch of a shop are read and become contacts. -/
def branchMigration : Migration Memory where
  config := {
    name := "branches"
    targetService := "crm"
    sources := [.ofType .manual "shop_eu" "user"] }
  connectors := (({} : Connectors Memory).withLoader "crm" fun _ => .ok (Memory.loader "crm"))
    |>.withExtractor .manual fun source =>
      .ok (.ofPayloads source ⟨0, 0⟩ [.obj [("id", .str "7"), ("mail", .str "bea@x.org")]])
  now := ⟨0, 0⟩

/-- A mapping of one entity to the contacts. -/
def branchMapping (service entity : String) : Mapping where
  name := "branches"
  entities := [
    { name := "users", source := ⟨service, entity⟩, target := ⟨"crm", "contact"⟩
      fields := [.copy "mail" "email"] }]

/-- A customer of the shop itself, who is added by hand. -/
def branchAddition : Addition where
  origin := ⟨"shop", "customer"⟩
  payloads := [.obj [("id", .str "1"), ("mail", .str "ann@x.org")]]

/-- The mapping of the users of the branch is fed those users, but not every mapping would be fed
its own records. -/
theorem branchMigration_fed_own :
    let s := branchMigration.supplied [branchAddition] (branchMigration.initial [])
    let mapping := branchMapping "shop_eu" "user"
    let t := (branchMigration.beginTransforming mapping s).1
    let ys := branchMigration.readings mapping s
    let tools := branchMigration.toolbox (some mapping)
    (branchMigration.beginTransforming mapping s).2 = none ∧ Honest ys ∧
    (∀ p ∈ branchMigration.fed tools mapping.entities t,
      p.2 = branchMigration.own p.1.source [branchAddition] ys ∧ p.2.length = 1) ∧
    ¬ ∀ em, branchMigration.fed tools [em] t =
      [(em, branchMigration.own em.source [branchAddition] ys)] := by
  intro s mapping t ys tools
  have through : (branchMigration.beginTransforming mapping s).2 = none := rfl
  have fed := fed_own_iff branchMigration [branchAddition] mapping
    (s := branchMigration.initial []) (t := t) rfl (Prod.ext rfl through)
  have honest : Honest ys := by decide +kernel
  refine ⟨through, honest, fun p member => ⟨fed.2.1 p member ?_, ?_⟩, fun every => ?_⟩
  · revert p member
    decide +kernel
  · revert p member
    decide +kernel
  · have plain := (fed.2.2 honest).1 every ⟨"shop_eu", "user"⟩ (by decide +kernel)
    exact plain.1 (by decide +kernel)

/-- A mapping of the entity `eu_user` of the shop is fed the users of its European branch, though
nothing was given for it. -/
theorem branchMapping_fed_users_of_branch :
    let s := branchMigration.initial []
    let mapping := branchMapping "shop" "eu_user"
    let begun := branchMigration.beginTransforming mapping s
    begun.2 = none ∧
    (branchMigration.fed (branchMigration.toolbox (some mapping)) mapping.entities begun.1).map
        (fun p => p.2.map SourceRecord.origin) = [[⟨"shop_eu", "user"⟩]] ∧
    branchMigration.own ⟨"shop", "eu_user"⟩ [] (branchMigration.readings mapping s) = [] := by
  refine ⟨rfl, by decide +kernel, by decide +kernel⟩

end Migration

end DataMigration
