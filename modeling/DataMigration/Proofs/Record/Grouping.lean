import DataMigration.Proofs.Record.Distinct
import Mathlib.Data.List.Forall2
import Mathlib.Data.List.Induction

/-!
# Merging groups the records

Duplicates are merged one after the other, as they come in, but what comes out can be read off the
groups of records with one key. A group stands where its first record stood. Its survivor is the
first record of the preferred source, or else its first record, and the survivor takes over from the
others in their order, whether they came before it or after it.
-/

namespace DataMigration

namespace TargetRecord

/-! ## What a group becomes -/

/-- The entry of the metadata under a key. -/
def metadata? (r : TargetRecord) (k : String) : Option Value :=
  (Dict.get? r.data metadataField).bind fun v => v.member? k

/-- The record has metadata. -/
def hasMetadata (r : TargetRecord) : Bool := (Dict.get? r.data metadataField).isSome

/-- The metadata, where there are any, are an object. -/
def PlainMetadata (r : TargetRecord) : Prop :=
  ∀ v ∈ Dict.get? r.data metadataField, v.asFields?.isSome = true

instance (r : TargetRecord) : Decidable r.PlainMetadata :=
  inferInstanceAs (Decidable (∀ v ∈ Dict.get? r.data metadataField, _))

/-- There is a preferred source, and the record is from it. -/
def isPreferred (preferred : String) (r : TargetRecord) : Bool :=
  preferred != "" && r.isFrom preferred

/-- Which record of a group survives, and which others there are. -/
inductive Survivor (preferred : String) :
    List TargetRecord → TargetRecord → List TargetRecord → Prop
  /-- The first one of the preferred source. -/
  | preferred {before after : List TargetRecord} {r : TargetRecord}
      (own : r.isPreferred preferred = true)
      (first : ∀ b ∈ before, b.isPreferred preferred = false) :
      Survivor preferred (before ++ r :: after) r (before ++ after)
  /-- The first one, where none is of the preferred source. -/
  | first {r : TargetRecord} {others : List TargetRecord}
      (absent : ∀ b ∈ r :: others, b.isPreferred preferred = false) :
      Survivor preferred (r :: others) r others

/-- A survivor with what it took over from others. Its own metadata come first, then those of the
others in their order; its source references are followed by those of the others that are new. -/
structure TakesOver (own : TargetRecord) (others : List TargetRecord) (r : TargetRecord) :
    Prop where
  unchanged : r = { own with data := r.data, sources := r.sources }
  fields : ∀ k, k ≠ metadataField → Dict.get? r.data k = Dict.get? own.data k
  plain : r.PlainMetadata
  present : r.hasMetadata = (own :: others).any hasMetadata
  metadata : ∀ k, r.metadata? k = (own :: others).findSome? fun other => other.metadata? k
  sources : r.sources =
    own.sources ++ ((others.flatMap TargetRecord.sources).removeAll own.sources).eraseDups

/-! ## The references and the metadata of several records -/

theorem mergedSources_append (own new later : List SourceRef) :
    mergedSources own (new ++ later) = mergedSources (mergedSources own new) later :=
  List.foldl_append

/-- The references that are added are the new ones, each once. -/
theorem mergedSources_eq (own new : List SourceRef) :
    mergedSources own new = own ++ (new.removeAll own).eraseDups := by
  induction new using List.reverseRecOn with
  | nil => exact (List.append_nil own).symm
  | append_singleton new s ih =>
    have both : (new ++ [s]).removeAll own = new.removeAll own ++ [s].removeAll own :=
      List.filter_append new [s]
    have last : mergedSources own (new ++ [s]) =
        if (mergedSources own new).contains s then mergedSources own new
        else mergedSources own new ++ [s] := mergedSources_append own new [s]
    rw [last, ih, both, List.eraseDups_append, ← List.append_assoc]
    by_cases known : s ∈ own
    · simp [known, List.cons_removeAll]
    · by_cases earlier : s ∈ new
      · simp [known, earlier, List.removeAll]
      · simp [known, earlier, List.removeAll, List.eraseDups_cons]

theorem mem_mergedSources {own new : List SourceRef} {s : SourceRef} :
    s ∈ mergedSources own new ↔ s ∈ own ∨ s ∈ new := by
  rw [mergedSources_eq, List.mem_append, List.mem_eraseDups]
  by_cases known : s ∈ own <;> simp [known, List.removeAll]

/-- References may be taken over together with those that their record took over before. -/
theorem mergedSources_mergedSources (own new later : List SourceRef) :
    mergedSources own (mergedSources new later) = mergedSources own (new ++ later) := by
  induction later using List.reverseRecOn with
  | nil => rw [List.append_nil]; rfl
  | append_singleton later s ih =>
    rw [mergedSources_append, ← List.append_assoc, mergedSources_append, ← ih]
    have one : ∀ refs, mergedSources refs [s] =
        if refs.contains s then refs else refs ++ [s] := fun _ => rfl
    rw [one (mergedSources new later), one (mergedSources own _)]
    split
    · rename_i known
      have taken : s ∈ mergedSources own (mergedSources new later) :=
        mem_mergedSources.2 (.inr (List.contains_iff_mem.1 known))
      rw [if_pos (List.contains_iff_mem.2 taken)]
    · rw [mergedSources_append]
      exact one _

theorem PlainMetadata.cases {r : TargetRecord} (plain : r.PlainMetadata) :
    Dict.get? r.data metadataField = none ∨
      ∃ entries, Dict.get? r.data metadataField = some (.obj entries) := by
  cases there : Dict.get? r.data metadataField with
  | none => exact .inl rfl
  | some v =>
    obtain ⟨entries, object⟩ := Option.isSome_iff_exists.1 (plain v there)
    cases v with
    | obj fields => exact .inr ⟨fields, rfl⟩
    | _ => cases object

/-- Metadata that are objects are joined entry by entry. -/
theorem metadata?_absorb {winner loser : TargetRecord} (own : winner.PlainMetadata)
    (other : loser.PlainMetadata) :
    (winner.absorb loser).PlainMetadata ∧
      (winner.absorb loser).hasMetadata = (winner.hasMetadata || loser.hasMetadata) ∧
      ∀ k, (winner.absorb loser).metadata? k = (winner.metadata? k).or (loser.metadata? k) := by
  have data : (winner.absorb loser).data = mergedData winner.data loser.data := rfl
  unfold PlainMetadata hasMetadata metadata?
  rw [data]
  unfold mergedData
  obtain nothing | ⟨new, theirs⟩ := other.cases
  · simp only [nothing, Option.isSome_none, Bool.or_false, Option.bind_none, Option.or_none,
      implies_true, and_true]
    exact own
  · obtain nothing | ⟨old, ours⟩ := own.cases
    · simp [nothing, theirs, Dict.get?_insert_self, Value.asFields?]
    · simp [ours, theirs, Dict.get?_insert_self, Value.asFields?, Value.member?, get?_fillIn]

/-! ## One record more in a group -/

section

variable {preferred field : String} {own r kept : TargetRecord} {group others rs : List TargetRecord}

/-- One that comes later takes the place of a survivor only where it alone is preferred. -/
theorem mergePair_eq (preferred : String) (earlier later : TargetRecord) :
    mergePair preferred earlier later =
      if later.isPreferred preferred && !earlier.isPreferred preferred then later.absorb earlier
      else earlier.absorb later := by
  unfold mergePair isPreferred
  by_cases given : preferred = "" <;> simp [given]

theorem Survivor.mem (survivor : Survivor preferred group own others) : own ∈ group := by
  cases survivor with
  | preferred => exact List.mem_append_right _ List.mem_cons_self
  | first => exact List.mem_cons_self

theorem TakesOver.self (plain : r.PlainMetadata) : TakesOver r [] r where
  unchanged := rfl
  fields _ _ := rfl
  plain := plain
  present := by simp
  metadata k := by cases h : r.metadata? k <;> simp [h]
  sources := (List.append_nil _).symm

theorem TakesOver.sources_eq (takes : TakesOver own others kept) :
    kept.sources = mergedSources own.sources (others.flatMap TargetRecord.sources) :=
  takes.sources.trans (mergedSources_eq _ _).symm

/-- What a survivor has of its own it keeps, whatever else it takes over. -/
theorem TakesOver.isPreferred_eq (takes : TakesOver own others kept) (sourced : own.sources ≠ []) :
    kept.isPreferred preferred = own.isPreferred preferred := by
  obtain ⟨s, refs, first⟩ := List.exists_cons_of_ne_nil sourced
  simp only [isPreferred, isFrom, primaryService?, takes.sources, first, List.cons_append,
    List.head?_cons]

/-- A survivor takes over from a record that comes later. -/
theorem TakesOver.later (takes : TakesOver own others kept) (plain : r.PlainMetadata) :
    TakesOver own (others ++ [r]) (kept.absorb r) := by
  obtain ⟨object, present, entries⟩ := metadata?_absorb takes.plain plain
  have sources : (kept.absorb r).sources = mergedSources kept.sources r.sources := rfl
  constructor
  · rw [takes.unchanged]
    rfl
  · intro k other
    exact (get?_mergedData_of_ne _ _ other).trans (takes.fields k other)
  · exact object
  · rw [present, takes.present, ← List.cons_append, List.any_append]
    simp
  · intro k
    rw [entries, takes.metadata, ← List.cons_append, List.findSome?_append]
    simp
  · rw [sources, takes.sources_eq, ← mergedSources_append, mergedSources_eq, List.flatMap_append]
    simp

/-- A record that comes later takes over from a survivor what that one took over. -/
theorem TakesOver.replaced (takes : TakesOver own others kept) (plain : r.PlainMetadata) :
    TakesOver r (own :: others) (r.absorb kept) := by
  obtain ⟨object, present, entries⟩ := metadata?_absorb plain takes.plain
  have sources : (r.absorb kept).sources = mergedSources r.sources kept.sources := rfl
  constructor
  · rfl
  · intro k other
    exact get?_mergedData_of_ne _ _ other
  · exact object
  · rw [present, takes.present, List.any_cons (a := r)]
  · intro k
    rw [entries, takes.metadata, List.findSome?_cons (a := r)]
    cases r.metadata? k <;> rfl
  · rw [sources, takes.sources_eq, mergedSources_mergedSources, mergedSources_eq,
      List.flatMap_cons]

/-- The survivor of a group with one record more. -/
theorem Survivor.concat (survivor : Survivor preferred group own others)
    (takes : TakesOver own others kept) (sourced : own.sources ≠ []) (plain : r.PlainMetadata) :
    ∃ own' others', Survivor preferred (group ++ [r]) own' others' ∧
      TakesOver own' others' (mergePair preferred kept r) := by
  rw [mergePair_eq, takes.isPreferred_eq sourced]
  cases survivor with
  | @preferred before after _ chosen first =>
    rw [chosen, Bool.not_true, Bool.and_false, if_neg Bool.false_ne_true]
    refine ⟨own, _, ?_, takes.later plain⟩
    rw [List.append_assoc, List.append_assoc, List.cons_append]
    exact .preferred chosen first
  | first absent =>
    rw [absent own List.mem_cons_self, Bool.not_false, Bool.and_true]
    cases chosen : r.isPreferred preferred with
    | true =>
      refine ⟨r, own :: others, ?_, takes.replaced plain⟩
      have last : Survivor preferred (own :: others ++ [r]) r (own :: others ++ []) :=
        .preferred chosen absent
      rwa [List.append_nil] at last
    | false =>
      refine ⟨own, others ++ [r], .first ?_, takes.later plain⟩
      exact List.forall_mem_append.2 ⟨absent, List.forall_mem_singleton.2 chosen⟩

/-! ## The groups in the order of their first records -/

/-- The two records have one key. -/
def isDuplicate (field : String) (r r' : TargetRecord) : Bool :=
  (r.key? field).isSome && r.key? field == r'.key? field

/-- The records with a key. -/
def withKey (field key : String) (rs : List TargetRecord) : List TargetRecord :=
  rs.filter fun r => r.key? field == some key

/-- What stands where the first record of a group stood. A record without a key is left alone. -/
def StandsFor (field preferred : String) (rs : List TargetRecord) (r kept : TargetRecord) : Prop :=
  match r.key? field with
  | none => kept = r
  | some key => ∃ own others, Survivor preferred (withKey field key rs) own others ∧
      TakesOver own others kept

theorem eraseDupsBy_concat {α : Type} (same : α → α → Bool) (xs : List α) (x : α) :
    (xs ++ [x]).eraseDupsBy same =
      if (xs.eraseDupsBy same).any (same x) then xs.eraseDupsBy same
      else xs.eraseDupsBy same ++ [x] := by
  have entered : ∀ (xs seen : List α), List.eraseDupsBy.loop same (xs ++ [x]) seen =
      if (List.eraseDupsBy.loop same xs seen).any (same x) then List.eraseDupsBy.loop same xs seen
      else List.eraseDupsBy.loop same xs seen ++ [x] := by
    intro xs
    induction xs with
    | nil =>
      intro seen
      simp only [List.nil_append, List.eraseDupsBy.loop, List.any_reverse]
      cases seen.any (same x) <;> simp
    | cons y xs ih =>
      intro seen
      obtain found | found := Bool.eq_false_or_eq_true (seen.any (same y))
      · simp only [List.cons_append, List.eraseDupsBy.loop, found]
        exact ih seen
      · simp only [List.cons_append, List.eraseDupsBy.loop, found]
        exact ih (y :: seen)
  exact entered xs []

theorem withKey_concat (key : String) :
    withKey field key (rs ++ [r]) =
      if r.key? field = some key then withKey field key rs ++ [r] else withKey field key rs := by
  unfold withKey
  rw [List.filter_append, List.filter_cons, List.filter_nil]
  by_cases same : r.key? field = some key <;> simp [same]

/-- The key of every record is the key of the first record of a group. -/
theorem exists_first_of_mem {key : String} (member : r ∈ rs) (keyed : r.key? field = some key) :
    ∃ first ∈ rs.eraseDupsBy (isDuplicate field), first.key? field = some key := by
  induction rs using List.reverseRecOn with
  | nil => nomatch member
  | append_singleton rs r' ih =>
    rw [eraseDupsBy_concat]
    obtain old | new := List.mem_append.1 member
    · obtain ⟨first, there, same⟩ := ih old
      split
      · exact ⟨first, there, same⟩
      · exact ⟨first, List.mem_append_left _ there, same⟩
    · cases List.mem_singleton.1 new
      split
      · rename_i known
        obtain ⟨first, there, same⟩ := List.any_eq_true.1 known
        have alike := (Bool.and_eq_true_iff.1 same).2
        exact ⟨first, there, (beq_iff_eq.1 alike).symm.trans keyed⟩
      · exact ⟨r, List.mem_append_right _ List.mem_cons_self, keyed⟩

section

variable {first : TargetRecord} {key : String}

/-- A record leaves the groups of other keys as they are. -/
theorem StandsFor.concat_of_ne (stands : StandsFor field preferred rs first kept)
    (other : ∀ key, first.key? field = some key → r.key? field ≠ some key) :
    StandsFor field preferred (rs ++ [r]) first kept := by
  unfold StandsFor at stands ⊢
  cases keyed : first.key? field with
  | none => rwa [keyed] at stands
  | some key =>
    rw [keyed] at stands
    simpa only [withKey_concat, if_neg (other key keyed)] using stands

/-- A record is merged with what stands for the group of its key. -/
theorem StandsFor.concat_of_eq (stands : StandsFor field preferred rs first kept)
    (opened : first.key? field = some key) (keyed : r.key? field = some key)
    (sourced : ∀ r ∈ rs, r.sources ≠ []) (plain : r.PlainMetadata) :
    StandsFor field preferred (rs ++ [r]) first (mergePair preferred kept r) := by
  simp only [StandsFor, opened, withKey_concat, keyed, if_true] at stands ⊢
  obtain ⟨own, others, survivor, takes⟩ := stands
  exact survivor.concat takes (sourced own (List.mem_of_mem_filter survivor.mem)) plain

/-- A record whose key is new stands for itself. -/
theorem StandsFor.self (plain : r.PlainMetadata)
    (fresh : ∀ key, r.key? field = some key → withKey field key rs = []) :
    StandsFor field preferred (rs ++ [r]) r r := by
  unfold StandsFor
  cases keyed : r.key? field with
  | none => rfl
  | some key =>
    simp only [withKey_concat, keyed, if_true, fresh key keyed, List.nil_append]
    refine ⟨r, [], ?_, .self plain⟩
    cases chosen : r.isPreferred preferred with
    | true =>
      have alone : Survivor preferred ([] ++ [r]) r ([] ++ []) :=
        .preferred chosen (List.forall_mem_nil _)
      exact alone
    | false => exact .first (List.forall_mem_singleton.2 chosen)

end

/-- The records that are kept stand for the groups, in the order of their first records. -/
def Grouped (field preferred : String) (rs : List TargetRecord)
    (kept : List (Option String × TargetRecord)) : Prop :=
  List.Forall₂ (fun first e => e.1 = first.key? field ∧ StandsFor field preferred rs first e.2)
    (rs.eraseDupsBy (isDuplicate field)) kept

section

variable {entries : List (Option String × TargetRecord)}

theorem Grouped.kept_iff (grouped : Grouped field preferred rs entries) (key : String) :
    (∃ e ∈ entries, e.1 = some key) ↔
      ∃ first ∈ rs.eraseDupsBy (isDuplicate field), first.key? field = some key := by
  have keys : (rs.eraseDupsBy (isDuplicate field)).map (·.key? field) = entries.map Prod.fst :=
    List.forall₂_eq_eq_eq ▸ List.forall₂_map_left_iff.2
      (List.forall₂_map_right_iff.2 (List.Forall₂.imp (fun _ _ both => both.1.symm) grouped))
  rw [← List.mem_map, ← keys, List.mem_map]

/-- Where the group is there already, only what stands for it changes. -/
theorem Grouped.merged {key : String} (grouped : Grouped field preferred rs entries)
    (keyed : r.key? field = some key) (entered : ∃ e ∈ entries, e.1 = some key)
    (sourced : ∀ r ∈ rs, r.sources ≠ []) (plain : r.PlainMetadata) :
    Grouped field preferred (rs ++ [r])
      (entries.map fun e =>
        if e.1 == some key then (some key, mergePair preferred e.2 r) else e) := by
  obtain ⟨opener, opens, same⟩ := (grouped.kept_iff key).1 entered
  have known : isDuplicate field r opener = true := by simp [isDuplicate, keyed, same]
  unfold Grouped at grouped ⊢
  rw [eraseDupsBy_concat, if_pos (List.any_eq_true.2 ⟨opener, opens, known⟩)]
  refine List.forall₂_map_right_iff.2 (grouped.imp fun first e both => ?_)
  obtain ⟨own, stands⟩ := both
  by_cases same : e.1 = some key
  · have opened : first.key? field = some key := own.symm.trans same
    simp only [same, beq_self_eq_true, if_true, opened, true_and]
    exact stands.concat_of_eq opened keyed sourced plain
  · rw [if_neg fun under => same (beq_iff_eq.1 under)]
    refine ⟨own, stands.concat_of_ne fun other opened keyed' => same ?_⟩
    exact own.trans (opened.trans (keyed'.symm.trans keyed))

/-- Where there is no such group yet, the record is the first of its own. -/
theorem Grouped.added (grouped : Grouped field preferred rs entries)
    (unseen : ∀ key, r.key? field = some key → ∀ e ∈ entries, e.1 ≠ some key)
    (plain : r.PlainMetadata) :
    Grouped field preferred (rs ++ [r]) (entries ++ [(r.key? field, r)]) := by
  have new : ∀ key, r.key? field = some key →
      ¬∃ first ∈ rs.eraseDupsBy (isDuplicate field), first.key? field = some key :=
    fun key keyed opened =>
      have ⟨e, entered, under⟩ := (grouped.kept_iff key).2 opened
      unseen key keyed e entered under
  have fresh : ∀ key, r.key? field = some key → withKey field key rs = [] :=
    fun key keyed => List.filter_eq_nil_iff.2 fun r' member same =>
      new key keyed (exists_first_of_mem member (beq_iff_eq.1 same))
  have unknown : ¬(rs.eraseDupsBy (isDuplicate field)).any (isDuplicate field r) = true := by
    intro known
    obtain ⟨opener, opens, same⟩ := List.any_eq_true.1 known
    obtain ⟨hasKey, alike⟩ := Bool.and_eq_true_iff.1 same
    obtain ⟨key, keyed⟩ := Option.isSome_iff_exists.1 hasKey
    exact new key keyed ⟨opener, opens, (beq_iff_eq.1 alike).symm.trans keyed⟩
  unfold Grouped at grouped ⊢
  rw [eraseDupsBy_concat, if_neg unknown]
  refine List.rel_append (grouped.imp fun first e both => ?_) (.cons ⟨rfl, .self plain fresh⟩ .nil)
  obtain ⟨own, stands⟩ := both
  refine ⟨own, stands.concat_of_ne fun key opened keyed => ?_⟩
  -- a group of the same key would have a survivor
  simp only [StandsFor, opened, fresh key keyed] at stands
  obtain ⟨_, _, survivor, _⟩ := stands
  exact List.not_mem_nil survivor.mem

theorem Grouped.enter (grouped : Grouped field preferred rs entries)
    (sourced : ∀ r ∈ rs, r.sources ≠ []) (plain : r.PlainMetadata) :
    Grouped field preferred (rs ++ [r]) (enter field preferred entries r) := by
  obtain ⟨key, keyed, entered, merged⟩ | ⟨unseen, added⟩ := enter_cases field preferred entries r
  · exact merged ▸ grouped.merged keyed entered sourced plain
  · exact added ▸ grouped.added unseen plain

end

/-- Records that are entered one after the other are grouped. -/
theorem entered_grouped (sourced : ∀ r ∈ rs, r.sources ≠ []) (plain : ∀ r ∈ rs, r.PlainMetadata) :
    Grouped field preferred rs (rs.foldl (enter field preferred) []) := by
  induction rs using List.reverseRecOn with
  | nil => exact .nil
  | append_singleton rs r ih =>
    rw [List.forall_mem_append, List.forall_mem_singleton] at sourced plain
    rw [List.foldl_append, List.foldl_cons, List.foldl_nil]
    exact (ih sourced.1 plain.1).enter sourced.1 plain.2

end

/-- Deduplication groups the records by their keys. What is kept stands for the first record with
each key and for every record without a key, in their order. -/
theorem deduplicate_groups {rs : List TargetRecord} (sourced : ∀ r ∈ rs, r.sources ≠ [])
    (plain : ∀ r ∈ rs, r.PlainMetadata) (field preferred : String) :
    List.Forall₂ (StandsFor field preferred rs) (rs.eraseDupsBy (isDuplicate field))
      (deduplicate field preferred rs) :=
  List.forall₂_map_right_iff.2
    ((entered_grouped sourced plain).imp fun _ _ both => both.2)

/-- Of the three sign-ups with one address the one at the desk survives. It takes over from the
shop's, which had taken over from the forum's. -/
theorem signUps_deduplicate_groups :
    let field := "meta_data.mail"
    (∀ r ∈ signUps, r.sources ≠ []) ∧ (∀ r ∈ signUps, r.PlainMetadata) ∧
      (signUps.eraseDupsBy (isDuplicate field)).map (·.id) = ["1", "2"] ∧
      List.Forall₂ (StandsFor field "desk" signUps) (signUps.eraseDupsBy (isDuplicate field))
        (deduplicate field "desk" signUps) ∧
      (deduplicate field "desk" signUps).map (·.sourceIds) = [["4", "1", "3"], ["2"]] := by
  have sourced : ∀ r ∈ signUps, r.sources ≠ [] := by decide
  have plain : ∀ r ∈ signUps, r.PlainMetadata := by decide +kernel
  exact ⟨sourced, plain, by decide +kernel, deduplicate_groups sourced plain _ _,
    by decide +kernel⟩

end TargetRecord

end DataMigration
