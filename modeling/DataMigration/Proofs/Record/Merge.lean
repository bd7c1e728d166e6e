import DataMigration.Proofs.Dict
import DataMigration.Record.Merge
import Mathlib.Data.List.Pairwise

/-!
# What a survivor takes over

The metadata of a survivor are its own and, under keys that are new, those of the record that gives
way. So every value in the merged record is one of the two records' own, but for the metadata as a
whole. What holds of all records and survives taking over holds of the records without duplicates.
-/

namespace DataMigration

namespace TargetRecord

/-- The entries of `fillIn` are those of the first dictionary, and the others where it has none. -/
theorem get?_fillIn {α : Type} (own new : Dict α) (k : String) :
    Dict.get? (fillIn own new) k = (Dict.get? own k).or (Dict.get? new k) := by
  induction new generalizing own with
  | nil => simp [fillIn]
  | cons e new ih =>
    obtain ⟨k', v⟩ := e
    have first : fillIn own ((k', v) :: new) =
        fillIn (if Dict.contains own k' then own else Dict.insert own k' v) new := rfl
    rw [first, ih, Dict.contains_eq_isSome_get?]
    by_cases same : k' = k
    · subst same
      cases h : Dict.get? own k' with
      | some w => simp [h]
      | none => simp [Dict.get?_insert_self, Dict.get?]
    · have others : Dict.get? ((k', v) :: new) k = Dict.get? new k := by simp [Dict.get?, same]
      rw [others]
      split
      · rfl
      · rw [Dict.get?_insert_of_ne _ _ (Ne.symm same)]

theorem step_fillIn (own new : Dict Value) (s : Path.Segment) :
    Path.step (.obj (fillIn own new)) s = Path.step (.obj own) s ∨
      Path.step (.obj (fillIn own new)) s = Path.step (.obj new) s := by
  have either : ∀ k, Dict.get? (fillIn own new) k = Dict.get? own k ∨
      Dict.get? (fillIn own new) k = Dict.get? new k := by
    intro k
    rw [get?_fillIn]
    cases Dict.get? own k with
    | none => exact .inr rfl
    | some v => exact .inl rfl
  cases s with
  | plain name => exact either name
  | indexed name i =>
    simp only [Path.step, Value.member?]
    exact (either name).imp (fun same => by rw [same]) (fun same => by rw [same])
  | unindexable text => exact .inl rfl

/-- Below the metadata as a whole, every value is one of the two records' own. -/
theorem lookup_fillIn (own new : Dict Value) (path : String) :
    Path.lookup (.obj (fillIn own new)) path = Path.lookup (.obj own) path ∨
      Path.lookup (.obj (fillIn own new)) path = Path.lookup (.obj new) path := by
  simp only [Path.lookup]
  cases Path.segments path with
  | nil => exact .inl rfl
  | cons s rest =>
    simp only [Path.walk]
    exact (step_fillIn own new s).imp (fun same => by rw [same]) (fun same => by rw [same])

/-- A survivor stays as it is, or has metadata taken over or filled in. -/
theorem mergedData_cases (winner loser : Dict Value) :
    mergedData winner loser = winner ∨
    (∃ new, Dict.get? loser metadataField = some (.obj new) ∧
      Dict.get? winner metadataField = none ∧
      mergedData winner loser = Dict.insert winner metadataField (.obj new)) ∨
    ∃ own new, Dict.get? winner metadataField = some (.obj own) ∧
      Dict.get? loser metadataField = some (.obj new) ∧
      mergedData winner loser = Dict.insert winner metadataField (.obj (fillIn own new)) := by
  unfold mergedData
  split
  · rename_i new theirs
    split
    · rename_i own ours
      exact .inr (.inr ⟨own, new, ours, theirs, rfl⟩)
    · rename_i ours
      exact .inr (.inl ⟨new, theirs, ours, rfl⟩)
    · exact .inl rfl
  · exact .inl rfl

/-- Whatever is read from a survivor that took something over is its own value or the other
record's, or it is the metadata of both. -/
theorem get?_absorb (winner loser : TargetRecord) (path : String) :
    (winner.absorb loser).get? path = winner.get? path ∨
    (winner.absorb loser).get? path = loser.get? path ∨
    ∃ own new, path = metadataField ∧ winner.get? path = some (.obj own) ∧
      loser.get? path = some (.obj new) ∧
      (winner.absorb loser).get? path = some (.obj (fillIn own new)) := by
  have data : (winner.absorb loser).data = mergedData winner.data loser.data := rfl
  unfold get?
  rw [data]
  obtain same | ⟨new, theirs, ours, merged⟩ | ⟨own, new, ours, theirs, merged⟩ :=
    mergedData_cases winner.data loser.data
  · rw [same]
    exact .inl rfl
  · rw [merged]
    cases Text.cut? "." path with
    | none =>
      by_cases h : path = metadataField
      · simp [h, Dict.get?_insert_self, theirs]
      · simp [Dict.get?_insert_of_ne _ _ h]
    | some cut =>
      obtain ⟨root, rest⟩ := cut
      by_cases h : root = metadataField
      · simp [h, Dict.get?_insert_self, theirs]
      · simp [Dict.get?_insert_of_ne _ _ h]
  · rw [merged]
    cases Text.cut? "." path with
    | none =>
      by_cases h : path = metadataField
      · exact .inr (.inr ⟨own, new, h, by simp [h, ours, Value.present, Value.isNull],
          by simp [h, theirs, Value.present, Value.isNull],
          by simp [h, Dict.get?_insert_self, Value.present, Value.isNull]⟩)
      · simp [Dict.get?_insert_of_ne _ _ h]
    | some cut =>
      obtain ⟨root, rest⟩ := cut
      by_cases h : root = metadataField
      · simp only [h, Dict.get?_insert_self, ours, theirs, Option.bind_some]
        exact (lookup_fillIn own new rest).imp_right .inl
      · simp [Dict.get?_insert_of_ne _ _ h]

/-- A survivor has no more fields than before, but for the metadata. -/
theorem mem_keys_absorb {winner loser : TargetRecord} {key : String}
    (h : key ∈ Dict.keys (winner.absorb loser).data) :
    key = metadataField ∨ key ∈ Dict.keys winner.data := by
  have data : (winner.absorb loser).data = mergedData winner.data loser.data := rfl
  rw [data] at h
  obtain same | ⟨new, _, _, merged⟩ | ⟨own, new, _, _, merged⟩ :=
    mergedData_cases winner.data loser.data
  · exact .inr (same ▸ h)
  · exact Dict.mem_keys_insert.1 (merged ▸ h)
  · exact Dict.mem_keys_insert.1 (merged ▸ h)

/-- A record that is entered is merged with those that are kept under its key, or it is added where
there are none. -/
theorem enter_cases (field preferred : String) (kept : List (Option String × TargetRecord))
    (r : TargetRecord) :
    (∃ k, r.key? field = some k ∧ (∃ e ∈ kept, e.1 = some k) ∧ enter field preferred kept r =
      kept.map fun e => if e.1 == some k then (some k, mergePair preferred e.2 r) else e) ∨
    (∀ k, r.key? field = some k → ∀ e ∈ kept, e.1 ≠ some k) ∧
      enter field preferred kept r = kept ++ [(r.key? field, r)] := by
  simp only [enter]
  split
  · rename_i present
    obtain ⟨hasKey, there⟩ := Bool.and_eq_true_iff.1 present
    obtain ⟨k, keyed⟩ := Option.isSome_iff_exists.1 hasKey
    obtain ⟨e, member, same⟩ := List.any_eq_true.1 there
    exact .inl ⟨k, keyed, ⟨e, member, (beq_iff_eq.1 same).trans keyed⟩, by rw [keyed]⟩
  · rename_i absent
    refine .inr ⟨fun k keyed e member under => absent (Bool.and_eq_true_iff.2 ⟨?_, ?_⟩), rfl⟩
    · rw [keyed]
      rfl
    · exact List.any_eq_true.2 ⟨e, member, beq_iff_eq.2 (under.trans keyed.symm)⟩

section Deduplication

variable {P : TargetRecord → Prop} (closed : ∀ w l, P w → P l → P (w.absorb l))
include closed

theorem enter_forall {field preferred : String} {kept : List (Option String × TargetRecord)}
    {r : TargetRecord} (all : ∀ e ∈ kept, P e.2) (one : P r) :
    ∀ e ∈ enter field preferred kept r, P e.2 := by
  have merged : ∀ w, P w → P (mergePair preferred w r) := by
    intro w own
    unfold mergePair
    split
    · exact closed r w one own
    · exact closed w r own one
  obtain ⟨k, _, _, replaced⟩ | ⟨_, added⟩ := enter_cases field preferred kept r
  · rw [replaced]
    intro e h
    obtain ⟨d, kept, rfl⟩ := List.mem_map.1 h
    split
    · exact merged d.2 (all d kept)
    · exact all d kept
  · rw [added]
    exact List.forall_mem_append.2 ⟨all, List.forall_mem_singleton.2 one⟩

/-- What survives taking over holds of the records without duplicates. -/
theorem deduplicate_forall {field preferred : String} {rs : List TargetRecord}
    (all : ∀ r ∈ rs, P r) : ∀ r ∈ deduplicate field preferred rs, P r := by
  have entered : ∀ (rs : List TargetRecord) (kept : List (Option String × TargetRecord)),
      (∀ r ∈ rs, P r) → (∀ e ∈ kept, P e.2) →
      ∀ e ∈ rs.foldl (enter field preferred) kept, P e.2 := by
    intro rs
    induction rs with
    | nil => exact fun kept _ own => own
    | cons r rs ih =>
      intro kept all own
      have first := all r List.mem_cons_self
      exact ih _ (fun r h => all r (List.mem_cons_of_mem _ h)) (enter_forall closed own first)
  intro r h
  obtain ⟨e, kept, rfl⟩ := List.mem_map.1 h
  exact entered rs [] all (fun _ none => nomatch none) e kept

end Deduplication

/-- Deduplication adds no record. -/
theorem deduplicate_length_le (field preferred : String) (rs : List TargetRecord) :
    (deduplicate field preferred rs).length ≤ rs.length := by
  have entered : ∀ (rs : List TargetRecord) (kept : List (Option String × TargetRecord)),
      (rs.foldl (enter field preferred) kept).length ≤ kept.length + rs.length := by
    intro rs
    induction rs with
    | nil => exact fun _ => Nat.le_refl _
    | cons r rs ih =>
      intro kept
      have one : (enter field preferred kept r).length ≤ kept.length + 1 := by
        simp only [enter]
        split <;> simp
      have others := ih (enter field preferred kept r)
      rw [List.foldl_cons, List.length_cons]
      omega
  have all := entered rs []
  rw [List.length_nil, Nat.zero_add] at all
  rwa [deduplicate, List.length_map]

/-! ## Records that are joined -/

/-- The record that is kept and the one that is entered, where the two become one. -/
def joined (field : String) (kept : List (Option String × TargetRecord)) (r : TargetRecord) :
    List (TargetRecord × TargetRecord) :=
  match r.key? field with
  | none => []
  | some k => (kept.filter fun e => e.1 == some k).map fun e => (e.2, r)

/-- The pairs of records that become one when records are entered one after the other. -/
def joins (field preferred : String) :
    List TargetRecord → List (Option String × TargetRecord) → List (TargetRecord × TargetRecord)
  | [], _ => []
  | r :: rs, kept => joined field kept r ++ joins field preferred rs (enter field preferred kept r)

section Joining

variable {α : Type} (f : TargetRecord → α)

/-- What is kept under which keys, seen through a function of records. -/
def seen (kept : List (Option String × TargetRecord)) : List (Option String × α) :=
  kept.map fun e => (e.1, f e.2)

/-- What is kept under the key of a record looks like the record. -/
def FitsIn (field : String) (kept : List (Option String × TargetRecord)) (r : TargetRecord) :
    Prop :=
  ∀ k, r.key? field = some k → ∀ a, (some k, a) ∈ seen f kept → a = f r

/-- Two records with one key look the same. -/
def Alike (field : String) (r r' : TargetRecord) : Prop :=
  ∀ k, r.key? field = some k → r'.key? field = some k → f r = f r'

variable {f} {field preferred : String} {kept : List (Option String × TargetRecord)}
  {r : TargetRecord} {rs : List TargetRecord}

theorem joined_iff : (∀ p ∈ joined field kept r, f p.1 = f p.2) ↔ FitsIn f field kept r := by
  unfold joined FitsIn seen
  cases r.key? field with
  | none => simp
  | some k =>
    simp only [List.mem_filter, beq_iff_eq, List.mem_map, Prod.mk.injEq, Option.some.injEq,
      forall_eq']
    constructor
    · rintro same _ ⟨e, member, own, rfl⟩
      exact same (e.2, r) ⟨e, ⟨member, own⟩, rfl⟩
    · rintro same _ ⟨e, ⟨member, own⟩, rfl⟩
      exact same _ ⟨e, member, own, rfl⟩

variable (taken : ∀ w l : TargetRecord, f (w.absorb l) = f w)
include taken

/-- Where everything that is joined looks the same, entering a record adds it to what is seen. -/
theorem mem_seen_enter (fitting : FitsIn f field kept r) {x : Option String × α} :
    x ∈ seen f (enter field preferred kept r) ↔ x ∈ seen f kept ∨ x = (r.key? field, f r) := by
  obtain ⟨k, key, ⟨e, member, under⟩, replaced⟩ | ⟨_, added⟩ :=
    enter_cases field preferred kept r
  · have looks : f e.2 = f r := fitting k key _ (List.mem_map.2 ⟨e, member, by rw [under]⟩)
    have unchanged : seen f (enter field preferred kept r) = seen f kept := by
      rw [replaced]
      simp only [seen, List.map_map]
      refine List.map_congr_left fun d own => ?_
      by_cases own' : d.1 = some k
      · have looks' : f d.2 = f r := fitting k key _ (List.mem_map.2 ⟨d, own, by rw [own']⟩)
        have merged : f (mergePair preferred d.2 r) = f r := by
          unfold mergePair
          split
          · exact taken _ _
          · exact (taken _ _).trans looks'
        simp [own', merged, looks']
      · simp [own']
    rw [unchanged]
    refine ⟨Or.inl, fun either => either.elim (fun old => old) ?_⟩
    rintro rfl
    exact List.mem_map.2 ⟨e, member, by rw [under, key, looks]⟩
  · simp [added, seen]

theorem fitsIn_enter_iff (fitting : FitsIn f field kept r) {r' : TargetRecord} :
    FitsIn f field (enter field preferred kept r) r' ↔
      FitsIn f field kept r' ∧ Alike f field r r' := by
  constructor
  · intro all
    refine ⟨fun k key a there => ?_, fun k key key' => ?_⟩
    · exact all k key a ((mem_seen_enter taken fitting).2 (.inl there))
    · exact all k key' (f r) ((mem_seen_enter taken fitting).2 (.inr (by rw [key])))
  · rintro ⟨old, new⟩ k key a there
    obtain there | entered := (mem_seen_enter taken fitting).1 there
    · exact old k key a there
    · obtain ⟨key', rfl⟩ := Prod.mk.inj entered
      exact new k key'.symm key

/-- All pairs that are joined look the same exactly when records with one key do. -/
theorem joins_iff : (∀ p ∈ joins field preferred rs kept, f p.1 = f p.2) ↔
    (∀ r ∈ rs, FitsIn f field kept r) ∧ rs.Pairwise (Alike f field) := by
  induction rs generalizing kept with
  | nil => simp [joins]
  | cons r rs ih =>
    simp only [joins, List.forall_mem_append, joined_iff, ih, List.forall_mem_cons,
      List.pairwise_cons]
    constructor
    · rintro ⟨fitting, others, pairs⟩
      have both := fun r' (member : r' ∈ rs) =>
        (fitsIn_enter_iff taken fitting).1 (others r' member)
      exact ⟨⟨fitting, fun r' member => (both r' member).1⟩,
        fun r' member => (both r' member).2, pairs⟩
    · rintro ⟨⟨fitting, others⟩, first, pairs⟩
      exact ⟨fitting, fun r' member =>
        (fitsIn_enter_iff taken fitting).2 ⟨others r' member, first r' member⟩, pairs⟩

/-- What is seen after records were entered, where everything that is joined looks the same. -/
theorem mem_seen_foldl (fitting : ∀ r ∈ rs, FitsIn f field kept r)
    (alike : rs.Pairwise (Alike f field)) {x : Option String × α} :
    x ∈ seen f (rs.foldl (enter field preferred) kept) ↔
      x ∈ seen f kept ∨ ∃ r ∈ rs, x = (r.key? field, f r) := by
  induction rs generalizing kept with
  | nil => simp
  | cons r rs ih =>
    obtain ⟨own, others⟩ := List.forall_mem_cons.1 fitting
    obtain ⟨first, pairs⟩ := List.pairwise_cons.1 alike
    have later : ∀ r' ∈ rs, FitsIn f field (enter field preferred kept r) r' := fun r' member =>
      (fitsIn_enter_iff taken own).2 ⟨others r' member, first r' member⟩
    rw [List.foldl_cons, ih later pairs, mem_seen_enter taken own, List.exists_mem_cons_iff,
      or_assoc]

/-- All pairs that are joined when duplicates are merged look the same exactly when all records with
one key do. -/
theorem joins_nil_iff : (∀ p ∈ joins field preferred rs [], f p.1 = f p.2) ↔
    ∀ r ∈ rs, ∀ r' ∈ rs, Alike f field r r' := by
  have nothing : ∀ r ∈ rs, FitsIn f field [] r := fun _ _ _ _ _ none => nomatch none
  rw [joins_iff taken, and_iff_right nothing]
  have symmetric : Std.Symm (Alike f field) := ⟨fun _ _ same k key key' => (same k key' key).symm⟩
  exact ⟨fun alike r member r' member' => alike.forall_of_forall (fun _ _ _ _ _ => rfl) member
    member', fun alike => List.pairwise_of_forall_mem_list fun r member r' member' =>
      alike r member r' member'⟩

/-- The records without duplicates look like the records, where all pairs that are joined look the
same. -/
theorem exists_mem_deduplicate_iff (same : ∀ p ∈ joins field preferred rs [], f p.1 = f p.2)
    {a : α} : (∃ d ∈ deduplicate field preferred rs, f d = a) ↔ ∃ r ∈ rs, f r = a := by
  obtain ⟨fitting, alike⟩ := (joins_iff taken).1 same
  have all : ∀ x, x ∈ seen f (rs.foldl (enter field preferred) []) ↔
      x ∈ seen f [] ∨ ∃ r ∈ rs, x = (r.key? field, f r) := fun x =>
    mem_seen_foldl taken fitting alike
  simp only [deduplicate, List.mem_map, exists_exists_and_eq_and]
  constructor
  · rintro ⟨e, member, rfl⟩
    obtain none | ⟨r, own, same⟩ := (all (e.1, f e.2)).1 (List.mem_map_of_mem member)
    · cases none
    · exact ⟨r, own, (Prod.mk.inj same).2.symm⟩
  · rintro ⟨r, own, rfl⟩
    obtain ⟨e, member, same⟩ := List.mem_map.1 ((all (r.key? field, f r)).2 (.inr ⟨r, own, rfl⟩))
    exact ⟨e, member, (Prod.mk.inj same).2⟩

end Joining

end TargetRecord

end DataMigration
