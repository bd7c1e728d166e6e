import DataMigration.Proofs.Record.Merge

/-!
# What is merged has no duplicates

A record that takes over metadata keeps every field that it has, also those inside its metadata. So
it keeps its key, and records that are kept under different keys stay different. Where no two
records are duplicates there is nothing to merge: merging once more changes nothing.
-/

namespace DataMigration

namespace TargetRecord

/-! ## A survivor keeps its key -/

theorem step_fillIn_of_some {own new : Dict Value} {s : Path.Segment} {v : Value}
    (there : Path.step (.obj own) s = some v) :
    Path.step (.obj (fillIn own new)) s = some v := by
  have kept : ∀ {name w}, Dict.get? own name = some w →
      Dict.get? (fillIn own new) name = some w := fun {name w} found => by
    rw [get?_fillIn, found, Option.some_or]
  cases s with
  | plain name => exact kept there
  | indexed name i =>
    simp only [Path.step, Value.member?] at there ⊢
    cases found : Dict.get? own name with
    | none =>
      rw [found] at there
      cases there
    | some w =>
      rw [kept found]
      rwa [found] at there
  | unindexable text => cases there

/-- What metadata have at a path they still have when others are filled in. -/
theorem lookup_fillIn_of_some {own new : Dict Value} {path : String} {v : Value}
    (found : Path.lookup (.obj own) path = some v) :
    Path.lookup (.obj (fillIn own new)) path = some v := by
  unfold Path.lookup at found ⊢
  cases segs : Path.segments path with
  | nil =>
    rw [segs] at found
    cases found
  | cons s rest =>
    simp only [segs, Path.walk] at found ⊢
    cases there : Path.step (.obj own) s with
    | none =>
      rw [there] at found
      cases found
    | some w =>
      rw [step_fillIn_of_some there]
      rwa [there] at found

theorem get?_mergedData_of_ne (winner loser : Dict Value) {k : String} (other : k ≠ metadataField) :
    Dict.get? (mergedData winner loser) k = Dict.get? winner k := by
  obtain same | ⟨_, _, _, merged⟩ | ⟨_, _, _, _, merged⟩ := mergedData_cases winner loser
  · rw [same]
  · rw [merged, Dict.get?_insert_of_ne _ _ other]
  · rw [merged, Dict.get?_insert_of_ne _ _ other]

/-- A survivor keeps every field that it has, but for the metadata as a whole. -/
theorem get?_absorb_of_some {winner : TargetRecord} (loser : TargetRecord) {path : String}
    {v : Value} (part : path ≠ metadataField) (found : winner.get? path = some v) :
    (winner.absorb loser).get? path = some v := by
  have data : (winner.absorb loser).data = mergedData winner.data loser.data := rfl
  unfold get? at found ⊢
  rw [data]
  cases cut : Text.cut? "." path with
  | none =>
    rw [cut] at found
    rwa [get?_mergedData_of_ne _ _ part]
  | some parts =>
    obtain ⟨root, rest⟩ := parts
    simp only [cut] at found ⊢
    by_cases inside : root = metadataField
    · subst inside
      obtain same | ⟨_, _, ours, _⟩ | ⟨own, new, ours, _, merged⟩ :=
        mergedData_cases winner.data loser.data
      · rwa [same]
      · -- a survivor without metadata has no field in them
        rw [ours] at found
        cases found
      · rw [ours] at found
        rw [merged, Dict.get?_insert_self]
        exact lookup_fillIn_of_some found
    · rwa [get?_mergedData_of_ne _ _ inside]

section

variable {field preferred key : String} {r r' : TargetRecord} {rs : List TargetRecord}
  {kept : List (Option String × TargetRecord)}

theorem key?_absorb (part : field ≠ metadataField) (keyed : r.key? field = some key) :
    (r.absorb r').key? field = some key := by
  obtain ⟨v, found, text⟩ := Option.bind_eq_some_iff.1 keyed
  exact Option.bind_eq_some_iff.2 ⟨v, get?_absorb_of_some r' part found, text⟩

theorem key?_mergePair (part : field ≠ metadataField) (earlier : r.key? field = some key)
    (later : r'.key? field = some key) : (mergePair preferred r r').key? field = some key := by
  unfold mergePair
  split
  · exact key?_absorb part later
  · exact key?_absorb part earlier

/-! ## No two records that are kept are duplicates -/

/-- The records are not duplicates of each other. -/
def Apart (field : String) (r r' : TargetRecord) : Prop :=
  r.key? field = none ∨ r.key? field ≠ r'.key? field

/-- Every record is kept under its own key, and no two are duplicates. -/
structure Distinct (field : String) (kept : List (Option String × TargetRecord)) : Prop where
  own : ∀ e ∈ kept, e.1 = e.2.key? field
  apart : kept.Pairwise fun e e' => Apart field e.2 e'.2

theorem apart_of_unseen (own : ∀ e ∈ kept, e.1 = e.2.key? field)
    (unseen : ∀ k, r.key? field = some k → ∀ e ∈ kept, e.1 ≠ some k) :
    ∀ e ∈ kept, Apart field e.2 r := by
  intro e member
  cases under : e.2.key? field with
  | none => exact .inl under
  | some k =>
    refine .inr fun same => unseen k (same.symm.trans under) e member ?_
    exact (own e member).trans under

theorem Distinct.enter (part : field ≠ metadataField) (distinct : Distinct field kept)
    (r : TargetRecord) : Distinct field (enter field preferred kept r) := by
  obtain ⟨k, keyed, _, merged⟩ | ⟨unseen, added⟩ := enter_cases field preferred kept r
  · -- what two records of one key become has this key, so all keys are as before
    let merge := fun e : Option String × TargetRecord =>
      if e.1 == some k then (some k, mergePair preferred e.2 r) else e
    have keys : ∀ e ∈ kept, (merge e).1 = e.1 ∧ (merge e).2.key? field = e.2.key? field := by
      intro e member
      by_cases under : e.1 = some k
      · have holder : e.2.key? field = some k := (distinct.own e member).symm.trans under
        simp only [merge, under, beq_self_eq_true, if_true, true_and, holder]
        exact key?_mergePair part holder keyed
      · simp only [merge, beq_iff_eq, under, if_false, true_and]
    rw [merged]
    constructor
    · intro e' member'
      obtain ⟨e, member, rfl⟩ := List.mem_map.1 member'
      exact (keys e member).1.trans ((distinct.own e member).trans (keys e member).2.symm)
    · refine List.pairwise_map.2 (distinct.apart.imp_of_mem fun {e e'} member member' apart => ?_)
      unfold Apart
      rw [(keys e member).2, (keys e' member').2]
      exact apart
  · rw [added]
    constructor
    · intro e member
      obtain old | new := List.mem_append.1 member
      · exact distinct.own e old
      · rw [List.mem_singleton.1 new]
    · refine List.pairwise_append.2 ⟨distinct.apart, List.pairwise_singleton _ _, ?_⟩
      intro e member e' new
      rw [List.mem_singleton.1 new]
      exact apart_of_unseen distinct.own unseen e member

/-- No two records that are kept are duplicates. -/
theorem deduplicate_apart (part : field ≠ metadataField) (preferred : String)
    (rs : List TargetRecord) : (deduplicate field preferred rs).Pairwise (Apart field) := by
  have entered : ∀ (rs : List TargetRecord) (kept : List (Option String × TargetRecord)),
      Distinct field kept → Distinct field (rs.foldl (enter field preferred) kept) := by
    intro rs
    induction rs with
    | nil => exact fun _ distinct => distinct
    | cons r rs ih => exact fun kept distinct => ih _ (distinct.enter part r)
  exact List.pairwise_map.2 (entered rs [] ⟨fun _ none => (nomatch none), .nil⟩).apart

/-! ## Where there are no duplicates nothing is merged -/

/-- Records of which no two are duplicates are kept as they are. -/
theorem deduplicate_of_apart (preferred : String) (apart : rs.Pairwise (Apart field)) :
    deduplicate field preferred rs = rs := by
  have entered : ∀ (rs : List TargetRecord) (kept : List (Option String × TargetRecord)),
      (∀ e ∈ kept, e.1 = e.2.key? field) → (∀ r ∈ rs, ∀ e ∈ kept, Apart field e.2 r) →
      rs.Pairwise (Apart field) →
      rs.foldl (enter field preferred) kept = kept ++ rs.map fun r => (r.key? field, r) := by
    intro rs
    induction rs with
    | nil => exact fun kept _ _ _ => (List.append_nil kept).symm
    | cons r rs ih =>
      intro kept own fresh apart
      obtain ⟨others, rest⟩ := List.pairwise_cons.1 apart
      obtain ⟨now, later⟩ := List.forall_mem_cons.1 fresh
      obtain ⟨k, keyed, ⟨e, member, under⟩, _⟩ | ⟨_, added⟩ :=
        enter_cases field preferred kept r
      · have holder : e.2.key? field = some k := (own e member).symm.trans under
        obtain none | other := now e member
        · cases holder.symm.trans none
        · exact absurd (holder.trans keyed.symm) other
      · rw [List.foldl_cons, added, ih, List.append_assoc]
        · rfl
        · rintro e member
          obtain old | new := List.mem_append.1 member
          · exact own e old
          · rw [List.mem_singleton.1 new]
        · intro r' member' e member
          obtain old | new := List.mem_append.1 member
          · exact later r' member' e old
          · rw [List.mem_singleton.1 new]
            exact others r' member'
        · exact rest
  have whole := entered rs [] (fun _ none => (nomatch none)) (fun _ _ _ none => (nomatch none))
    apart
  rw [deduplicate, whole, List.nil_append, List.map_map]
  exact List.map_id rs

end

/-- Merging duplicates is idempotent: what is merged has none, whichever source is preferred when
it is merged once more. -/
theorem deduplicate_deduplicate {field : String} (part : field ≠ metadataField)
    (preferred preferred' : String) (rs : List TargetRecord) :
    deduplicate field preferred' (deduplicate field preferred rs) =
      deduplicate field preferred rs :=
  deduplicate_of_apart preferred' (deduplicate_apart part preferred rs)

/-- A sign-up with the mail address in its metadata. -/
def signUp (id service : String) (metadata : Dict Value) : TargetRecord where
  id := id
  service := "crm"
  entity := "contact"
  data := [(metadataField, .obj metadata)]
  sources := [⟨id, service, "user"⟩]
  transformedAt := ⟨0, 0⟩

/-- One person signed up at three services, and somebody left no address. -/
def signUps : List TargetRecord :=
  [signUp "1" "shop" [("mail", .str "Ann@x.org "), ("plan", .str "gold")],
    signUp "2" "forum" [("plan", .str "free")],
    signUp "3" "forum" [("mail", .str "ann@x.org"), ("plan", .str "free"), ("votes", .nat 7)],
    signUp "4" "desk" [("mail", .str "ANN@x.org"), ("votes", .nat 1)]]

/-- The survivor takes over a plan and keeps the address that is its key. -/
theorem signUps_deduplicate_twice :
    let field := "meta_data.mail"
    let once := deduplicate field "desk" signUps
    field ≠ metadataField ∧ once.map (·.id) = ["4", "2"] ∧
      (once.map fun r => r.get? "meta_data.plan") = [some (.str "gold"), some (.str "free")] ∧
      deduplicate field "desk" once = once := by
  intro field once
  have part : field ≠ metadataField := by decide
  exact ⟨part, by decide +kernel, by decide +kernel,
    deduplicate_deduplicate part "desk" "desk" signUps⟩

end TargetRecord

end DataMigration
