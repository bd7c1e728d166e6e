import DataMigration.Dict
import Mathlib.Data.List.Forall2
import Mathlib.Data.List.Induction
import Mathlib.Tactic.ByContra

/-!
# Dictionaries after a change

What a dictionary holds after `insert`, `erase` and `upsert`, for any list of entries.
-/

namespace DataMigration.Dict

variable {α : Type}

theorem get?_insert (d : Dict α) (k k' : String) (v : α) :
    get? (insert d k v) k' = if k' = k then some v else get? d k' := by
  split
  · rename_i same
    rw [same, get?_insert_self]
  · rename_i other
    exact get?_insert_of_ne d v other

theorem insert_insert (d : Dict α) (k : String) (v v' : α) :
    insert (insert d k v) k v' = insert d k v' := by
  induction d with
  | nil => simp [insert]
  | cons e d ih =>
    obtain ⟨k₀, v₀⟩ := e
    by_cases same : k₀ = k
    · simp [insert, same]
    · by_cases before : k < k₀
      · simp [insert, same, before]
      · simp [insert, same, before, ih]

/-- Two changes of the value of one key are one change. -/
theorem upsert_upsert (d : Dict α) (k : String) (new : α) (f g : α → α) :
    upsert (upsert d k new f) k new g = upsert d k new fun v => g (f v) := by
  simp only [upsert, insert_insert, get?_insert_self, Option.getD_some]

theorem get?_erase (d : Dict α) (k k' : String) :
    get? (erase d k) k' = if k' = k then none else get? d k' := by
  induction d with
  | nil => simp [erase]
  | cons e d ih =>
    obtain ⟨k₀, v⟩ := e
    by_cases gone : k₀ = k
    · have less : erase ((k₀, v) :: d) k = erase d k := by simp [erase, gone]
      rw [less, ih]
      split
      · rfl
      · rename_i other
        simp [get?, gone, Ne.symm other]
    · have more : erase ((k₀, v) :: d) k = (k₀, v) :: erase d k := by simp [erase, gone]
      rw [more, get?, ih]
      split
      · rename_i same
        simp [← same, gone, get?]
      · rename_i other
        simp [get?, other]

theorem contains_insert {d : Dict α} {k k' : String} {v : α} :
    contains (insert d k v) k' = true ↔ k' = k ∨ contains d k' = true := by
  rw [contains_eq_isSome_get?, contains_eq_isSome_get?, get?_insert]
  split <;> simp_all

theorem contains_erase {d : Dict α} {k k' : String} :
    contains (erase d k) k' = true ↔ contains d k' = true ∧ k' ≠ k := by
  rw [contains_eq_isSome_get?, contains_eq_isSome_get?, get?_erase]
  split <;> simp_all

theorem mem_keys_iff {d : Dict α} {k : String} : k ∈ keys d ↔ contains d k = true := by
  simp [keys, contains]

theorem mem_keys_insert {d : Dict α} {k k' : String} {v : α} :
    k' ∈ keys (insert d k v) ↔ k' = k ∨ k' ∈ keys d := by
  rw [mem_keys_iff, mem_keys_iff, contains_insert]

theorem keys_replace? {d d' : Dict α} {k : String} {v : α} (h : replace? d k v = some d') :
    keys d' = keys d ∧ k ∈ keys d := by
  induction d generalizing d' with
  | nil => cases h
  | cons e d ih =>
    obtain ⟨k₀, v₀⟩ := e
    simp only [replace?] at h
    split at h
    · rename_i same
      cases h
      exact ⟨by simp [keys, same], by simp [keys, same]⟩
    · obtain ⟨rest, found, rfl⟩ := Option.map_eq_some_iff.1 h
      obtain ⟨same, member⟩ := ih found
      exact ⟨congrArg (k₀ :: ·) same, List.mem_cons_of_mem _ member⟩

theorem mem_keys_put {d : Dict α} {k k' : String} {v : α} :
    k' ∈ keys (put d k v) ↔ k' = k ∨ k' ∈ keys d := by
  unfold put
  cases found : replace? d k v with
  | none => exact mem_keys_insert
  | some d' =>
    obtain ⟨same, member⟩ := keys_replace? found
    rw [Option.getD_some, same]
    exact ⟨Or.inr, fun either => either.elim (fun own => own ▸ member) id⟩

theorem get?_replace? {d d' : Dict α} {k : String} {v : α} (h : replace? d k v = some d')
    (k' : String) : get? d' k' = if k' = k then some v else get? d k' := by
  induction d generalizing d' with
  | nil => cases h
  | cons e d ih =>
    obtain ⟨k₀, v₀⟩ := e
    simp only [replace?] at h
    split at h
    · rename_i same
      cases h
      by_cases here : k' = k
      · simp [get?, here]
      · simp [get?, here, Ne.symm here, same]
    · rename_i other
      obtain ⟨rest, found, rfl⟩ := Option.map_eq_some_iff.1 h
      by_cases first : k₀ = k'
      · simp [get?, first, first ▸ other]
      · simpa only [get?, if_neg first] using ih found

theorem get?_put (d : Dict α) (k k' : String) (v : α) :
    get? (put d k v) k' = if k' = k then some v else get? d k' := by
  unfold put
  cases found : replace? d k v with
  | none => exact get?_insert d k k' v
  | some d' => exact get?_replace? found k'

theorem replace?_eq_none_iff {d : Dict α} {k : String} {v : α} :
    replace? d k v = none ↔ k ∉ keys d := by
  induction d with
  | nil => simp [replace?, keys]
  | cons e d ih =>
    obtain ⟨k₀, v₀⟩ := e
    have more : keys ((k₀, v₀) :: d) = k₀ :: keys d := rfl
    simp only [replace?, more, List.mem_cons, not_or]
    split
    · rename_i same
      simp [same]
    · rename_i other
      simp [ih, Ne.symm other]

/-- A new value takes the place of the old one, and a new key its place in the order. -/
theorem put_cons (k₀ : String) (v₀ : α) (d : Dict α) (k : String) (v : α) :
    put ((k₀, v₀) :: d) k v =
      if k₀ = k then (k, v) :: d
      else if k < k₀ ∧ k ∉ keys d then (k, v) :: (k₀, v₀) :: d
      else (k₀, v₀) :: put d k v := by
  unfold put
  simp only [replace?, insert]
  split
  · rfl
  · rename_i other
    by_cases new : k ∈ keys d
    · have there : replace? d k v ≠ none := mt replace?_eq_none_iff.1 (not_not.2 new)
      obtain ⟨d', replaced⟩ := Option.ne_none_iff_exists'.1 there
      simp [replaced, new]
    · rw [(replace?_eq_none_iff (v := v)).2 new]
      simp only [Option.map_none, Option.getD_none, new, not_false_eq_true, and_true]

theorem put_put (d : Dict α) (k : String) (v v' : α) : put (put d k v) k v' = put d k v' := by
  induction d with
  | nil => simp [put, replace?, insert]
  | cons e d ih =>
    obtain ⟨k₀, v₀⟩ := e
    simp only [put_cons k₀ v₀ d]
    split
    · rw [put_cons, if_pos rfl]
    · rename_i other
      split
      · rw [put_cons, if_pos rfl]
      · have later : ¬ (k < k₀ ∧ k ∉ keys (put d k v)) := fun h => h.2 (mem_keys_put.2 (.inl rfl))
        rw [put_cons, if_neg other, if_neg later, ih]

/-- Values of different keys may be put in either order, whatever the order of the entries. -/
theorem put_comm (d : Dict α) {k k' : String} (other : k ≠ k') (v v' : α) :
    put (put d k v) k' v' = put (put d k' v') k v := by
  have either : k < k' ∧ ¬ k' < k ∨ k' < k ∧ ¬ k < k' := by
    by_cases before : k < k'
    · exact .inl ⟨before, fun after => String.lt_irrefl k (String.lt_trans before after)⟩
    · refine .inr ⟨?_, before⟩
      by_contra behind
      exact other (String.le_antisymm (String.not_lt.1 behind) (String.not_lt.1 before))
  induction d with
  | nil =>
    obtain ⟨before, behind⟩ | ⟨before, behind⟩ := either <;>
      simp [put, replace?, insert, other, Ne.symm other, before, behind]
  | cons e d ih =>
    obtain ⟨k₀, v₀⟩ := e
    have more : keys ((k₀, v₀) :: d) = k₀ :: keys d := rfl
    grind [put_cons, mem_keys_put, String.lt_trans]

theorem mem_of_get? {d : Dict α} {k : String} {v : α} (h : get? d k = some v) : (k, v) ∈ d := by
  induction d with
  | nil => cases h
  | cons e d ih =>
    obtain ⟨k₀, v₀⟩ := e
    simp only [get?] at h
    split at h
    · rename_i same
      cases h
      rw [same]
      exact List.mem_cons_self
    · exact List.mem_cons_of_mem _ (ih h)

theorem get?_eq_none_iff {d : Dict α} {k : String} : get? d k = none ↔ k ∉ keys d := by
  rw [mem_keys_iff, contains_eq_isSome_get?, Bool.not_eq_true, Option.isSome_eq_false_iff,
    Option.isNone_iff_eq_none]

/-- Where each key comes once, every entry is found. -/
theorem get?_of_mem {d : Dict α} (once : (keys d).Nodup) {e : String × α} (h : e ∈ d) :
    get? d e.1 = some e.2 := by
  induction d with
  | nil => cases h
  | cons e₀ d ih =>
    obtain ⟨new, once⟩ := List.nodup_cons.1 once
    obtain rfl | later := List.mem_cons.1 h
    · simp [get?]
    · have other : e₀.1 ≠ e.1 := by
        intro same
        refine new ?_
        simp only [same]
        exact List.mem_map_of_mem later
      rw [get?, if_neg other, ih once later]

theorem Sorted.nodup_keys {d : Dict α} (sorted : Sorted d) : (keys d).Nodup := by
  refine List.pairwise_map.2 (List.Pairwise.imp (fun {a b} less same => ?_) sorted)
  rw [same] at less
  exact String.lt_irrefl _ less

/-- Dictionaries stay sorted when they grow. -/
theorem Sorted.insert {d : Dict α} (sorted : Sorted d) (k : String) (v : α) :
    Sorted (insert d k v) := by
  induction d with
  | nil => exact List.pairwise_singleton _ _
  | cons e d ih =>
    obtain ⟨k₀, v₀⟩ := e
    obtain ⟨first, rest⟩ := List.pairwise_cons.1 sorted
    simp only [Dict.insert]
    split
    · rename_i same
      exact List.pairwise_cons.2 ⟨same ▸ first, rest⟩
    · rename_i other
      split
      · rename_i before
        refine List.pairwise_cons.2 ⟨fun e member => ?_, sorted⟩
        obtain rfl | later := List.mem_cons.1 member
        · exact before
        · exact String.lt_trans before (first e later)
      · rename_i behind
        refine List.pairwise_cons.2 ⟨fun e member => ?_, ih rest⟩
        obtain own | old := mem_keys_insert.1 (List.mem_map_of_mem (f := (·.1)) member)
        · rw [own]
          by_contra notBefore
          exact other (String.le_antisymm (String.not_lt.1 behind) (String.not_lt.1 notBefore))
        · obtain ⟨e', there, same⟩ := List.mem_map.1 old
          exact same ▸ first e' there

theorem Sorted.foldl_insert {d : Dict α} (sorted : Sorted d) (entries : List (String × α)) :
    Sorted (entries.foldl (fun d e => Dict.insert d e.1 e.2) d) := by
  induction entries generalizing d with
  | nil => exact sorted
  | cons e entries ih => exact ih (sorted.insert e.1 e.2)

theorem sorted_ofEntries (entries : List (String × α)) : Sorted (ofEntries entries) :=
  Sorted.foldl_insert List.Pairwise.nil entries

/-- A key behind all others takes the last place. -/
theorem insert_of_lt {d : Dict α} {k : String} (last : ∀ e ∈ d, e.1 < k) (v : α) :
    insert d k v = d ++ [(k, v)] := by
  induction d with
  | nil => rfl
  | cons e d ih =>
    obtain ⟨k₀, v₀⟩ := e
    obtain ⟨first, others⟩ := List.forall_mem_cons.1 last
    have other : k₀ ≠ k := fun same => String.lt_irrefl k (same ▸ first)
    have behind : ¬ k < k₀ := fun before => String.lt_irrefl k (String.lt_trans before first)
    rw [insert, if_neg other, if_neg behind, ih others, List.cons_append]

theorem foldl_insert_of_sorted {d entries : Dict α} (sorted : Sorted (d ++ entries)) :
    entries.foldl (fun d e => insert d e.1 e.2) d = d ++ entries := by
  induction entries generalizing d with
  | nil => rw [List.foldl_nil, List.append_nil]
  | cons e entries ih =>
    have last : ∀ e' ∈ d, e'.1 < e.1 := fun e' member =>
      (List.pairwise_append.1 sorted).2.2 e' member e List.mem_cons_self
    have whole : d ++ e :: entries = d ++ [(e.1, e.2)] ++ entries := by simp
    rw [List.foldl_cons, insert_of_lt last, ih (whole ▸ sorted), whole]

/-- A sorted dictionary is the one that its entries give. -/
theorem ofEntries_of_sorted {d : Dict α} (sorted : Sorted d) : ofEntries d = d :=
  foldl_insert_of_sorted sorted

theorem get?_foldl_insert (entries : List (String × α)) (d : Dict α) {k : String} {v : α}
    (found : get? (entries.foldl (fun d e => insert d e.1 e.2) d) k = some v) :
    (k, v) ∈ entries ∨ get? d k = some v := by
  induction entries generalizing d with
  | nil => exact .inr found
  | cons e entries ih =>
    obtain later | kept := ih _ found
    · exact .inl (List.mem_cons_of_mem _ later)
    · rw [get?_insert] at kept
      split at kept
      · rename_i same
        cases kept
        exact .inl (same ▸ List.mem_cons_self)
      · exact .inr kept

theorem mem_of_mem_ofEntries {entries : List (String × α)} {e : String × α}
    (member : e ∈ ofEntries entries) : e ∈ entries := by
  have found := get?_of_mem (sorted_ofEntries entries).nodup_keys member
  exact (get?_foldl_insert entries [] found).resolve_right nofun

theorem mem_keys_foldl_insert (entries : List (String × α)) (d : Dict α) {k : String} :
    k ∈ keys (entries.foldl (fun d e => insert d e.1 e.2) d) ↔ k ∈ keys entries ∨ k ∈ keys d := by
  induction entries generalizing d with
  | nil => simp [keys]
  | cons e entries ih =>
    rw [List.foldl_cons, ih, mem_keys_insert]
    simp only [keys, List.map_cons, List.mem_cons]
    exact or_left_comm.trans or_assoc.symm

theorem mem_keys_ofEntries {entries : List (String × α)} {k : String} :
    k ∈ keys (ofEntries entries) ↔ k ∈ keys entries :=
  (mem_keys_foldl_insert entries []).trans (or_iff_left List.not_mem_nil)

/-- Where each key comes once, the dictionary has the entries that it is given. -/
theorem get?_ofEntries {entries : List (String × α)} (once : (keys entries).Nodup) (k : String) :
    get? (ofEntries entries) k = get? entries k := by
  cases found : get? (ofEntries entries) k with
  | none =>
    rw [get?_eq_none_iff, mem_keys_ofEntries, ← get?_eq_none_iff] at found
    exact found.symm
  | some v => exact (get?_of_mem once (mem_of_mem_ofEntries (mem_of_get? found))).symm

theorem ofEntries_concat (entries : List (String × α)) (e : String × α) :
    ofEntries (entries ++ [e]) = insert (ofEntries entries) e.1 e.2 := by
  rw [ofEntries, List.foldl_append]
  rfl

/-- Of the entries with one key the dictionary has the last. -/
theorem get?_ofEntries_eq_some_iff {entries : List (String × α)} {k : String} {v : α} :
    get? (ofEntries entries) k = some v ↔
      ∃ before after, entries = before ++ (k, v) :: after ∧ ∀ e ∈ after, e.1 ≠ k := by
  induction entries using List.reverseRecOn with
  | nil => simp [ofEntries]
  | append_singleton entries e ih =>
    rw [ofEntries_concat, get?_insert]
    constructor
    · intro found
      split at found
      · rename_i same
        cases found
        exact ⟨entries, [], by rw [same], List.forall_mem_nil _⟩
      · rename_i other
        obtain ⟨before, after, rfl, last⟩ := ih.1 found
        refine ⟨before, after ++ [e], by simp, fun e' member => ?_⟩
        obtain old | new := List.mem_append.1 member
        · exact last e' old
        · rw [List.mem_singleton.1 new]
          exact Ne.symm other
    · rintro ⟨before, after, whole, last⟩
      obtain rfl | ⟨after, e', rfl⟩ := after.eq_nil_or_concat
      · obtain ⟨_, same⟩ := List.append_inj' whole rfl
        cases same
        exact if_pos rfl
      · rw [List.concat_eq_append] at whole last
        rw [← List.cons_append, ← List.append_assoc] at whole
        obtain ⟨rfl, same⟩ := List.append_inj' whole rfl
        cases same
        rw [if_neg (last e (by simp)).symm]
        exact ih.2 ⟨before, after, rfl, fun e' member => last e' (List.mem_append_left _ member)⟩

theorem mem_ofEntries_iff {entries : List (String × α)} {e : String × α} :
    e ∈ ofEntries entries ↔
      ∃ before after, entries = before ++ e :: after ∧ ∀ e' ∈ after, e'.1 ≠ e.1 := by
  rw [← get?_ofEntries_eq_some_iff]
  exact ⟨get?_of_mem (sorted_ofEntries entries).nodup_keys, mem_of_get?⟩

theorem get?_append (d d' : Dict α) (k : String) : get? (d ++ d') k = (get? d k).or (get? d' k) := by
  induction d with
  | nil => rfl
  | cons e d ih =>
    obtain ⟨k₀, v⟩ := e
    simp only [List.cons_append, get?, ih]
    split <;> rfl

theorem get?_mapValues {β : Type} (f : α → β) (d : Dict α) (k : String) :
    get? (mapValues f d) k = (get? d k).map f := by
  induction d with
  | nil => rfl
  | cons e d ih =>
    obtain ⟨k₀, v⟩ := e
    unfold mapValues at ih ⊢
    simp only [List.map_cons, get?, ih]
    split <;> rfl

/-! ## Dictionaries with the same keys -/

theorem keys_eq_of_forall₂ {β : Type} {R : α → β → Prop} {d : Dict α} {d' : Dict β}
    (pairs : List.Forall₂ (fun e e' => e.1 = e'.1 ∧ R e.2 e'.2) d d') : keys d = keys d' := by
  induction pairs with
  | nil => rfl
  | cons first _ ih => exact congrArg₂ List.cons first.1 ih

theorem rel_get? {β : Type} {R : α → β → Prop} {d : Dict α} {d' : Dict β}
    (pairs : List.Forall₂ (fun e e' => e.1 = e'.1 ∧ R e.2 e'.2) d d') (k : String) :
    Option.Rel R (get? d k) (get? d' k) := by
  induction pairs with
  | nil => exact .none
  | @cons e e' _ _ first _ ih =>
    obtain ⟨k₀, v⟩ := e
    obtain ⟨_, v'⟩ := e'
    obtain ⟨rfl, own⟩ := first
    simp only [get?]
    split
    · exact .some own
    · exact ih

end DataMigration.Dict
