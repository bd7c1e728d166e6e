import DataMigration.Proofs.Document.Canonical
import DataMigration.Proofs.Document.Fields

/-!
# Documents that show a written value

A document shows a written value when its parts are the parts of the value, in their order, and each
scalar is read as the scalar of the value. Every kind of part is read back from a document that
shows it, and so is a record from its parts.
-/

namespace DataMigration

theorem map_eq_self_iff {α : Type} {f : α → α} {xs : List α} :
    xs.map f = xs ↔ ∀ x ∈ xs, f x = x := by
  have same := List.map_inj_left (f := f) (g := id) (l := xs)
  rwa [List.map_id] at same

namespace Value

mutual

/-- The value as it is read back: of two fields with one key the later counts, and fields have the
order of their keys. -/
def normal : Value → Value
  | .arr items => .arr (normalItems items)
  | .obj fields => .obj (Dict.ofEntries (normalFields fields))
  | v => v

/-- The values of a list as they are read back. -/
def normalItems : List Value → List Value
  | [] => []
  | v :: vs => normal v :: normalItems vs

/-- The values of fields as they are read back. -/
def normalFields : List (String × Value) → List (String × Value)
  | [] => []
  | (k, v) :: fs => (k, normal v) :: normalFields fs

end

/-! ## Fields that are written -/

theorem get?_textField (name text k : String) :
    Dict.get? (textField name text) k =
      if name = k ∧ text ≠ "" then some (.str text) else none := by
  unfold textField
  by_cases empty : text = "" <;> simp [empty, Dict.get?]

theorem get?_fieldIf {α : Type} (name : String) (o : Option α) (write : α → Value) (k : String) :
    Dict.get? (fieldIf name o write) k = if name = k then o.map write else none := by
  cases o <;> simp [fieldIf, Dict.get?]

theorem get?_ite (c : Prop) [Decidable c] (d e : List (String × Value)) (k : String) :
    Dict.get? (if c then d else e) k = if c then Dict.get? d k else Dict.get? e k := by
  split <;> rfl

theorem keys_textField (name text : String) :
    (Dict.keys (textField name text)).Sublist [name] := by
  unfold textField
  split
  · exact List.nil_sublist _
  · exact List.Sublist.refl _

theorem keys_fieldIf {α : Type} (name : String) (o : Option α) (write : α → Value) :
    (Dict.keys (fieldIf name o write)).Sublist [name] := by
  cases o
  · exact List.nil_sublist _
  · exact List.Sublist.refl _

theorem keys_append (d e : List (String × Value)) :
    Dict.keys (d ++ e) = Dict.keys d ++ Dict.keys e := List.map_append

theorem depth_lt_of_mem {fields : List (String × Value)} {f : String × Value} (member : f ∈ fields) :
    f.2.depth < (Value.obj fields).depth := by
  rw [depth, Nat.lt_succ_iff]
  induction fields with
  | nil => cases member
  | cons e fields ih =>
    obtain ⟨k, v⟩ := e
    rw [depthOfFields]
    obtain rfl | later := List.mem_cons.1 member
    · exact Nat.le_max_left _ _
    · exact Nat.le_trans (ih later) (Nat.le_max_right _ _)

theorem depth_lt_of_mem_items {items : List Value} {v : Value} (member : v ∈ items) :
    v.depth < (Value.arr items).depth := by
  rw [depth, Nat.lt_succ_iff]
  induction items with
  | nil => cases member
  | cons w items ih =>
    rw [depthOfItems]
    obtain rfl | later := List.mem_cons.1 member
    · exact Nat.le_max_left _ _
    · exact Nat.le_trans (ih later) (Nat.le_max_right _ _)

/-! ## Values as they are read back -/

theorem normalItems_eq (vs : List Value) : normalItems vs = vs.map normal := by
  induction vs with
  | nil => rfl
  | cons v vs ih => rw [normalItems, ih, List.map_cons]

theorem normalFields_eq (fs : List (String × Value)) : normalFields fs = Dict.mapValues normal fs := by
  induction fs with
  | nil => rfl
  | cons f fs ih =>
    obtain ⟨k, v⟩ := f
    rw [normalFields, ih]
    rfl

theorem Canonical.normal {v : Value} (canonical : v.Canonical) : v.normal = v := by
  induction canonical with
  | null => rfl
  | bool => rfl
  | num => rfl
  | str => rfl
  | @arr items _ ih =>
    rw [Value.normal, normalItems_eq, List.map_congr_left ih, List.map_id']
  | @obj fields sorted _ ih =>
    have same : Dict.mapValues Value.normal fields = fields := by
      unfold Dict.mapValues
      rw [List.map_congr_left fun e member => by rw [ih e member], List.map_id']
    rw [Value.normal, normalFields_eq, same, Dict.ofEntries_of_sorted sorted]

end Value

/-- An unquoted scalar is the value for every reader. -/
def Scalar.shows (s : String) (v : Value) : Bool :=
  decide (value? s = some v) &&
    match v with
    | .null => isAbsent s
    | .num n => word? s == n.toWord?
    | _ => true

namespace Tree

mutual

/-- The parts of the document are the parts of a written value. -/
def shows : Tree → Value → Bool
  | .text s, v => v == .str s
  | .bare s, v => Scalar.shows s v
  | .list items, .arr vs => showItems items vs
  | .dict entries, .obj fields => showFields entries fields
  | _, _ => false

/-- The parts of a list are those of written values. -/
def showItems : List Tree → List Value → Bool
  | [], [] => true
  | t :: ts, v :: vs => shows t v && showItems ts vs
  | _, _ => false

/-- The entries of a mapping are written fields. -/
def showFields : List (String × Tree) → List (String × Value) → Bool
  | [], [] => true
  | (k, t) :: es, (k', v) :: fs => k == k' && shows t v && showFields es fs
  | _, _ => false

end

mutual

/-- The value of a document that shows a written value. -/
theorem value?_of_shows : ∀ {t : Tree} {v : Value}, t.shows v = true → t.value? = some v.normal
  | .text s, v, shown => by
    obtain rfl := eq_of_beq shown
    rfl
  | .bare s, v, shown => by
    obtain ⟨own, _⟩ := Bool.and_eq_true_iff.1 shown
    have read := of_decide_eq_true own
    obtain rfl | ⟨_, rfl, _⟩ | ⟨_, rfl⟩ | rfl := Scalar.value?_cases read
    all_goals exact read
  | .list items, .arr vs, shown => by
    rw [value?, values?_of_shows shown, Value.normal]
    rfl
  | .dict entries, .obj fields, shown => by
    rw [value?, fields?_of_shows shown, Value.normal]
    rfl

theorem values?_of_shows : ∀ {ts : List Tree} {vs : List Value}, showItems ts vs = true →
    values? ts = some (Value.normalItems vs)
  | [], [], _ => rfl
  | t :: ts, v :: vs, shown => by
    obtain ⟨first, rest⟩ := Bool.and_eq_true_iff.1 shown
    rw [values?, value?_of_shows first, values?_of_shows rest]
    rfl

theorem fields?_of_shows : ∀ {es : List (String × Tree)} {fs : List (String × Value)},
    showFields es fs = true → fields? es = some (Value.normalFields fs)
  | [], [], _ => rfl
  | (k, t) :: es, (k', v) :: fs, shown => by
    simp only [showFields, Bool.and_eq_true, beq_iff_eq] at shown
    obtain ⟨⟨rfl, first⟩, rest⟩ := shown
    rw [fields?, value?_of_shows first, fields?_of_shows rest]
    rfl

end

mutual

/-- A document is nested as deeply as the value that it shows. -/
theorem depth_of_shows : ∀ {t : Tree} {v : Value}, t.shows v = true → t.depth = v.depth
  | .text s, v, shown => by
    obtain rfl := eq_of_beq shown
    rfl
  | .bare s, v, shown => by
    obtain ⟨own, _⟩ := Bool.and_eq_true_iff.1 shown
    obtain rfl | ⟨_, rfl, _⟩ | ⟨_, rfl⟩ | rfl := Scalar.value?_cases (of_decide_eq_true own)
    all_goals rfl
  | .list items, .arr vs, shown => congrArg (· + 1) (depthOfAll_of_shows shown)
  | .dict entries, .obj fields, shown => congrArg (· + 1) (depthOfEntries_of_shows shown)

theorem depthOfAll_of_shows : ∀ {ts : List Tree} {vs : List Value}, showItems ts vs = true →
    depthOfAll ts = Value.depthOfItems vs
  | [], [], _ => rfl
  | t :: ts, v :: vs, shown => by
    obtain ⟨first, rest⟩ := Bool.and_eq_true_iff.1 shown
    rw [depthOfAll, Value.depthOfItems, depth_of_shows first, depthOfAll_of_shows rest]

theorem depthOfEntries_of_shows : ∀ {es : List (String × Tree)} {fs : List (String × Value)},
    showFields es fs = true → depthOfEntries es = Value.depthOfFields fs
  | [], [], _ => rfl
  | (k, t) :: es, (k', v) :: fs, shown => by
    simp only [showFields, Bool.and_eq_true, beq_iff_eq] at shown
    obtain ⟨⟨_, first⟩, rest⟩ := shown
    rw [depthOfEntries, Value.depthOfFields, depth_of_shows first, depthOfEntries_of_shows rest]

end

mutual

/-- Where a document shows a value, only null is null. -/
theorem leaves_of_shows : ∀ {t : Tree} {v : Value}, t.shows v = true → t.Leaves IsDefinite
  | .text s, v, _ => .leaf rfl nofun
  | .bare s, v, shown => by
    obtain ⟨own, more⟩ := Bool.and_eq_true_iff.1 shown
    refine .leaf rfl fun null => ?_
    rw [value?, of_decide_eq_true own] at null
    cases null
    exact more
  | .list items, .arr vs, shown => .list (forall_leaves_of_shows shown)
  | .dict entries, .obj fields, shown => .dict (forall_entries_of_shows shown)

theorem forall_leaves_of_shows : ∀ {ts : List Tree} {vs : List Value}, showItems ts vs = true →
    ∀ t ∈ ts, t.Leaves IsDefinite
  | [], [], _ => List.forall_mem_nil _
  | t :: ts, v :: vs, shown => by
    obtain ⟨first, rest⟩ := Bool.and_eq_true_iff.1 shown
    exact List.forall_mem_cons.2 ⟨leaves_of_shows first, forall_leaves_of_shows rest⟩

theorem forall_entries_of_shows : ∀ {es : List (String × Tree)} {fs : List (String × Value)},
    showFields es fs = true → ∀ e ∈ es, e.2.Leaves IsDefinite
  | [], [], _ => List.forall_mem_nil _
  | (k, t) :: es, (k', v) :: fs, shown => by
    simp only [showFields, Bool.and_eq_true] at shown
    exact List.forall_mem_cons.2 ⟨leaves_of_shows shown.1.2, forall_entries_of_shows shown.2⟩

end

variable {t : Tree}

theorem shows_arr {vs : List Value} (shown : t.shows (.arr vs) = true) :
    ∃ ts, t = .list ts ∧ List.Forall₂ (fun u v => u.shows v = true) ts vs := by
  cases t with
  | list ts =>
    refine ⟨ts, rfl, ?_⟩
    simp only [shows] at shown
    induction ts generalizing vs with
    | nil => cases vs <;> simp_all [showItems]
    | cons t ts ih =>
      cases vs with
      | nil => simp [showItems] at shown
      | cons v vs =>
        obtain ⟨first, rest⟩ := Bool.and_eq_true_iff.1 shown
        exact .cons first (ih rest)
  | bare s =>
    obtain ⟨own, _⟩ := Bool.and_eq_true_iff.1 shown
    exact absurd (Scalar.value?_cases (of_decide_eq_true own)) (by simp)
  | text s => cases eq_of_beq shown
  | _ => simp [shows] at shown

theorem shows_obj {fs : List (String × Value)} (shown : t.shows (.obj fs) = true) :
    ∃ es, t = .dict es ∧ List.Forall₂ (fun e f => e.1 = f.1 ∧ e.2.shows f.2 = true) es fs := by
  cases t with
  | dict es =>
    refine ⟨es, rfl, ?_⟩
    simp only [shows] at shown
    induction es generalizing fs with
    | nil => cases fs <;> simp_all [showFields]
    | cons e es ih =>
      cases fs with
      | nil => simp [showFields] at shown
      | cons f fs =>
        obtain ⟨first, rest⟩ := Bool.and_eq_true_iff.1 shown
        obtain ⟨key, own⟩ := Bool.and_eq_true_iff.1 first
        exact .cons ⟨eq_of_beq key, own⟩ (ih rest)
  | bare s =>
    obtain ⟨own, _⟩ := Bool.and_eq_true_iff.1 shown
    exact absurd (Scalar.value?_cases (of_decide_eq_true own)) (by simp)
  | text s => cases eq_of_beq shown
  | _ => simp [shows] at shown

/-! ## Reading back -/

variable {α : Type} {read : Tree → Option α}

/-- Every document that shows `v` is read as `a`. -/
def Restores (read : Tree → Option α) (v : Value) (a : α) : Prop :=
  ∀ t : Tree, t.shows v = true → read t = some a

theorem restores_text (s : String) : Restores text? (.str s) s :=
  fun _ shown => text?_of_value? (value?_of_shows shown)

theorem restores_bool (b : Bool) : Restores bool? (.bool b) b :=
  fun _ shown => bool?_of_value? (value?_of_shows shown)

theorem restores_word {n : Nat} (small : Decimal.isWord n = true) :
    Restores word? (.nat n) n := by
  intro t shown
  cases t with
  | bare s =>
    obtain ⟨_, word⟩ := Bool.and_eq_true_iff.1 shown
    rw [word?, eq_of_beq word, Number.toWord?, if_pos small, Int.toNat_natCast]
  | text s => cases eq_of_beq shown
  | _ => simp [shows, Value.nat] at shown

theorem restores_value {v : Value} (canonical : v.Canonical) : Restores value? v v := by
  intro t shown
  rw [value?_of_shows shown, canonical.normal]

theorem restores_listOf {vs : List Value} {xs : List α}
    (each : List.Forall₂ (Restores read) vs xs) : Restores (listOf? read) (.arr vs) xs := by
  intro t shown
  obtain ⟨ts, rfl, pairs⟩ := shows_arr shown
  rw [listOf?, list?, Option.bind_some, mapM_eq_some_iff]
  clear shown
  induction each generalizing ts with
  | nil => cases pairs; exact .nil
  | cons first _ ih =>
    cases pairs with
    | cons shown others => exact .cons (first _ shown) (ih _ others)

theorem restores_texts (xs : List String) : Restores (listOf? text?) (Value.texts xs) xs :=
  restores_listOf (List.forall₂_map_left_iff.2 (List.forall₂_same.2 fun s _ => restores_text s))

theorem restores_dictOf {write : α → Value} {d : Dict α} (sorted : Dict.Sorted d)
    (each : ∀ e ∈ d, Restores read (write e.2) e.2) :
    Restores (dictOf? read) (Value.ofDict write d) d := by
  intro t shown
  obtain ⟨es, rfl, pairs⟩ := shows_obj shown
  have all : (es.mapM fun e => (read e.2).map fun a => (e.1, a)) = some d := by
    rw [mapM_eq_some_iff]
    clear shown sorted
    rw [Dict.mapValues, List.forall₂_map_right_iff] at pairs
    induction pairs with
    | nil => exact .nil
    | @cons e f _ _ pair _ ih =>
      obtain ⟨first, others⟩ := List.forall_mem_cons.1 each
      refine .cons ?_ (ih others)
      rw [first _ pair.2, pair.1]
      rfl
  simp only [dictOf?, entries?, Option.bind_eq_bind, Option.bind_some, all]
  rw [Dict.ofEntries_of_sorted sorted]

theorem restores_object {d : Dict Value} (canonical : (Value.obj d).Canonical) :
    Restores object? (.obj d) d := by
  cases canonical with
  | obj sorted inside =>
    have whole : Value.obj d = Value.ofDict id d := by simp [Value.ofDict, Dict.mapValues]
    rw [whole]
    exact restores_dictOf sorted fun e member => restores_value (inside e member)

theorem restores_null : Restores (optional? read) .null none := by
  intro t shown
  rw [optional?_eq]
  cases t with
  | bare s =>
    obtain ⟨_, absent⟩ := Bool.and_eq_true_iff.1 shown
    exact if_pos absent
  | text s => cases eq_of_beq shown
  | _ => simp [shows] at shown

theorem restores_optional {v : Value} {a : α} (restores : Restores read v a) (some : v ≠ .null) :
    Restores (optional? read) v (.some a) := by
  intro t shown
  have present : ¬ t.isAbsent = true := by
    intro absent
    cases t with
    | bare s =>
      obtain ⟨own, _⟩ := Bool.and_eq_true_iff.1 shown
      have null : Scalar.value? s = .some .null := if_pos absent
      exact some (Option.some.inj ((of_decide_eq_true own).symm.trans null))
    | value v => simp [shows] at shown
    | _ => cases absent
  rw [optional?_eq, if_neg present, restores t shown]
  rfl

theorem restores_orNull {write : α → Value} {o : Option α}
    (each : ∀ a, o = some a → Restores read (write a) a ∧ write a ≠ .null) :
    Restores (optional? read) (Value.orNull o write) o := by
  cases o with
  | none => exact restores_null
  | some a => exact restores_optional (each a rfl).1 (each a rfl).2

end Tree

namespace Record

open DataMigration.Tree

variable {α : Type} {r : Record} {name : String} {read : Tree → Option α} {o : Option Value}

/-- The part under a name shows what is written there. -/
def Part (r : Record) (name : String) (o : Option Value) : Prop :=
  Option.Rel (fun t v => t.shows v = true) (r.part? name) o

theorem restores_required {v : Value} {a : α} (part : r.Part name (some v))
    (restores : Restores read v a) : r.required name read = some a := by
  unfold Part at part
  unfold required
  generalize r.part? name = found at part
  cases part with
  | some shown => exact restores _ shown

theorem restores_withDefault {default a : α} (part : r.Part name o)
    (missing : o = none → a = default) (restores : ∀ v, o = some v → Restores read v a) :
    r.withDefault name default read = some a := by
  unfold Part at part
  unfold withDefault
  generalize r.part? name = found at part
  cases part with
  | none => rw [missing rfl]
  | some shown => exact restores _ rfl _ shown

theorem restores_given {default a : α} {v : Value} (part : r.Part name (some v))
    (restores : Restores read v a) : r.withDefault name default read = some a :=
  restores_withDefault part nofun fun _ same => Option.some.inj same ▸ restores

/-- A field that is left out where it has its default. -/
theorem restores_unless {c : Prop} [Decidable c] {default a : α} {v : Value}
    (part : r.Part name (if c then none else some v)) (usual : c → a = default)
    (restores : Restores read v a) : r.withDefault name default read = some a := by
  split at part
  · rename_i same
    exact restores_withDefault part (fun _ => usual same) nofun
  · exact restores_given part restores

theorem restores_textField {text : String}
    (part : r.Part name (if text = "" then none else some (.str text))) :
    r.withDefault name "" Tree.text? = some text :=
  restores_unless part id (restores_text text)

/-- A flag that is written only where it is set. -/
theorem restores_flag {b : Bool} (part : r.Part name (if b then some (.bool true) else none)) :
    r.withDefault name false Tree.bool? = some b := by
  cases b with
  | true => exact restores_given part (restores_bool true)
  | false => exact restores_withDefault part (fun _ => rfl) nofun

theorem restores_fieldIf {write : α → Value} {value : Option α} (part : r.Part name (value.map write))
    (each : ∀ a, value = some a → Restores read (write a) a ∧ write a ≠ .null) :
    r.optional name read = some value := by
  cases value with
  | none => exact restores_withDefault part (fun _ => rfl) nofun
  | some a => exact restores_given part (restores_optional (each a rfl).1 (each a rfl).2)

/-- An optional value is read back unless it is null. -/
theorem restores_present (part : r.Part name o) (canonical : ∀ v, o = some v → v.Canonical) :
    r.optional name Tree.value? = some (Value.present o) := by
  refine restores_withDefault part (fun missing => by rw [missing]; rfl) fun v given => ?_
  by_cases null : v = .null
  · rw [given, null]
    exact restores_null
  · rw [Value.present_eq_some_iff.2 ⟨given, null⟩]
    exact restores_optional (restores_value (canonical v given)) null

/-- A document that shows written fields is a record of them. -/
theorem exists_of_shows {shape : List FieldName} (apart : FieldName.Apart shape)
    {fields : List (String × Value)} (once : (Dict.keys fields).Nodup)
    (plain : ∀ f ∈ shape, ∀ other ∈ f.alternative, Dict.get? fields other = none) {t : Tree}
    (shown : t.shows (.obj fields) = true) :
    ∃ r, ofTree? shape t = some r ∧ ∀ f ∈ shape, r.Part f.name (Dict.get? fields f.name) := by
  obtain ⟨entries, rfl, pairs⟩ := shows_obj shown
  have keys := Dict.keys_eq_of_forall₂ (R := fun (t : Tree) v => t.shows v = true) pairs
  have absent : ∀ f ∈ shape, ∀ other ∈ f.alternative, Dict.get? entries other = none := by
    intro f own other second
    have missing := plain f own other second
    rwa [Dict.get?_eq_none_iff, ← keys, ← Dict.get?_eq_none_iff] at missing
  have distinct := (distinct_known_iff apart (keys ▸ once)).2 fun f own other second =>
    .inr (absent f own other second)
  refine ⟨_, (ofTree?_of_entries rfl).trans (if_pos distinct), fun f own => ?_⟩
  unfold Part
  cases second : f.alternative with
  | none =>
    rw [part?_known apart own second]
    exact Dict.rel_get? pairs f.name
  | some other =>
    have missing := absent f own other second
    rw [part?_known_of_alternative apart own second (.inr missing), missing, Option.or_none]
    exact Dict.rel_get? pairs f.name

end Record

end DataMigration
