import DataMigration.Document.Tree
import DataMigration.Proofs.Dict
import Mathlib.Data.List.Forall2

/-!
# Values that documents hold

A value that is read from a document has the keys of its objects in order, each once, at every
depth. What readers give comes from the parts of the document.
-/

namespace DataMigration

theorem mapM_eq_some_iff {α β : Type} {f : α → Option β} {xs : List α} {ys : List β} :
    xs.mapM f = some ys ↔ List.Forall₂ (fun x y => f x = some y) xs ys := by
  induction xs generalizing ys with
  | nil => simp [eq_comm]
  | cons x xs ih =>
    rw [List.mapM_cons]
    constructor
    · intro all
      obtain ⟨y, first, rest⟩ := Option.bind_eq_some_iff.1 all
      obtain ⟨ys, others, same⟩ := Option.bind_eq_some_iff.1 rest
      cases same
      exact .cons first (ih.1 others)
    · rintro (_ | ⟨first, others⟩)
      simp [first, ih.2 others]

theorem exists_of_mem_mapM {α β : Type} {f : α → Option β} {xs : List α} {ys : List β}
    (all : xs.mapM f = some ys) {y : β} (member : y ∈ ys) : ∃ x ∈ xs, f x = some y := by
  have pairs := mapM_eq_some_iff.1 all
  clear all
  induction pairs with
  | nil => cases member
  | @cons x _ xs _ first _ ih =>
    obtain rfl | later := List.mem_cons.1 member
    · exact ⟨x, List.mem_cons_self, first⟩
    · obtain ⟨x, among, found⟩ := ih later
      exact ⟨x, List.mem_cons_of_mem _ among, found⟩

theorem mem_of_mapM {α β : Type} {f : α → Option β} {xs : List α} {ys : List β}
    (all : xs.mapM f = some ys) {x : α} (member : x ∈ xs) {y : β} (own : f x = some y) : y ∈ ys := by
  have pairs := mapM_eq_some_iff.1 all
  clear all
  induction pairs with
  | nil => cases member
  | cons first _ ih =>
    obtain rfl | later := List.mem_cons.1 member
    · rw [own] at first
      exact Option.some.inj first ▸ List.mem_cons_self
    · exact List.mem_cons_of_mem _ (ih later)

theorem isSome_mapM_iff {α β : Type} {f : α → Option β} {xs : List α} :
    (xs.mapM f).isSome = true ↔ ∀ x ∈ xs, (f x).isSome = true := by
  induction xs with
  | nil => simp
  | cons x xs ih =>
    rw [List.forall_mem_cons, ← ih, List.mapM_cons]
    cases f x <;> cases xs.mapM f <;> simp

namespace Scalar

/-- What an unquoted scalar can stand for when nothing is expected. -/
theorem value?_cases {s : String} {v : Value} (read : value? s = some v) :
    v = .null ∨ (∃ b, v = .bool b ∧ bool? s = some b) ∨ (∃ n, v = .num n) ∨ v = .str s := by
  have float : ∀ x : Binary64, Value.ofBinary64 x = .null ∨ ∃ n, Value.ofBinary64 x = .num n := by
    intro x
    unfold Value.ofBinary64
    cases Number.ofBinary64? x with
    | none => exact .inl rfl
    | some n => exact .inr ⟨n, rfl⟩
  unfold value? at read
  split at read
  · cases read
    exact .inl rfl
  · split at read
    · rename_i b truth
      cases read
      exact .inr (.inl ⟨b, rfl, truth⟩)
    · split at read
      · split at read
        · cases read
          exact .inr (.inr (.inl ⟨_, rfl⟩))
        · split at read
          · cases read
          · obtain ⟨x, _, rfl⟩ := Option.map_eq_some_iff.1 read
            exact (float _).elim .inl fun num => .inr (.inr (.inl num))
      · split at read
        · cases read
          exact .inr (.inr (.inr rfl))
        · split at read
          · cases read
            exact (float _).elim .inl fun num => .inr (.inr (.inl num))
          · cases read
            exact .inr (.inr (.inr rfl))

end Scalar

namespace Value

/-- Objects are dictionaries with increasing keys, at every depth. -/
inductive Canonical : Value → Prop
  | null : Canonical .null
  | bool (b : Bool) : Canonical (.bool b)
  | num (n : Number) : Canonical (.num n)
  | str (s : String) : Canonical (.str s)
  | arr {items : List Value} (inside : ∀ v ∈ items, Canonical v) : Canonical (.arr items)
  | obj {fields : Dict Value} (sorted : Dict.Sorted fields)
      (inside : ∀ e ∈ fields, Canonical e.2) : Canonical (.obj fields)

instance (d : Dict Value) : Decidable (Dict.Sorted d) :=
  inferInstanceAs (Decidable (List.Pairwise _ d))

mutual

/-- The keys of all objects increase. -/
def isCanonical : Value → Bool
  | .arr items => areCanonical items
  | .obj fields => decide (Dict.Sorted fields) && haveCanonical fields
  | _ => true

/-- All values of a list are canonical. -/
def areCanonical : List Value → Bool
  | [] => true
  | v :: vs => isCanonical v && areCanonical vs

/-- All values of fields are canonical. -/
def haveCanonical : List (String × Value) → Bool
  | [] => true
  | (_, v) :: fs => isCanonical v && haveCanonical fs

end

mutual

theorem isCanonical_iff : ∀ v : Value, isCanonical v = true ↔ Canonical v
  | .null => iff_of_true rfl .null
  | .bool b => iff_of_true rfl (.bool b)
  | .num n => iff_of_true rfl (.num n)
  | .str s => iff_of_true rfl (.str s)
  | .arr items => by
    rw [isCanonical, areCanonical_iff items]
    exact ⟨.arr, fun | .arr inside => inside⟩
  | .obj fields => by
    rw [isCanonical, Bool.and_eq_true, decide_eq_true_iff, haveCanonical_iff fields]
    exact ⟨fun both => .obj both.1 both.2, fun | .obj sorted inside => ⟨sorted, inside⟩⟩

theorem areCanonical_iff : ∀ vs : List Value, areCanonical vs = true ↔ ∀ v ∈ vs, Canonical v
  | [] => by simp [areCanonical]
  | v :: vs => by simp [areCanonical, isCanonical_iff v, areCanonical_iff vs]

theorem haveCanonical_iff : ∀ fs : List (String × Value),
    haveCanonical fs = true ↔ ∀ f ∈ fs, Canonical f.2
  | [] => by simp [haveCanonical]
  | (_, v) :: fs => by simp [haveCanonical, isCanonical_iff v, haveCanonical_iff fs]

end

instance (v : Value) : Decidable v.Canonical := decidable_of_iff _ (isCanonical_iff v)

end Value

namespace Tree

/-- A part without parts. -/
def isLeaf : Tree → Bool
  | .value (.arr _) => false
  | .value (.obj _) => false
  | .list _ => false
  | .dict _ => false
  | _ => true

/-- A document that is made of lists, mappings and parts without parts that satisfy `P`. -/
inductive Leaves (P : Tree → Prop) : Tree → Prop
  | leaf {t : Tree} (single : t.isLeaf = true) (own : P t) : Leaves P t
  | list {items : List Tree} (inside : ∀ t ∈ items, Leaves P t) : Leaves P (.list items)
  | dict {entries : List (String × Tree)} (inside : ∀ e ∈ entries, Leaves P e.2) :
      Leaves P (.dict entries)

/-- Nothing stands here, or null does. -/
def isAbsent : Tree → Bool
  | .value .null => true
  | .bare s => Scalar.isAbsent s
  | _ => false

/-- A part that is null only if it is absent. -/
def IsDefinite (t : Tree) : Prop := t.value? = some .null → t.isAbsent = true

variable {α : Type} {t : Tree}

theorem optional?_eq (read : Tree → Option α) (t : Tree) :
    optional? read t = if t.isAbsent then some none else (read t).map some := by
  cases t with
  | value v => cases v <;> rfl
  | _ => rfl

theorem values?_eq (ts : List Tree) : values? ts = ts.mapM value? := by
  induction ts with
  | nil => rfl
  | cons t ts ih =>
    rw [values?, ih, List.mapM_cons]
    rfl

theorem fields?_eq (es : List (String × Tree)) :
    fields? es = es.mapM fun e => (value? e.2).map fun v => (e.1, v) := by
  induction es with
  | nil => rfl
  | cons e es ih =>
    obtain ⟨k, t⟩ := e
    rw [fields?, ih, List.mapM_cons]
    cases value? t <;> rfl

variable {P : Tree → Prop}

theorem canonical_of_isLeaf (single : t.isLeaf = true) {v : Value} (read : t.value? = some v) :
    v.Canonical := by
  cases t with
  | value w =>
    cases read
    cases v with
    | null => exact .null
    | bool b => exact .bool b
    | num n => exact .num n
    | str s => exact .str s
    | _ => cases single
  | text s =>
    cases read
    exact .str s
  | bare s =>
    obtain rfl | ⟨b, rfl, _⟩ | ⟨n, rfl⟩ | rfl := Scalar.value?_cases read
    · exact .null
    · exact .bool b
    · exact .num n
    · exact .str s
  | odd => cases read
  | _ => cases single

/-- The value of a document is canonical. -/
theorem Leaves.canonical (leaves : t.Leaves P) : ∀ v, t.value? = some v → v.Canonical := by
  induction leaves with
  | leaf single _ => exact fun v read => canonical_of_isLeaf single read
  | list _ ih =>
    intro v read
    obtain ⟨vs, all, rfl⟩ := Option.map_eq_some_iff.1 read
    rw [values?_eq] at all
    refine .arr fun w member => ?_
    obtain ⟨t, among, own⟩ := exists_of_mem_mapM all member
    exact ih t among w own
  | dict _ ih =>
    intro v read
    obtain ⟨fs, all, rfl⟩ := Option.map_eq_some_iff.1 read
    rw [fields?_eq] at all
    refine .obj (Dict.sorted_ofEntries fs) fun f member => ?_
    obtain ⟨e, among, pair⟩ := exists_of_mem_mapM all (Dict.mem_of_mem_ofEntries member)
    obtain ⟨w, own, rfl⟩ := Option.map_eq_some_iff.1 pair
    exact ih e among w own

theorem Leaves.definite (leaves : t.Leaves IsDefinite) : t.IsDefinite := by
  intro null
  cases leaves with
  | leaf _ own => exact own null
  | list _ => simp [value?] at null
  | dict _ => simp [value?] at null

theorem Leaves.list?_forall {items : List Tree} (leaves : t.Leaves P)
    (read : t.list? = some items) : ∀ u ∈ items, u.Leaves P := by
  unfold list? at read
  split at read
  · cases leaves with
    | leaf single _ => cases single
  · cases read
    cases leaves with
    | list inside => exact inside
    | leaf single _ => cases single
  · cases read
    exact List.forall_mem_nil _
  · cases read

theorem Leaves.entries?_forall {entries : List (String × Tree)} (leaves : t.Leaves P)
    (read : t.entries? = some entries) : ∀ e ∈ entries, e.2.Leaves P := by
  unfold entries? at read
  split at read
  · cases leaves with
    | leaf single _ => cases single
  · cases read
    cases leaves with
    | dict inside => exact inside
    | leaf single _ => cases single
  · cases read
    exact List.forall_mem_nil _
  · cases read

/-- What a reader of mappings gives is sorted, and each value comes from a part of the document. -/
theorem dictOf?_eq_some {read : Tree → Option α} {d : Dict α} (leaves : t.Leaves P)
    (given : dictOf? read t = some d) :
    Dict.Sorted d ∧ ∀ e ∈ d, ∃ u, u.Leaves P ∧ read u = some e.2 := by
  obtain ⟨entries, inside, rest⟩ := Option.bind_eq_some_iff.1 given
  obtain ⟨es, all, rest⟩ := Option.bind_eq_some_iff.1 rest
  cases rest
  refine ⟨Dict.sorted_ofEntries es, fun e member => ?_⟩
  obtain ⟨f, among, pair⟩ := exists_of_mem_mapM all (Dict.mem_of_mem_ofEntries member)
  obtain ⟨a, own, rfl⟩ := Option.map_eq_some_iff.1 pair
  exact ⟨f.2, leaves.entries?_forall inside f among, own⟩

theorem listOf?_eq_some {read : Tree → Option α} {xs : List α} (leaves : t.Leaves P)
    (given : listOf? read t = some xs) : ∀ x ∈ xs, ∃ u, u.Leaves P ∧ read u = some x := by
  obtain ⟨items, inside, all⟩ := Option.bind_eq_some_iff.1 given
  intro x member
  obtain ⟨u, among, own⟩ := exists_of_mem_mapM all member
  exact ⟨u, leaves.list?_forall inside u among, own⟩

theorem canonical_object? {fields : Dict Value} (leaves : t.Leaves P)
    (given : t.object? = some fields) : (Value.obj fields).Canonical := by
  obtain ⟨sorted, values⟩ := dictOf?_eq_some leaves given
  refine .obj sorted fun e member => ?_
  obtain ⟨u, own, read⟩ := values e member
  exact own.canonical _ read

theorem text?_of_value? {s : String} (holds : t.value? = some (.str s)) : t.text? = some s := by
  cases t with
  | value v => cases holds; rfl
  | text _ => cases holds; rfl
  | bare b =>
    obtain null | ⟨_, bool, _⟩ | ⟨_, num⟩ | str := Scalar.value?_cases holds
    · cases null
    · cases bool
    · cases num
    · cases str; rfl
  | list _ => simp [value?] at holds
  | dict _ => simp [value?] at holds
  | odd => cases holds

theorem exists_value_of_mem_list? {vs : List Value} {ts : List Tree} (holds : t.value? = some (.arr vs))
    (read : t.list? = some ts) {u : Tree} (member : u ∈ ts) : ∃ v ∈ vs, u.value? = some v := by
  cases t with
  | value v =>
    cases holds
    cases read
    obtain ⟨v, among, rfl⟩ := List.mem_map.1 member
    exact ⟨v, among, rfl⟩
  | list items =>
    cases read
    obtain ⟨_, all, same⟩ := Option.map_eq_some_iff.1 holds
    cases same
    rw [values?_eq] at all
    have own := isSome_mapM_iff.1 (Option.isSome_iff_exists.2 ⟨_, all⟩) u member
    obtain ⟨v, found⟩ := Option.isSome_iff_exists.1 own
    exact ⟨v, mem_of_mapM all member found, found⟩
  | text _ => cases holds
  | bare _ => exact absurd (Scalar.value?_cases holds) (by simp)
  | dict _ => simp [value?] at holds
  | odd => cases holds

theorem bool?_of_value? {b : Bool} (holds : t.value? = some (.bool b)) : t.bool? = some b := by
  cases t with
  | value v => cases holds; rfl
  | text _ => cases holds
  | bare s =>
    obtain null | ⟨_, bool, truth⟩ | ⟨_, num⟩ | str := Scalar.value?_cases holds
    · cases null
    · cases bool; exact truth
    · cases num
    · cases str
  | list _ => simp [value?] at holds
  | dict _ => simp [value?] at holds
  | odd => cases holds

end Tree

end DataMigration
