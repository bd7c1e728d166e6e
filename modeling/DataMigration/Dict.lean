/-!
# Dictionaries with text keys

A dictionary is the list of its entries. `insert` keeps the keys in increasing order of their code
points, so a dictionary that is built from `[]` by `insert` and `erase` is sorted and has each key
once; the laws of `get?` hold for every list of entries.
-/

namespace DataMigration

/-- Entries by key. -/
abbrev Dict (α : Type) := List (String × α)

namespace Dict

variable {α β : Type}

/-- The value of the first entry with key `k`. -/
def get? : Dict α → String → Option α
  | [], _ => none
  | (k', v) :: d, k => if k' = k then some v else get? d k

/-- Sets the value of `k`, which takes its place in the order of the keys if it is new. -/
def insert : Dict α → String → α → Dict α
  | [], k, v => [(k, v)]
  | (k', v') :: d, k, v =>
    if k' = k then (k, v) :: d
    else if k < k' then (k, v) :: (k', v') :: d
    else (k', v') :: insert d k v

/-- With another value in the first entry of key `k`, if there is one. -/
def replace? : Dict α → String → α → Option (Dict α)
  | [], _, _ => none
  | (k', v') :: d, k, v =>
    if k' = k then some ((k, v) :: d) else (replace? d k v).map ((k', v') :: ·)

/-- Sets the value of `k` where its entry stands; a new key takes its place in the order. -/
def put (d : Dict α) (k : String) (v : α) : Dict α := (replace? d k v).getD (insert d k v)

/-- Without the entries of key `k`. -/
def erase (d : Dict α) (k : String) : Dict α := d.filter fun e => e.1 != k

/-- Entries given in any order; of two with one key the later counts. -/
def ofEntries (entries : List (String × α)) : Dict α :=
  entries.foldl (fun d e => insert d e.1 e.2) []

/-- The keys in order. -/
def keys (d : Dict α) : List String := d.map (·.1)

/-- The values in the order of their keys. -/
def values (d : Dict α) : List α := d.map (·.2)

/-- The key has an entry. -/
def contains (d : Dict α) (k : String) : Bool := d.any fun e => e.1 == k

/-- Changes the value of `k`, starting from `new` when there is none. -/
def upsert (d : Dict α) (k : String) (new : α) (f : α → α) : Dict α :=
  insert d k (f ((get? d k).getD new))

/-- The same keys with other values. -/
def mapValues (f : α → β) (d : Dict α) : Dict β := d.map fun e => (e.1, f e.2)

/-- The keys increase strictly. -/
def Sorted (d : Dict α) : Prop := d.Pairwise fun a b => a.1 < b.1

@[simp] theorem get?_nil (k : String) : get? ([] : Dict α) k = none := rfl

theorem get?_insert_self (d : Dict α) (k : String) (v : α) : get? (insert d k v) k = some v := by
  induction d with
  | nil => simp [insert, get?]
  | cons e d ih =>
    obtain ⟨k', v'⟩ := e
    simp only [insert]
    split
    · simp [get?]
    · split
      · simp [get?]
      · rename_i h _
        simp [get?, h, ih]

theorem get?_insert_of_ne (d : Dict α) {k k' : String} (v : α) (h : k' ≠ k) :
    get? (insert d k v) k' = get? d k' := by
  induction d with
  | nil => simp [insert, get?, Ne.symm h]
  | cons e d ih =>
    obtain ⟨k₀, v₀⟩ := e
    simp only [insert]
    split
    · rename_i h₀
      simp [get?, Ne.symm h, h₀]
    · split
      · simp [get?, Ne.symm h]
      · simp [get?, ih]

theorem replace?_of_get? {d : Dict α} {k : String} {v : α} (h : get? d k = some v) :
    replace? d k v = some d := by
  induction d with
  | nil => cases h
  | cons e d ih =>
    obtain ⟨k', v'⟩ := e
    simp only [get?] at h
    simp only [replace?]
    split at h
    · rename_i same
      cases h
      rw [if_pos same, same]
    · rename_i other
      rw [if_neg other, ih h]
      rfl

/-- Putting back the value that is there changes nothing. -/
theorem put_of_get? {d : Dict α} {k : String} {v : α} (h : get? d k = some v) :
    put d k v = d := by
  rw [put, replace?_of_get? h]
  rfl

theorem contains_eq_isSome_get? (d : Dict α) (k : String) : contains d k = (get? d k).isSome := by
  induction d with
  | nil => rfl
  | cons e d ih =>
    obtain ⟨k', v⟩ := e
    by_cases h : k' = k
    · simp [contains, get?, h]
    · simp only [contains, List.any_cons, get?, if_neg h, beq_eq_false_iff_ne.2 h, Bool.false_or]
      exact ih

end Dict

end DataMigration
