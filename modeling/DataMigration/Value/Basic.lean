import DataMigration.Dict
import DataMigration.Value.Number

/-!
# Payload values

The dynamic values that records are made of. Objects read from documents are dictionaries with
increasing keys; objects written as documents keep the order in which their fields are declared.
-/

namespace DataMigration

/-- A value of a document. -/
inductive Value where
  | null
  | bool (b : Bool)
  | num (n : Number)
  | str (s : String)
  | arr (items : List Value)
  | obj (fields : List (String × Value))
  deriving Inhabited

namespace Value

mutual

/-- Equality of values. -/
def beq : Value → Value → Bool
  | .null, .null => true
  | .bool a, .bool b => a == b
  | .num a, .num b => a == b
  | .str a, .str b => a == b
  | .arr a, .arr b => beqItems a b
  | .obj a, .obj b => beqFields a b
  | _, _ => false

/-- Equality of lists of values. -/
def beqItems : List Value → List Value → Bool
  | [], [] => true
  | a :: as, b :: bs => beq a b && beqItems as bs
  | _, _ => false

/-- Equality of lists of fields. -/
def beqFields : List (String × Value) → List (String × Value) → Bool
  | [], [] => true
  | (k, a) :: as, (l, b) :: bs => k == l && beq a b && beqFields as bs
  | _, _ => false

end

mutual

theorem beq_iff : ∀ a b : Value, beq a b = true ↔ a = b
  | .null, b => by cases b <;> simp [beq]
  | .bool _, b => by cases b <;> simp [beq]
  | .num _, b => by cases b <;> simp [beq]
  | .str _, b => by cases b <;> simp [beq]
  | .arr as, b => by
    cases b with
    | arr bs => simp [beq, beqItems_iff as bs]
    | _ => simp [beq]
  | .obj as, b => by
    cases b with
    | obj bs => simp [beq, beqFields_iff as bs]
    | _ => simp [beq]

theorem beqItems_iff : ∀ as bs : List Value, beqItems as bs = true ↔ as = bs
  | [], bs => by cases bs <;> simp [beqItems]
  | a :: as, bs => by
    cases bs with
    | nil => simp [beqItems]
    | cons b bs => simp [beqItems, beq_iff a b, beqItems_iff as bs]

theorem beqFields_iff : ∀ as bs : List (String × Value), beqFields as bs = true ↔ as = bs
  | [], bs => by cases bs <;> simp [beqFields]
  | (k, a) :: as, bs => by
    cases bs with
    | nil => simp [beqFields]
    | cons b bs =>
      obtain ⟨l, b⟩ := b
      simp [beqFields, beq_iff a b, beqFields_iff as bs, and_assoc]

end

instance : DecidableEq Value := fun a b => decidable_of_iff _ (beq_iff a b)

mutual

/-- Equality of data: as equality of values, but the two float zeros are equal. -/
def same : Value → Value → Bool
  | .null, .null => true
  | .bool a, .bool b => a == b
  | .num a, .num b => a.same b
  | .str a, .str b => a == b
  | .arr a, .arr b => sameItems a b
  | .obj a, .obj b => sameFields a b
  | _, _ => false

/-- Equality of data on lists of values. -/
def sameItems : List Value → List Value → Bool
  | [], [] => true
  | a :: as, b :: bs => same a b && sameItems as bs
  | _, _ => false

/-- Equality of data on lists of fields. -/
def sameFields : List (String × Value) → List (String × Value) → Bool
  | [], [] => true
  | (k, a) :: as, (l, b) :: bs => k == l && same a b && sameFields as bs
  | _, _ => false

end

mutual

/-- How deeply the parts of a value are nested. -/
def depth : Value → Nat
  | .arr items => depthOfItems items + 1
  | .obj fields => depthOfFields fields + 1
  | _ => 0

/-- The greatest depth in a list of values. -/
def depthOfItems : List Value → Nat
  | [] => 0
  | v :: vs => max (depth v) (depthOfItems vs)

/-- The greatest depth in a list of fields. -/
def depthOfFields : List (String × Value) → Nat
  | [] => 0
  | (_, v) :: fs => max (depth v) (depthOfFields fs)

end

/-- A whole number as a value. -/
def nat (n : Nat) : Value := .num (.int n)

/-- A float as a value; infinities and what is not a number become null. -/
def ofBinary64 (x : Binary64) : Value := ((Number.ofBinary64? x).map Value.num).getD .null

/-- A machine float as a value. -/
def ofFloat (x : Float) : Value := ofBinary64 (Binary64.ofFloat x)

/-- The value is null. -/
def isNull : Value → Bool
  | .null => true
  | _ => false

/-- The text of a text value. -/
def asText? : Value → Option String
  | .str s => some s
  | _ => none

/-- The elements of an array. -/
def asItems? : Value → Option (List Value)
  | .arr items => some items
  | _ => none

/-- The fields of an object. -/
def asFields? : Value → Option (Dict Value)
  | .obj fields => some fields
  | _ => none

/-- A natural number in the unsigned 64-bit range. -/
def asWord? : Value → Option Nat
  | .num n => n.toWord?
  | _ => none

/-- The member `k` of an object. -/
def member? (v : Value) (k : String) : Option Value :=
  match v with
  | .obj fields => Dict.get? fields k
  | _ => none

/-- The name of the kind of a value. -/
def kind : Value → String
  | .null => "null"
  | .bool _ => "boolean"
  | .num n => if n.isFloat then "decimal" else "integer"
  | .str _ => "string"
  | .arr _ => "array"
  | .obj _ => "object"

/-- A value that is present and not null. -/
def present (v : Option Value) : Option Value := v.filter fun v => !v.isNull

theorem present_eq_some_iff {v : Option Value} {w : Value} :
    present v = some w ↔ v = some w ∧ w ≠ .null := by
  cases v with
  | none => simp [present]
  | some u =>
    simp only [present, Option.filter_eq_some_iff, Option.some.injEq]
    constructor
    · rintro ⟨rfl, h⟩
      exact ⟨rfl, by rintro rfl; simp [isNull] at h⟩
    · rintro ⟨rfl, h⟩
      exact ⟨rfl, by cases u <;> simp_all [isNull]⟩

end Value

end DataMigration
