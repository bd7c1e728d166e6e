import DataMigration.Document.Scalar

/-!
# Documents as trees

What a document says before a reader decides which types it wants. A part that is a payload value
has its type; an unquoted scalar of a written document is `bare` and fits several. `odd` stands
for a part that fits no type, such as a mapping with lists as keys; it does no harm where nothing
reads it.
-/

namespace DataMigration

/-- A part of a document. -/
inductive Tree where
  | value (v : Value)
  | text (s : String)
  | bare (s : String)
  | list (items : List Tree)
  | dict (entries : List (String × Tree))
  | odd
  deriving Inhabited

namespace Tree

mutual

/-- The payload value that a document holds; of two entries with one key the later counts. -/
def value? : Tree → Option Value
  | .value v => some v
  | .text s => some (.str s)
  | .bare s => Scalar.value? s
  | .list items => (values? items).map Value.arr
  | .dict entries => (fields? entries).map fun fs => .obj (Dict.ofEntries fs)
  | .odd => none

/-- The values of a list of parts. -/
def values? : List Tree → Option (List Value)
  | [] => some []
  | t :: ts => do
    let v ← value? t
    let vs ← values? ts
    some (v :: vs)

/-- The fields of a list of entries, in their order. -/
def fields? : List (String × Tree) → Option (List (String × Value))
  | [] => some []
  | (k, t) :: es => do
    let v ← value? t
    let fs ← fields? es
    some ((k, v) :: fs)

end

mutual

/-- How deeply the parts of a document are nested. -/
def depth : Tree → Nat
  | .value v => v.depth
  | .list items => depthOfAll items + 1
  | .dict entries => depthOfEntries entries + 1
  | _ => 0

/-- The greatest depth in a list of parts. -/
def depthOfAll : List Tree → Nat
  | [] => 0
  | t :: ts => max (depth t) (depthOfAll ts)

/-- The greatest depth in a list of entries. -/
def depthOfEntries : List (String × Tree) → Nat
  | [] => 0
  | (_, t) :: es => max (depth t) (depthOfEntries es)

end

/-- A text: a scalar that is a text or has no quotes. -/
def text? : Tree → Option String
  | .value (.str s) => some s
  | .text s => some s
  | .bare s => some s
  | _ => none

/-- A truth value. -/
def bool? : Tree → Option Bool
  | .value (.bool b) => some b
  | .bare s => Scalar.bool? s
  | _ => none

/-- A natural number in the unsigned 64-bit range; floats do not fit. -/
def word? : Tree → Option Nat
  | .value (.num n) => n.toWord?
  | .bare s => Scalar.word? s
  | _ => none

/-- A floating-point number; integers fit. -/
def float? : Tree → Option Binary64
  | .value (.num n) => some (Binary64.ofFloat n.toFloat)
  | .bare s => Scalar.float? s
  | _ => none

/-- A list. A place that was left empty is an empty list. -/
def list? : Tree → Option (List Tree)
  | .value (.arr items) => some (items.map Tree.value)
  | .list items => some items
  | .bare "" => some []
  | _ => none

/-- The entries of a mapping in their order. A place that was left empty is an empty mapping. -/
def entries? : Tree → Option (List (String × Tree))
  | .value (.obj fields) => some (fields.map fun e => (e.1, .value e.2))
  | .dict entries => some entries
  | .bare "" => some []
  | _ => none

/-- Nothing, or what `read` makes of the part. -/
def optional? {α : Type} (read : Tree → Option α) : Tree → Option (Option α)
  | .value .null => some none
  | .bare s => if Scalar.isAbsent s then some none else (read (.bare s)).map some
  | t => (read t).map some

/-- A list of parts that `read` accepts. -/
def listOf? {α : Type} (read : Tree → Option α) (t : Tree) : Option (List α) :=
  t.list?.bind fun ts => ts.mapM read

/-- A mapping whose values `read` accepts, by increasing keys. -/
def dictOf? {α : Type} (read : Tree → Option α) (t : Tree) : Option (Dict α) := do
  let es ← t.entries?
  let es ← es.mapM fun e => (read e.2).map fun a => (e.1, a)
  some (Dict.ofEntries es)

/-- A payload object. -/
def object? (t : Tree) : Option (Dict Value) := dictOf? value? t

/-- One of the names of an enumeration; in a value it may also be the only key, with null under
it. -/
def name? {α : Type} (ofName? : String → Option α) : Tree → Option α
  | .value (.obj [(k, .null)]) => ofName? k
  | t => t.text?.bind ofName?

end Tree

end DataMigration
