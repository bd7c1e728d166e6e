import DataMigration.Proofs.Path.ReadBack
import DataMigration.Proofs.Registry.ReadableSources
import DataMigration.Proofs.Registry.RequiredTargets
import Mathlib.Data.List.Chain

/-!
# Paths that name places

The places inside a value are written behind a path: a name after a dot, an index in brackets. A
reader takes such a text apart again, at its dots, and knows an index only directly behind a word.
Which places it finds again is said here: their names have no dots and do not look like elements,
and every index follows a word, so never another index.
-/

namespace DataMigration

namespace Path

/-! ## Places behind a path -/

/-- An index as it is written behind a path. -/
def bracket (i : Nat) : String := "[" ++ String.ofList (Decimal.natDigits i) ++ "]"

/-- A place as it is written behind a path. -/
def Place.written : Place → String
  | .key name => "." ++ name
  | .item i => bracket i

/-- How places are written behind a path. -/
def behind : List Place → String
  | [] => ""
  | p :: ps => p.written ++ behind ps

/-- Every index is a number that a machine word holds. -/
def WordSized (ps : List Place) : Prop := ∀ i : Nat, .item i ∈ ps → (i : Int) < Decimal.wordBound

theorem WordSized.tail {p : Place} {ps : List Place} (sized : WordSized (p :: ps)) :
    WordSized ps :=
  fun i member => sized i (List.mem_cons_of_mem p member)

/-- A text that a path can have as a name: it is one segment and not written like an element. -/
structure IsName (s : String) : Prop where
  dotless : '.' ∉ s.toList
  plain : Segment.ofText s = .plain s

/-- A text that an index can stand behind. -/
structure IsIndexable (s : String) : Prop where
  nonempty : s ≠ ""
  word : ∀ c ∈ s.toList, Text.isWordChar c = true

/-- A place that a path can name behind another: a key behind any, an index behind a word. -/
inductive Follows : Place → Place → Prop
  | key (p : Place) (name : String) : Follows p (.key name)
  | item {name : String} (word : IsIndexable name) (i : Nat) : Follows (.key name) (.item i)

/-- Places that are found again when they are written behind a path. -/
structure Legible (ps : List Place) : Prop where
  named : ∀ name, .key name ∈ ps → IsName name
  follows : ps.IsChain Follows

section

variable {s name : String} {i : Nat} {p : Place} {ps qs : List Place}

theorem toList_bracket (i : Nat) :
    (bracket i).toList = '[' :: (Decimal.natDigits i ++ [']']) := by
  simp [bracket]

theorem dotless_bracket (dotless : '.' ∉ s.toList) (i : Nat) : '.' ∉ (s ++ bracket i).toList := by
  rw [String.toList_append, toList_bracket, List.mem_append, List.mem_cons, List.mem_append,
    List.mem_singleton]
  rintro (own | opens | digit | closes)
  · exact dotless own
  · exact absurd opens (by decide)
  · exact absurd (Decimal.ascii_of_mem_natDigits digit) (by decide)
  · exact absurd closes (by decide)

/-! ## Legible places -/

theorem IsIndexable.isName (indexable : IsIndexable s) : IsName s where
  dotless member := absurd (indexable.word _ member) (by decide)
  plain := ofText_key fun member => bracket_not_word (indexable.word _ member)

theorem follows_item_iff : Follows p (.item i) ↔ ∃ name, p = .key name ∧ IsIndexable name :=
  ⟨fun (.item word _) => ⟨_, rfl, word⟩, fun ⟨_, own, word⟩ => own ▸ .item word i⟩

theorem legible_nil : Legible [] := ⟨fun _ => nofun, .nil⟩

theorem legible_cons_iff : Legible (p :: ps) ↔
    (∀ name, p = .key name → IsName name) ∧ (∀ q ∈ ps.head?, Follows p q) ∧ Legible ps := by
  constructor
  · rintro ⟨named, follows⟩
    obtain ⟨next, follows⟩ := List.isChain_cons.1 follows
    exact ⟨fun name own => named name (own ▸ List.mem_cons_self), next,
      fun name member => named name (List.mem_cons_of_mem p member), follows⟩
  · rintro ⟨first, next, named, follows⟩
    refine ⟨fun name member => ?_, List.isChain_cons.2 ⟨next, follows⟩⟩
    obtain own | later := List.mem_cons.1 member
    · exact first name own.symm
    · exact named name later

theorem legible_key_key_iff :
    Legible (.key s :: .key name :: ps) ↔ IsName s ∧ Legible (.key name :: ps) := by
  simp [legible_cons_iff (p := .key s), Follows.key]

/-- An index behind a key is legible behind a word. -/
theorem legible_key_item_iff :
    Legible (.key s :: .item i :: ps) ↔ IsIndexable s ∧ Legible (.item i :: ps) := by
  rw [legible_cons_iff]
  simp only [List.head?_cons, Option.mem_some_iff, Place.key.injEq, forall_eq', follows_item_iff,
    exists_eq_left']
  exact ⟨And.right, fun legible => ⟨legible.1.isName, legible⟩⟩

/-- Behind an index no other index is legible. -/
theorem legible_item_iff : Legible (.item i :: ps) ↔ (∀ j, .item j ∉ ps.head?) ∧ Legible ps := by
  have next : (∀ q ∈ ps.head?, Follows (.item i) q) ↔ ∀ j, .item j ∉ ps.head? := by
    constructor
    · intro follows j member
      cases follows _ member
    · rintro keys (name | j) member
      · exact .key _ name
      · exact absurd member (keys j)
  rw [legible_cons_iff, next, and_iff_right fun name => nofun]

/-! ## Segments that are written like elements -/

theorem isIndexable_of_ofText {text : String} (reads : Segment.ofText text = .indexed name i) :
    IsIndexable name := by
  obtain ⟨digits, form, _⟩ := ofText_eq_indexed_iff.1 reads
  exact ⟨mt String.toList_eq_nil_iff.2 form.named, form.word⟩

/-- A text with an index in brackets, and more behind them, is an element only if nothing is behind
them and the index follows a word. -/
theorem ofText_bracket_eq_indexed_iff {more : String} {j : Nat}
    (word : (i : Int) < Decimal.wordBound) :
    Segment.ofText (s ++ bracket i ++ more) = .indexed name j ↔
      IsIndexable s ∧ more = "" ∧ name = s ∧ j = i := by
  have chars : (s ++ bracket i ++ more).toList =
      s.toList ++ '[' :: (Decimal.natDigits i ++ ']' :: more.toList) := by
    simp [toList_bracket]
  constructor
  · intro reads
    have indexable := isIndexable_of_ofText reads
    obtain ⟨digits, form, number⟩ := ofText_eq_indexed_iff.1 reads
    obtain ⟨own, rfl, nothing⟩ := form.parts chars
    obtain rfl := String.toList_inj.1 own
    rw [Decimal.word?_natDigits word, Option.some.injEq] at number
    exact ⟨indexable, String.toList_eq_nil_iff.1 nothing, rfl, number.symm⟩
  · rintro ⟨indexable, rfl, rfl, rfl⟩
    refine ofText_eq_indexed_iff.2 ⟨Decimal.natDigits j, ?_, Decimal.word?_natDigits word⟩
    rw [chars]
    exact ⟨rfl, mt String.toList_eq_nil_iff.1 indexable.nonempty, indexable.word,
      Decimal.natDigits_ne_nil j, fun c => Decimal.isDigit_of_mem_natDigits⟩

theorem ne_append_bracket (s more : String) (i : Nat) : s ≠ s ++ bracket i ++ more := by
  intro same
  have lengths := congrArg (fun t => t.toList.length) same
  simp only [String.toList_append, toList_bracket, List.length_append, List.length_cons] at lengths
  omega

/-! ## Readings of segments -/

/-- A key that is read first is the first segment or the array of the element that it is. -/
theorem key_cons_mem_readings_iff {seg : Segment} {segs : List Segment} :
    .key name :: ps ∈ readings (seg :: segs) ↔
      (seg = .plain name ∧ ps ∈ readings segs) ∨
        ∃ i qs, seg = .indexed name i ∧ qs ∈ readings segs ∧ ps = .item i :: qs := by
  rw [cons_mem_readings_iff]
  cases seg with
  | plain own => simp [Segment.readings, eq_comm, and_comm]
  | indexed own i => simp [Segment.readings, eq_comm, and_left_comm]
  | unindexable text => simp [Segment.readings]

/-- An index that is read first is the first segment. -/
theorem item_cons_mem_readings_iff {seg : Segment} {segs : List Segment} :
    .item i :: ps ∈ readings (seg :: segs) ↔
      ∃ name, seg = .plain name ∧ Segment.index? name = some i ∧ ps ∈ readings segs := by
  rw [cons_mem_readings_iff]
  cases seg <;> simp [Segment.readings]

/-- No index is read from a text with a bracket. -/
theorem item_cons_not_mem_readings {segs : List Segment} (bracketed : '[' ∈ s.toList) :
    .item i :: ps ∉ readings (Segment.ofText s :: segs) := by
  rw [item_cons_mem_readings_iff]
  rintro ⟨name, plain, number, _⟩
  rw [ofText_eq_plain plain, index?_eq_none bracketed (by decide) (by decide)] at number
  cases number

/-- All walks along some segments are equally long, so what is read of the others is known. -/
theorem append_mem_readings_iff {before after : List Segment} (own : ps ∈ readings before) :
    ps ++ qs ∈ readings (before ++ after) ↔ qs ∈ readings after := by
  rw [mem_readings_append_iff]
  constructor
  · rintro ⟨own', first, others, rest, same⟩
    have lengths : own'.length = ps.length :=
      (readings_steps first).length_eq.symm.trans (readings_steps own).length_eq
    obtain ⟨rfl, rfl⟩ := List.append_inj same lengths
    exact rest
  · exact fun rest => ⟨ps, own, qs, rest, rfl⟩

/-! ## Reading what is written behind a path -/

/-- The segments of a text, also of the empty one. -/
def pieces (text : String) : List Segment := (Text.split '.' text).map Segment.ofText

theorem pieces_of_dotless (dotless : '.' ∉ s.toList) : pieces s = [Segment.ofText s] := by
  rw [pieces, Text.split_of_not_mem dotless, List.map_singleton]

theorem pieces_key (dotless : '.' ∉ s.toList) (name : String) (ps : List Place) :
    pieces (s ++ behind (.key name :: ps)) = Segment.ofText s :: pieces (name ++ behind ps) := by
  have chars : (s ++ behind (.key name :: ps)).toList =
      s.toList ++ '.' :: (name ++ behind ps).toList := by simp [behind, Place.written]
  rw [pieces, Text.split, chars, Text.splitAt_append dotless, List.map_cons, List.map_cons,
    String.ofList_toList, pieces, Text.split]

theorem append_item (s : String) (i : Nat) (ps : List Place) :
    s ++ behind (.item i :: ps) = s ++ bracket i ++ behind ps :=
  String.append_assoc.symm

/-- The first piece of a text that goes on with an index reaches over its bracket. -/
theorem exists_pieces_item (dotless : '.' ∉ s.toList) (i : Nat) (ps : List Place) :
    ∃ more rest, '[' ∈ more.toList ∧ more ≠ "" ∧
      pieces (s ++ behind (.item i :: ps)) = Segment.ofText (s ++ more) :: rest := by
  obtain ⟨rest, whole⟩ := Text.splitAt_eq_takeWhile '.' (s ++ behind (.item i :: ps)).toList
  have own : ∀ c ∈ s.toList, (c != '.') = true := fun c member =>
    bne_iff_ne.2 fun same => dotless (same ▸ member)
  rw [String.toList_append, List.takeWhile_append_of_pos own] at whole
  let more := String.ofList ((behind (.item i :: ps)).toList.takeWhile (· != '.'))
  have opens : '[' ∈ more.toList := by
    have chars : (behind (.item i :: ps)).toList =
        '[' :: (Decimal.natDigits i ++ [']'] ++ (behind ps).toList) := by
      simp [behind, Place.written, toList_bracket]
    rw [String.toList_ofList, chars]
    exact List.mem_cons_self
  refine ⟨more, (rest.map String.ofList).map Segment.ofText, opens, ?_, ?_⟩
  · intro nothing
    rw [nothing] at opens
    cases opens
  · rw [pieces, Text.split, String.toList_append, whole, List.map_cons, List.map_cons,
      String.ofList_append, String.ofList_toList]

/-- A key that is read first has no dot. -/
theorem dotless_of_key_cons_mem {text : String}
    (reading : .key name :: ps ∈ readings (pieces text)) : '.' ∉ name.toList := by
  obtain ⟨piece, rest, whole⟩ := List.exists_cons_of_ne_nil (Text.splitAt_ne_nil '.' text.toList)
  have dotless : '.' ∉ piece := Text.not_mem_of_mem_splitAt (whole ▸ List.mem_cons_self)
  rw [pieces, Text.split, whole, List.map_cons, List.map_cons, key_cons_mem_readings_iff] at reading
  obtain ⟨plain, _⟩ | ⟨i, _, indexed, _⟩ := reading
  · rw [ofText_eq_plain plain, String.toList_ofList]
    exact dotless
  · exact (isIndexable_of_ofText indexed).isName.dotless

/-- A key and an index are read from their own piece. -/
theorem key_item_cons_mem_readings_iff {more : String} {segs : List Segment}
    (word : (i : Int) < Decimal.wordBound) :
    .key s :: .item i :: ps ∈ readings (Segment.ofText (s ++ bracket i ++ more) :: segs) ↔
      IsIndexable s ∧ more = "" ∧ ps ∈ readings segs := by
  rw [key_cons_mem_readings_iff]
  constructor
  · rintro (⟨plain, _⟩ | ⟨j, qs, indexed, further, same⟩)
    · exact absurd (ofText_eq_plain plain) (ne_append_bracket s more i)
    · obtain ⟨indexable, nothing, _, rfl⟩ := (ofText_bracket_eq_indexed_iff word).1 indexed
      obtain ⟨_, rfl⟩ := List.cons.inj same
      exact ⟨indexable, nothing, further⟩
  · rintro ⟨indexable, nothing, further⟩
    exact .inr ⟨i, ps, (ofText_bracket_eq_indexed_iff word).2 ⟨indexable, nothing, rfl, rfl⟩,
      further, rfl⟩

/-- A key and the places behind it are read from their text exactly if they are legible. -/
theorem key_cons_mem_pieces_iff (s : String) (ps : List Place) (sized : WordSized ps) :
    .key s :: ps ∈ readings (pieces (s ++ behind ps)) ↔ Legible (.key s :: ps) := by
  obtain dotted | dotless := em ('.' ∈ s.toList)
  · exact iff_of_false (fun reading => dotless_of_key_cons_mem reading dotted)
      fun legible => (legible.named s List.mem_cons_self).dotless dotted
  have plain : Segment.ofText s = .plain s ↔ IsName s :=
    ⟨fun plain => ⟨dotless, plain⟩, IsName.plain⟩
  -- an index belongs to the piece of the key, so the next piece may be two places on
  match ps with
  | [] =>
    rw [behind, String.append_empty, pieces_of_dotless dotless, key_cons_mem_readings_iff, plain]
    simp [readings, legible_cons_iff, legible_nil]
  | .key name :: ps =>
    rw [pieces_key dotless, key_cons_mem_readings_iff, key_cons_mem_pieces_iff name ps sized.tail,
      legible_key_key_iff, plain]
    simp
  | [.item i] =>
    have word := sized i List.mem_cons_self
    rw [append_item, behind, pieces_of_dotless (by simpa using dotless_bracket dotless i),
      key_item_cons_mem_readings_iff word, legible_key_item_iff, legible_item_iff]
    simp [readings, legible_nil]
  | .item i :: .key name :: ps =>
    have word := sized i List.mem_cons_self
    have element : s ++ bracket i = s ++ bracket i ++ "" := String.append_empty.symm
    rw [append_item, pieces_key (dotless_bracket dotless i), element,
      key_item_cons_mem_readings_iff word, key_cons_mem_pieces_iff name ps sized.tail.tail,
      legible_key_item_iff, legible_item_iff]
    simp
  | .item i :: .item j :: ps =>
    have word := sized i List.mem_cons_self
    obtain ⟨more, rest, _, further, whole⟩ := exists_pieces_item (dotless_bracket dotless i) j ps
    rw [append_item, whole, key_item_cons_mem_readings_iff word, legible_key_item_iff,
      legible_item_iff]
    simp [further]

theorem mem_readings_singleton {seg : Segment} : ps ∈ readings [seg] ↔ ps ∈ seg.readings := by
  simp [readings]

/-- What goes on behind an element is no element. -/
theorem ofText_append_ne_indexed {more : String} {j : Nat}
    (element : Segment.ofText s = .indexed name i) (goes : more ≠ "") :
    Segment.ofText (s ++ more) ≠ .indexed name j := by
  intro longer
  obtain ⟨digits, own, _⟩ := ofText_eq_indexed_iff.1 element
  obtain ⟨digits', whole, _⟩ := ofText_eq_indexed_iff.1 longer
  have chars : (s ++ more).toList = name.toList ++ '[' :: (digits ++ ']' :: more.toList) := by
    rw [String.toList_append, own.whole]
    simp
  exact goes (String.toList_eq_nil_iff.1 (whole.parts chars).2.2)

/-- Whatever a piece stands for, an index behind it is found there only if the piece is a word and
no index itself. -/
theorem forall_append_item_mem_pieces_iff (dotless : '.' ∉ s.toList)
    (some : (Segment.ofText s).readings ≠ []) (sized : WordSized (.item i :: ps)) :
    (∀ own ∈ (Segment.ofText s).readings,
        own ++ .item i :: ps ∈ readings (pieces (s ++ behind (.item i :: ps)))) ↔
      Legible (.item i :: ps) ∧ IsIndexable s ∧ Segment.index? s = none := by
  obtain ⟨more, rest, opens, further, whole⟩ := exists_pieces_item dotless i ps
  have bracketed : '[' ∈ (s ++ more).toList := by
    rw [String.toList_append]
    exact List.mem_append_right _ opens
  constructor
  · intro all
    cases reads : Segment.ofText s with
    | unindexable text => exact absurd (by rw [reads]; rfl) some
    | plain name =>
      obtain rfl := ofText_eq_plain reads
      have key := all [.key name] (by rw [reads]; exact List.mem_cons_self)
      obtain ⟨indexable, legible⟩ :=
        legible_key_item_iff.1 ((key_cons_mem_pieces_iff _ _ sized).1 key)
      refine ⟨legible, indexable, Option.eq_none_iff_forall_ne_some.2 fun j index => ?_⟩
      have number := all [.item j] (by rw [reads]; simp [Segment.readings, index])
      rw [whole] at number
      exact item_cons_not_mem_readings bracketed number
    | indexed name j =>
      have element := all [.key name, .item j] (by rw [reads]; exact List.mem_cons_self)
      rw [whole, List.cons_append, key_cons_mem_readings_iff] at element
      obtain ⟨plain, _⟩ | ⟨_, _, longer, _⟩ := element
      · rw [← ofText_eq_plain plain] at bracketed
        exact absurd ((isIndexable_of_ofText reads).word _ bracketed) bracket_not_word
      · exact absurd longer (ofText_append_ne_indexed reads further)
  · rintro ⟨legible, indexable, unnumbered⟩ own walk
    have key : own = [.key s] := by
      rw [indexable.isName.plain, Segment.readings, unnumbered] at walk
      exact List.mem_singleton.1 walk
    rw [key, List.singleton_append, key_cons_mem_pieces_iff s _ sized, legible_key_item_iff]
    exact ⟨indexable, legible⟩

/-- Whatever a piece stands for goes on to legible places, and it does so to an index only if it is
a word and no index itself. -/
theorem forall_append_mem_pieces_iff (dotless : '.' ∉ s.toList)
    (some : (Segment.ofText s).readings ≠ []) (sized : WordSized ps) :
    (∀ own ∈ (Segment.ofText s).readings, own ++ ps ∈ readings (pieces (s ++ behind ps))) ↔
      Legible ps ∧
        ∀ i, ps.head? = .some (.item i) → IsIndexable s ∧ Segment.index? s = none := by
  match ps with
  | [] =>
    rw [behind, String.append_empty, pieces_of_dotless dotless]
    simp [mem_readings_singleton, legible_nil]
  | .key name :: ps =>
    have each : ∀ own ∈ (Segment.ofText s).readings,
        (own ++ .key name :: ps ∈ readings (pieces (s ++ behind (.key name :: ps))) ↔
          Legible (.key name :: ps)) := fun own walk => by
      rw [pieces_key dotless, ← List.singleton_append,
        append_mem_readings_iff (mem_readings_singleton.2 walk),
        key_cons_mem_pieces_iff name ps sized.tail]
    obtain ⟨own, walk⟩ := List.exists_mem_of_ne_nil _ some
    rw [and_iff_left fun i => nofun]
    exact ⟨fun all => (each own walk).1 (all own walk),
      fun legible own walk => (each own walk).2 legible⟩
  | .item i :: ps =>
    rw [forall_append_item_mem_pieces_iff dotless some sized]
    simp

theorem mem_walks_iff {path : String} :
    ps ∈ walks path ↔ path ≠ "" ∧ ps ∈ readings (pieces path) := by
  by_cases named : path = ""
  · simp [walks, named]
  · rw [walks, if_neg named, segments, if_neg named, and_iff_right named, pieces]

theorem ofText_ne_indexed_self : Segment.ofText s ≠ .indexed s i := fun reads => by
  obtain ⟨digits, form, _⟩ := ofText_eq_indexed_iff.1 reads
  have lengths := congrArg List.length form.whole
  simp only [List.length_append, List.length_cons] at lengths
  omega

end

/-! ## Reading what is written behind a field -/

/-- The last piece of a path. -/
def last (path : String) : String := (Text.split '.' path).getLastD ""

/-- Places that are found again when they are written behind a field, wherever the field is found:
its first piece is a name, and an index follows its last piece only if that is a word, which behind
a dot is no index itself. -/
structure LegibleBehind (field : String) (ps : List Place) : Prop where
  written : field ≠ "" ∨ ps ≠ []
  starts : IsName (first field)
  legible : Legible ps
  indexable : ∀ i, ps.head? = some (.item i) →
    IsIndexable (last field) ∧ ('.' ∈ field.toList → Segment.index? (last field) = none)

section

variable {field : String} {ps : List Place}

theorem walks_of_split {key : String} {rest : List String}
    (whole : Text.split '.' field = key :: rest) (some : TargetRecord.walks field ≠ []) :
    TargetRecord.walks field = (readings (rest.map Segment.ofText)).map (.key key :: ·) := by
  unfold TargetRecord.walks at some ⊢
  obtain ⟨uncut, one⟩ | ⟨root, behind, cut, more⟩ := Text.cut?_or_split field
  · obtain ⟨rfl, rfl⟩ := List.cons.inj (whole.symm.trans one)
    rw [uncut]
    rfl
  · obtain ⟨rfl, rfl⟩ := List.cons.inj (whole.symm.trans more)
    rw [cut] at some ⊢
    have named : behind ≠ "" := by
      rintro rfl
      exact some rfl
    dsimp only
    rw [walks, if_neg named, segments, if_neg named]

theorem append_behind_ne_empty_iff : field ++ behind ps ≠ "" ↔ field ≠ "" ∨ ps ≠ [] := by
  have goes : behind ps = "" ↔ ps = [] := by
    cases ps with
    | nil => exact iff_of_true rfl rfl
    | cons p ps => cases p <;> simp [behind, Place.written, bracket, String.append_eq_empty_iff]
  rw [ne_eq, String.append_eq_empty_iff, goes, not_and_or]

theorem legibleBehind_iff_of_dotless (dotless : '.' ∉ field.toList) :
    LegibleBehind field ps ↔ field ++ behind ps ≠ "" ∧ Legible (.key field :: ps) := by
  have own : first field = field := by
    rw [first, List.takeWhile_eq_self_iff.2, String.ofList_toList]
    exact fun c member => bne_iff_ne.2 fun same => dotless (same ▸ member)
  have one : last field = field := by
    rw [last, Text.split_of_not_mem dotless]
    rfl
  have next : (∀ q ∈ ps.head?, Follows (.key field) q) ↔
      ∀ i, ps.head? = some (.item i) → IsIndexable field := by
    constructor
    · intro follows i index
      cases follows _ index with
      | item word => exact word
    · rintro word (name | i) member
      · exact .key _ name
      · exact .item (word i member) i
  rw [legible_cons_iff, next, append_behind_ne_empty_iff]
  constructor
  · rintro ⟨written, starts, legible, indexable⟩
    rw [own] at starts
    rw [one] at indexable
    exact ⟨written, fun name same => Place.key.inj same ▸ starts,
      fun i index => (indexable i index).1, legible⟩
  · rintro ⟨written, named, indexable, legible⟩
    refine ⟨written, own.symm ▸ named field rfl, legible, fun i index => ?_⟩
    exact ⟨one.symm ▸ indexable i index, fun dotted => absurd dotted dotless⟩

/-- The walks of a field of several pieces. -/
theorem mem_walks_of_split {key tip : String} {inner : List String}
    (whole : Text.split '.' field = key :: (inner ++ [tip]))
    (some : TargetRecord.walks field ≠ []) :
    ps ∈ TargetRecord.walks field ↔ ∃ before ∈ readings (inner.map Segment.ofText),
      ∃ own ∈ (Segment.ofText tip).readings, ps = .key key :: (before ++ own) := by
  simp only [walks_of_split whole some, List.map_append, List.map_singleton, List.mem_map,
    mem_readings_append_iff, mem_readings_singleton]
  constructor
  · rintro ⟨_, ⟨before, walk, own, reading, rfl⟩, rfl⟩
    exact ⟨before, walk, own, reading, rfl⟩
  · rintro ⟨before, walk, own, reading, rfl⟩
    exact ⟨_, ⟨before, walk, own, reading, rfl⟩, rfl⟩

/-- What a field of several pieces is read as goes on where its first piece is a name and what its
last piece is read as goes on. -/
theorem forall_walks_append_iff_of_split {key tip : String} {inner : List String}
    (whole : Text.split '.' field = key :: (inner ++ [tip]))
    (some : TargetRecord.walks field ≠ []) :
    (∀ own ∈ TargetRecord.walks field, own ++ ps ∈ walks (field ++ behind ps)) ↔
      Segment.ofText key = .plain key ∧ ∀ own ∈ (Segment.ofText tip).readings,
        own ++ ps ∈ readings (pieces (tip ++ behind ps)) := by
  have goes : pieces (field ++ behind ps) =
      Segment.ofText key :: (inner.map Segment.ofText ++ pieces (tip ++ behind ps)) := by
    have parts : Text.split '.' field = (key :: inner) ++ [tip] := whole
    rw [pieces, Text.split_append_of_concat parts, List.map_append]
    rfl
  have written : field ++ behind ps ≠ "" := append_behind_ne_empty_iff.2 <| .inl fun none => by
    rw [none] at whole
    have lengths := congrArg List.length whole
    simp [Text.split, Text.splitAt] at lengths
  have each : ∀ before ∈ readings (inner.map Segment.ofText), ∀ own,
      (.key key :: (before ++ own) ++ ps ∈ walks (field ++ behind ps) ↔
        Segment.ofText key = .plain key ∧ own ++ ps ∈ readings (pieces (tip ++ behind ps))) := by
    intro before walk own
    rw [mem_walks_iff, and_iff_right written, goes, List.cons_append, key_cons_mem_readings_iff,
      List.append_assoc, append_mem_readings_iff walk]
    refine or_iff_left ?_
    rintro ⟨_, _, indexed, _⟩
    exact ofText_ne_indexed_self indexed
  have member : ∀ before ∈ readings (inner.map Segment.ofText),
      ∀ own ∈ (Segment.ofText tip).readings, .key key :: (before ++ own) ∈
        TargetRecord.walks field := fun before walk own reading =>
    (mem_walks_of_split whole some).2 ⟨before, walk, own, reading, rfl⟩
  constructor
  · intro all
    obtain ⟨_, exists_walk⟩ := List.exists_mem_of_ne_nil _ some
    obtain ⟨before, walk, own, reading, _⟩ := (mem_walks_of_split whole some).1 exists_walk
    exact ⟨((each before walk own).1 (all _ (member before walk own reading))).1,
      fun own reading => ((each before walk own).1 (all _ (member before walk own reading))).2⟩
  · rintro ⟨plain, all⟩ _ exists_walk
    obtain ⟨before, walk, own, reading, rfl⟩ := (mem_walks_of_split whole some).1 exists_walk
    exact (each before walk own).2 ⟨plain, all own reading⟩

/-- Wherever a field is found, its places are read from their text behind the field exactly if they
are legible there. -/
theorem forall_walks_append_iff (some : TargetRecord.walks field ≠ []) (sized : WordSized ps) :
    (∀ own ∈ TargetRecord.walks field, own ++ ps ∈ walks (field ++ behind ps)) ↔
      LegibleBehind field ps := by
  obtain ⟨-, one⟩ | ⟨key, rest, -, more⟩ := Text.cut?_or_split field
  · have dotless : '.' ∉ field.toList :=
      Text.not_mem_of_mem_split (one ▸ List.mem_singleton_self field)
    have own : TargetRecord.walks field = [[.key field]] := walks_of_split one some
    rw [own, legibleBehind_iff_of_dotless dotless, List.forall_mem_singleton,
      List.singleton_append, mem_walks_iff, key_cons_mem_pieces_iff field ps sized]
  · obtain none | ⟨inner, tip, final⟩ := List.eq_nil_or_concat' (Text.split '.' rest)
    · exact absurd (List.map_eq_nil_iff.1 none) (Text.splitAt_ne_nil _ _)
    rw [final] at more
    obtain ⟨_, starts⟩ := split_eq_first field
    obtain ⟨own, -⟩ := List.cons.inj (starts.symm.trans more)
    have ends : last field = tip := by
      rw [last, more, List.getLastD_cons, List.getLastD_concat]
    have piece : ∀ text ∈ key :: (inner ++ [tip]), '.' ∉ text.toList := fun text member =>
      Text.not_mem_of_mem_split (more ▸ member)
    have dotless : '.' ∉ tip.toList := piece tip (by simp)
    have dotted : '.' ∈ field.toList := by
      by_contra undotted
      rw [Text.split_of_not_mem undotted] at more
      simp at more
    have readable : (Segment.ofText tip).readings ≠ [] := by
      obtain ⟨_, exists_walk⟩ := List.exists_mem_of_ne_nil _ some
      obtain ⟨_, _, own, reading, _⟩ := (mem_walks_of_split more some).1 exists_walk
      exact List.ne_nil_of_mem reading
    rw [forall_walks_append_iff_of_split more some,
      forall_append_mem_pieces_iff dotless readable sized]
    constructor
    · rintro ⟨plain, legible, index⟩
      refine ⟨.inl ?_, own ▸ ⟨piece key List.mem_cons_self, plain⟩, legible, fun i next => ?_⟩
      · exact fun empty => absurd dotted (by rw [empty]; nofun)
      · obtain ⟨indexable, unnumbered⟩ := index i next
        exact ends.symm ▸ ⟨indexable, fun _ => unnumbered⟩
    · rintro ⟨-, name, legible, index⟩
      refine ⟨own ▸ name.plain, legible, fun i next => ?_⟩
      obtain ⟨indexable, unnumbered⟩ := index i next
      exact ends ▸ ⟨indexable, unnumbered dotted⟩

/-! ## Indices that are read -/

theorem lt_wordBound_of_word? {digits : List Char} {i : Nat}
    (reads : Decimal.word? digits = some i) : (i : Int) < Decimal.wordBound := by
  have word := (Option.filter_eq_some_iff.1 reads).2
  simp only [Decimal.isWord, Bool.and_eq_true, decide_eq_true_eq] at word
  exact word.2

/-- The indices that segments stand for are machine words. -/
theorem wordSized_of_mem_readings {texts : List String}
    (reading : ps ∈ readings (texts.map Segment.ofText)) : WordSized ps := by
  induction texts generalizing ps with
  | nil =>
    rw [List.mem_singleton.1 reading]
    exact fun i => nofun
  | cons text texts ih =>
    rw [List.map_cons, cons_mem_readings_iff] at reading
    obtain ⟨own, walk, others, further, rfl⟩ := reading
    intro i member
    obtain here | later := List.mem_append.1 member
    · cases reads : Segment.ofText text with
      | unindexable other => simp [reads, Segment.readings] at walk
      | plain name =>
        simp only [reads, Segment.readings, List.mem_cons, List.mem_map, Option.mem_toList] at walk
        obtain rfl | ⟨j, index, rfl⟩ := walk
        · simp at here
        · rw [Place.item.inj (List.mem_singleton.1 here)]
          exact lt_wordBound_of_word? index
      | indexed name j =>
        obtain ⟨digits, -, number⟩ := ofText_eq_indexed_iff.1 reads
        simp only [reads, Segment.readings, List.mem_singleton] at walk
        rw [walk] at here
        obtain rfl : i = j := by simpa using here
        exact lt_wordBound_of_word? number
    · exact ih further i later

theorem wordSized_of_mem_walks (walk : ps ∈ TargetRecord.walks field) : WordSized ps := by
  obtain ⟨key, rest, whole⟩ := List.exists_cons_of_ne_nil
    (mt List.map_eq_nil_iff.1 (Text.splitAt_ne_nil '.' field.toList))
  rw [walks_of_split whole (List.ne_nil_of_mem walk)] at walk
  obtain ⟨others, further, rfl⟩ := List.mem_map.1 walk
  rintro i (_ | member)
  exact wordSized_of_mem_readings further i ‹_›

end

end Path
end DataMigration
