import DataMigration.Path.Lookup
import DataMigration.Proofs.Text
import DataMigration.Record.Target

/-!
# Paths joined from segments

A path that is joined from segments without dots is read segment by segment. Segments that are keys,
or keys with empty brackets behind them, name fields; so such a path is followed through objects,
and through arrays only where a key is written like an index.
-/

namespace DataMigration

namespace Path

/-- A text that can be a segment of a path. -/
structure IsSegment (s : String) : Prop where
  ne_empty : s ≠ ""
  dotless : '.' ∉ s.toList

/-- A text that names a field in a path. -/
structure IsKey (key : String) : Prop extends IsSegment key where
  unbracketed : '[' ∉ key.toList

instance (s : String) : Decidable (IsSegment s) :=
  decidable_of_iff (s ≠ "" ∧ '.' ∉ s.toList)
    ⟨fun h => ⟨h.1, h.2⟩, fun h => ⟨h.ne_empty, h.dotless⟩⟩

instance (key : String) : Decidable (IsKey key) :=
  decidable_of_iff (IsSegment key ∧ '[' ∉ key.toList)
    ⟨fun h => ⟨h.1, h.2⟩, fun h => ⟨h.toIsSegment, h.unbracketed⟩⟩

variable {segs : List String}

theorem ne_empty_of_named {path : String} (named : ∀ s ∈ Text.split '.' path, s ≠ "") :
    path ≠ "" := by
  rintro rfl
  exact named "" List.mem_cons_self rfl

theorem lookup_eq_present {path : String} (nonempty : path ≠ "") (v : Value) :
    lookup v path = Value.present (walk v (segments path)) := by
  unfold lookup
  split
  · rename_i none
    rw [segments, if_neg nonempty] at none
    exact absurd (List.map_eq_nil_iff.1 none)
      (mt List.map_eq_nil_iff.1 (Text.splitAt_ne_nil _ _))
  · rename_i segs
    rw [segs]

/-- What a record has at a path, of which the first segment is taken as a key. -/
theorem get?_of_split (r : TargetRecord) {path key : String}
    (pieces : Text.split '.' path = key :: segs) (named : ∀ s ∈ segs, s ≠ "") :
    r.get? path = Value.present
      ((Dict.get? r.data key).bind fun v => walk v (segs.map Segment.ofText)) := by
  obtain ⟨uncut, one⟩ | ⟨root, rest, cut, more⟩ := Text.cut?_or_split path
  · obtain ⟨rfl, rfl⟩ := List.cons.inj (pieces.symm.trans one)
    simp only [TargetRecord.get?, uncut, List.map_nil, walk]
    rw [Option.bind_fun_some]
  · obtain ⟨rfl, rfl⟩ := List.cons.inj (pieces.symm.trans more)
    have further : rest ≠ "" := ne_empty_of_named named
    simp only [TargetRecord.get?, cut]
    cases Dict.get? r.data key with
    | none => rfl
    | some v =>
      rw [Option.bind_some, Option.bind_some, lookup_eq_present further, segments, if_neg further]

theorem intercalate_ne_empty (some : segs ≠ []) (named : ∀ s ∈ segs, IsSegment s) :
    ".".intercalate segs ≠ "" := by
  cases segs with
  | nil => exact absurd rfl some
  | cons s segs =>
    have first := (named s List.mem_cons_self).ne_empty
    cases segs with
    | nil => simpa using first
    | cons s' segs =>
      rw [String.intercalate_cons_cons]
      simp

theorem toList_join (s rest : String) :
    (s ++ "." ++ rest).toList = s.toList ++ '.' :: rest.toList := by
  simp

/-- A path is taken apart into the segments that it is joined from. -/
theorem split_intercalate (some : segs ≠ []) (named : ∀ s ∈ segs, IsSegment s) :
    Text.split '.' (".".intercalate segs) = segs := by
  induction segs with
  | nil => exact absurd rfl some
  | cons s segs ih =>
    obtain ⟨first, others⟩ := List.forall_mem_cons.1 named
    cases segs with
    | nil =>
      rw [String.intercalate_singleton, Text.split_of_not_mem first.dotless]
    | cons s' segs =>
      have rest := ih (List.cons_ne_nil _ _) others
      rw [Text.split] at rest
      rw [String.intercalate_cons_cons, Text.split, toList_join, Text.splitAt_append first.dotless,
        List.map_cons, String.ofList_toList, rest]

theorem intercalate_injective {segs' : List String} (some : segs ≠ []) (some' : segs' ≠ [])
    (named : ∀ s ∈ segs, IsSegment s) (named' : ∀ s ∈ segs', IsSegment s)
    (same : ".".intercalate segs = ".".intercalate segs') : segs = segs' := by
  rw [← split_intercalate some named, same, split_intercalate some' named']

/-- What a record has at a path that is joined from a key and further segments. -/
theorem get?_intercalate (r : TargetRecord) {key : String}
    (named : ∀ s ∈ key :: segs, IsSegment s) :
    r.get? (".".intercalate (key :: segs)) = Value.present
      ((Dict.get? r.data key).bind fun v => walk v (segs.map Segment.ofText)) :=
  get?_of_split r (split_intercalate (List.cons_ne_nil _ _) named) fun s member =>
    (named s (List.mem_cons_of_mem _ member)).ne_empty

/-! ## Segments that name fields -/

theorem bracketed?_eq_none {key : String} (unbracketed : '[' ∉ key.toList) :
    bracketed? key.toList = none := by
  unfold bracketed?
  split
  · rename_i rest opens
    have inside : '[' ∈ key.toList.dropWhile Text.isWordChar := by
      rw [opens]
      exact List.mem_cons_self
    exact absurd ((List.dropWhile_sublist _).subset inside) unbracketed
  · rfl

theorem ofText_key {key : String} (unbracketed : '[' ∉ key.toList) :
    Segment.ofText key = .plain key := by
  rw [Segment.ofText, bracketed?_eq_none unbracketed]

/-- Brackets without an index between them. -/
theorem bracketed?_elements {key : String} (unbracketed : '[' ∉ key.toList) :
    bracketed? (key ++ "[]").toList = none := by
  unfold bracketed?
  split
  · rename_i rest opens
    rw [String.toList_append, List.dropWhile_append] at opens
    split at opens
    · have brackets : "[]".toList.dropWhile Text.isWordChar = ['[', ']'] := by decide
      rw [brackets] at opens
      obtain ⟨_, rfl⟩ := List.cons.inj opens
      exact if_neg fun closed => closed.2.1 rfl
    · rename_i begun
      cases early : key.toList.dropWhile Text.isWordChar with
      | nil => exact absurd (by rw [early]; rfl) begun
      | cons c cs =>
        rw [early] at opens
        obtain ⟨rfl, _⟩ := List.cons.inj opens
        have inside : '[' ∈ key.toList.dropWhile Text.isWordChar := by
          rw [early]
          exact List.mem_cons_self
        exact absurd ((List.dropWhile_sublist _).subset inside) unbracketed
  · rfl

/-- A key with empty brackets behind it is not taken as an index. -/
theorem ofText_elements {key : String} (unbracketed : '[' ∉ key.toList) :
    Segment.ofText (key ++ "[]") = .plain (key ++ "[]") := by
  rw [Segment.ofText, bracketed?_elements unbracketed]

/-- Only digits write a number. -/
theorem digits_of_nat? {cs : List Char} (reads : (Decimal.nat? cs).isSome = true) :
    ∀ c ∈ cs, (Decimal.digit? c).isSome = true := by
  have each : ∀ (cs : List Char) (acc : Option Nat), (cs.foldl (fun acc c =>
      acc.bind fun n => (Decimal.digit? c).map fun d => 10 * n + d) acc).isSome = true →
        acc.isSome = true ∧ ∀ c ∈ cs, (Decimal.digit? c).isSome = true := by
    intro cs
    induction cs with
    | nil => exact fun acc reads => ⟨reads, (List.forall_mem_nil _)⟩
    | cons c cs ih =>
      intro acc reads
      obtain ⟨first, others⟩ := ih _ reads
      cases acc with
      | none => cases first
      | some n => exact ⟨rfl, List.forall_mem_cons.2 ⟨by simpa using first, others⟩⟩
  cases cs with
  | nil => cases reads
  | cons c cs => exact (each _ _ reads).2

/-- Only a sign and digits write an index. -/
theorem index?_eq_none {name : String} {c : Char} (member : c ∈ name.toList) (other : c ≠ '+')
    (undigital : Decimal.digit? c = none) : Segment.index? name = none := by
  have unread : ∀ {cs}, c ∈ cs → Decimal.nat? cs = none := by
    intro cs inside
    cases reads : Decimal.nat? cs with
    | none => rfl
    | some n =>
      have digit := digits_of_nat? (by rw [reads]; rfl) c inside
      rw [undigital] at digit
      cases digit
  unfold Segment.index? Decimal.word?
  split
  · rename_i rest signed
    rw [signed] at member
    rw [unread ((List.mem_cons.1 member).resolve_left other)]
    rfl
  · rw [unread member]
    rfl

theorem index?_elements (key : String) : Segment.index? (key ++ "[]") = none :=
  index?_eq_none (c := ']') (by simp) (by decide) (by decide)

/-- Every segment is found in the path that is joined from it. -/
theorem infix_intercalate {s : String} (member : s ∈ segs) :
    s.toList <:+: (".".intercalate segs).toList := by
  induction segs with
  | nil => cases member
  | cons s' segs ih =>
    obtain rfl | later := List.mem_cons.1 member
    · cases segs with
      | nil => rw [String.intercalate_singleton]
      | cons s' segs =>
        rw [String.intercalate_cons_cons, toList_join]
        exact (List.prefix_append _ _).isInfix
    · rw [String.intercalate_cons_of_ne_nil (List.ne_nil_of_mem later), toList_join]
      exact (ih later).trans ((List.suffix_cons _ _).trans (List.suffix_append _ _)).isInfix

/-- Empty brackets are found in a path that has them in a segment. -/
theorem cut?_elements {key : String} (member : key ++ "[]" ∈ segs) :
    (Text.cut? "[]" (".".intercalate segs)).isSome = true := by
  rw [Option.isSome_iff_ne_none, ne_eq, Text.cut?_eq_none_iff, not_not]
  refine List.IsInfix.trans ?_ (infix_intercalate member)
  rw [String.toList_append]
  exact (List.suffix_append _ _).isInfix

end Path

end DataMigration
