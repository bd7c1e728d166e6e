import DataMigration.Text.Blank
import DataMigration.Text.Cut
import Mathlib.Data.List.Basic
import Mathlib.Data.List.Infix

/-!
# Texts that are cut and trimmed

A text is cut exactly if the separator occurs in it, and what stands around the first occurrence
comes back whole. Trimming takes nothing away but what it is for.
-/

namespace DataMigration.Text

/-- Whether all characters of a text are outside a class can be evaluated. -/
theorem all_outside_iff {p : Char → Bool} {s : List Char} :
    (s.all fun c => !p c) = true ↔ ∀ c ∈ s, p c = false := by
  simp

/-! ## Cutting at a separator -/

/-- Nothing is cut exactly if the separator does not occur. -/
theorem cutChars_eq_none_iff {sep s : List Char} : cutChars sep s = none ↔ ¬ sep <:+: s := by
  induction s with
  | nil => simp [cutChars]
  | cons c s ih =>
    rw [List.infix_cons_iff, cutChars]
    cases start : sep.isPrefixOf? (c :: s) with
    | some rest =>
      have begins : sep <+: c :: s := ⟨rest, List.isPrefixOf?_eq_some_iff_append_eq.1 start⟩
      simp [begins]
    | none =>
      have other : ¬ sep <+: c :: s := by
        rintro ⟨rest, whole⟩
        rw [List.isPrefixOf?_eq_some_iff_append_eq.2 whole] at start
        cases start
      simp [other, ih]

theorem cut?_eq_none_iff {sep s : String} : cut? sep s = none ↔ ¬ sep.toList <:+: s.toList := by
  rw [cut?, Option.map_eq_none_iff, cutChars_eq_none_iff]

/-- Nothing is cut before the first character that the separator begins with. -/
theorem cutChars_append_of_notMem {d : Char} {before : List Char} (sep s : List Char)
    (without : d ∉ before) : cutChars (d :: sep) (before ++ s) =
      (cutChars (d :: sep) s).map fun p => (before ++ p.1, p.2) := by
  induction before with
  | nil => simp
  | cons c before ih =>
    obtain ⟨other, without⟩ := not_or.1 (mt List.mem_cons.2 without)
    have here : (d :: sep).isPrefixOf? (c :: before ++ s) = none := by
      simp [List.isPrefixOf?, other]
    rw [List.cons_append, cutChars, ← List.cons_append, here]
    simp [ih without, Function.comp_def]

theorem cutChars_start {sep : List Char} (some : sep ≠ []) (after : List Char) :
    cutChars sep (sep ++ after) = .some ([], after) := by
  obtain ⟨c, sep, rfl⟩ := List.exists_cons_of_ne_nil some
  rw [List.cons_append, cutChars, ← List.cons_append,
    List.isPrefixOf?_eq_some_iff_append_eq.2 rfl]

theorem cutChars_append {sep : Char} {s : List Char} (h : sep ∉ s) (t : List Char) :
    cutChars [sep] (s ++ sep :: t) = some (s, t) := by
  have start : cutChars [sep] (sep :: t) = some ([], t) := cutChars_start (List.cons_ne_nil _ _) t
  rw [cutChars_append_of_notMem _ _ h, start, Option.map_some, List.append_nil]

/-- A text is what precedes and what follows its first separator. -/
theorem cutChars_eq_some {sep : Char} {s before after : List Char}
    (cut : cutChars [sep] s = some (before, after)) :
    s = before ++ sep :: after ∧ sep ∉ before := by
  have found : sep ∈ s := by
    by_contra without
    rw [cutChars_eq_none_iff.2 (mt (List.singleton_infix_iff _ _).1 without)] at cut
    cases cut
  obtain ⟨before', after', rfl, without⟩ := List.eq_append_cons_of_mem found
  rw [cutChars_append without] at cut
  cases cut
  exact ⟨rfl, without⟩

theorem isPrefixOf?_concat {sep s : List Char} {c : Char} (foreign : c ∉ sep) :
    sep.isPrefixOf? (s ++ [c]) = (sep.isPrefixOf? s).map (· ++ [c]) := by
  induction sep generalizing s with
  | nil => simp [List.isPrefixOf?]
  | cons d sep ih =>
    obtain ⟨other, foreign⟩ := not_or.1 (mt List.mem_cons.2 foreign)
    cases s with
    | nil => simp [List.isPrefixOf?, Ne.symm other]
    | cons e s =>
      simp only [List.cons_append, List.isPrefixOf?]
      split
      · exact ih foreign
      · rfl

/-- A character at the end that is not in the separator makes no difference. -/
theorem cutChars_concat {sep : List Char} {c : Char} (some : sep ≠ []) (foreign : c ∉ sep)
    (s : List Char) : cutChars sep (s ++ [c]) =
      (cutChars sep s).map fun p => (p.1, p.2 ++ [c]) := by
  induction s with
  | nil =>
    have here : sep.isPrefixOf? [c] = none := by
      rw [← List.nil_append [c], isPrefixOf?_concat foreign]
      cases sep with
      | nil => exact absurd rfl some
      | cons d sep => rfl
    simp [cutChars, here, some]
  | cons d s ih =>
    rw [List.cons_append, cutChars, ← List.cons_append, isPrefixOf?_concat foreign, cutChars]
    cases sep.isPrefixOf? (d :: s) with
    | none => simp [ih, Function.comp_def]
    | some rest => rfl

/-! ## Pieces -/

theorem splitAt_append {sep : Char} {s : List Char} (h : sep ∉ s) (t : List Char) :
    splitAt sep (s ++ sep :: t) = s :: splitAt sep t := by
  induction s with
  | nil => simp [splitAt]
  | cons c s ih =>
    obtain ⟨other, rest⟩ := not_or.1 (mt List.mem_cons.2 h)
    simp only [List.cons_append, splitAt, ih rest, if_neg (Ne.symm other)]

theorem splitAt_cons_self (sep : Char) (s : List Char) :
    splitAt sep (sep :: s) = [] :: splitAt sep s :=
  if_pos rfl

theorem splitAt_cons_of_ne {sep c : Char} {s p : List Char} {ps : List (List Char)}
    (other : c ≠ sep) (pieces : splitAt sep s = p :: ps) :
    splitAt sep (c :: s) = (c :: p) :: ps := by
  rw [splitAt, if_neg other, pieces]

theorem split_of_not_mem {sep : Char} {s : String} (without : sep ∉ s.toList) :
    split sep s = [s] := by
  rw [split, splitAt_of_not_mem without, List.map_singleton, String.ofList_toList]

/-- The first piece reaches up to the first separator. -/
theorem splitAt_eq_takeWhile (sep : Char) (s : List Char) :
    ∃ rest, splitAt sep s = s.takeWhile (· != sep) :: rest := by
  induction s with
  | nil => exact ⟨[], rfl⟩
  | cons c s ih =>
    obtain ⟨rest, pieces⟩ := ih
    by_cases here : c = sep
    · exact ⟨splitAt sep s, by simp [splitAt, here]⟩
    · exact ⟨rest, by simp [splitAt, here, pieces]⟩

/-- A text without a separator is one piece; else the first piece ends at the first one. -/
theorem cut?_or_split (path : String) :
    (cut? "." path = none ∧ split '.' path = [path]) ∨
      ∃ root rest, cut? "." path = some (root, rest) ∧
        split '.' path = root :: split '.' rest := by
  have dot : ".".toList = ['.'] := rfl
  by_cases dotted : '.' ∈ path.toList
  · obtain ⟨root, rest, whole, dotless⟩ := List.eq_append_cons_of_mem dotted
    refine .inr ⟨String.ofList root, String.ofList rest, ?_, ?_⟩
    · rw [cut?, dot, whole, cutChars_append dotless, Option.map_some]
    · rw [split, whole, splitAt_append dotless, List.map_cons, split,
        String.toList_ofList]
  · refine .inl ⟨?_, ?_⟩
    · rw [cut?_eq_none_iff, dot, List.singleton_infix_iff]
      exact dotted
    · exact split_of_not_mem dotted

/-- What goes on after a text goes on after its last piece. -/
theorem splitAt_append_of_concat {sep : Char} {s last : List Char} {before : List (List Char)}
    (pieces : splitAt sep s = before ++ [last]) (t : List Char) :
    splitAt sep (s ++ t) = before ++ splitAt sep (last ++ t) := by
  induction s generalizing before last with
  | nil =>
    have one : [] ++ [[]] = before ++ [last] := pieces
    obtain ⟨rfl, same⟩ := List.append_inj' one rfl
    rw [← List.singleton_inj.1 same]
    rfl
  | cons c s ih =>
    by_cases here : c = sep
    · rw [here, splitAt_cons_self] at pieces
      cases before with
      | nil => exact absurd (List.cons.inj pieces).2 (splitAt_ne_nil sep s)
      | cons p before =>
        obtain ⟨rfl, further⟩ := List.cons.inj pieces
        rw [here, List.cons_append, splitAt_cons_self, ih further, List.cons_append]
    · obtain ⟨p, ps, own⟩ := List.exists_cons_of_ne_nil (splitAt_ne_nil sep s)
      rw [splitAt_cons_of_ne here own] at pieces
      cases before with
      | nil =>
        obtain ⟨rfl, rfl⟩ := List.cons.inj pieces
        obtain ⟨q, qs, more⟩ := List.exists_cons_of_ne_nil (splitAt_ne_nil sep (p ++ t))
        have further : splitAt sep (s ++ t) = q :: qs := (ih (List.nil_append [p] ▸ own)).trans more
        rw [List.nil_append, List.cons_append, List.cons_append, splitAt_cons_of_ne here further,
          splitAt_cons_of_ne here more]
      | cons q before =>
        obtain ⟨rfl, rfl⟩ := List.cons.inj pieces
        have further := ih (own.trans List.cons_append.symm)
        exact splitAt_cons_of_ne here further

theorem not_mem_of_mem_splitAt {sep : Char} {s p : List Char} (piece : p ∈ splitAt sep s) :
    sep ∉ p := by
  induction s generalizing p with
  | nil =>
    rw [List.mem_singleton.1 piece]
    exact List.not_mem_nil
  | cons c s ih =>
    by_cases here : c = sep
    · rw [here, splitAt_cons_self] at piece
      obtain rfl | later := List.mem_cons.1 piece
      · exact List.not_mem_nil
      · exact ih later
    · obtain ⟨q, qs, own⟩ := List.exists_cons_of_ne_nil (splitAt_ne_nil sep s)
      rw [own] at ih
      rw [splitAt_cons_of_ne here own] at piece
      obtain rfl | later := List.mem_cons.1 piece
      · exact List.not_mem_cons_of_ne_of_not_mem (Ne.symm here) (ih List.mem_cons_self)
      · exact ih (List.mem_cons_of_mem q later)

theorem not_mem_of_mem_split {sep : Char} {s p : String} (piece : p ∈ split sep s) :
    sep ∉ p.toList := by
  obtain ⟨q, member, rfl⟩ := List.mem_map.1 piece
  rw [String.toList_ofList]
  exact not_mem_of_mem_splitAt member

theorem split_append_of_concat {sep : Char} {s last : String} {before : List String}
    (pieces : split sep s = before ++ [last]) (t : String) :
    split sep (s ++ t) = before ++ split sep (last ++ t) := by
  obtain ⟨start, ending, whole, rfl, one⟩ := List.map_eq_append_iff.1 pieces
  obtain ⟨last, rfl, rfl⟩ := List.map_eq_singleton_iff.1 one
  rw [split, String.toList_append, splitAt_append_of_concat whole, List.map_append, split,
    String.toList_append, String.toList_ofList]

/-! ## Trimming -/

/-- Nothing is dropped from a text that begins with another character. -/
theorem dropWhile_of_head? {p : Char → Bool} {s : List Char} (first : ∀ c ∈ s.head?, p c = false) :
    s.dropWhile p = s := by
  cases s with
  | nil => rfl
  | cons c s => exact List.dropWhile_cons_of_neg (Bool.eq_false_iff.1 (first c rfl))

/-- Trimming leaves a text as it is that begins and ends with other characters. -/
theorem trimChars_of_ends {s : List Char} (first : ∀ c ∈ s.head?, isBlank c = false)
    (last : ∀ c ∈ s.getLast?, isBlank c = false) : trimChars s = s := by
  rw [trimChars, dropBlanks, dropWhile_of_head? first, dropBlanksEnd,
    dropWhile_of_head? (by rwa [List.head?_reverse]), List.reverse_reverse]

/-- Trimming leaves a text without blanks as it is. -/
theorem trimChars_eq_self {cs : List Char} (solid : ∀ c ∈ cs, isBlank c = false) :
    trimChars cs = cs :=
  trimChars_of_ends (fun c first => solid c (List.mem_of_mem_head? first))
    fun c last => solid c (List.mem_of_mem_getLast? last)

/-- One character at each end is taken away, and nothing inside. -/
theorem trimWhere_between {p : Char → Bool} {c d : Char} {s : String} (first : p c = true)
    (last : p d = true) (inside : ∀ e ∈ s.toList, p e = false) :
    trimWhere p (String.singleton c ++ s ++ String.singleton d) = s := by
  have chars : (String.singleton c ++ s ++ String.singleton d).toList =
      c :: (s.toList ++ [d]) := by simp
  rw [trimWhere, chars, List.dropWhile_cons_of_pos first]
  cases text : s.toList with
  | nil =>
    rw [String.toList_eq_nil_iff.1 text]
    simp [last]
  | cons e es =>
    rw [text] at inside
    rw [List.cons_append, List.dropWhile_cons_of_neg
        (Bool.eq_false_iff.1 (inside e List.mem_cons_self)), ← List.cons_append,
      List.reverse_concat, List.dropWhile_cons_of_pos last, dropWhile_of_head?,
      List.reverse_reverse, ← text, String.ofList_toList]
    rw [List.head?_reverse]
    exact fun x ends => inside x (List.mem_of_mem_getLast? ends)

end DataMigration.Text
