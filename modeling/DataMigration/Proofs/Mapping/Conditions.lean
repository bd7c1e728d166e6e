import DataMigration.Mapping.Field
import DataMigration.Proofs.Text

/-!
# Conditions that are read back

A condition is written as a path and an operator, with its literal between quotes. Reading looks for
the operators one after the other in the whole text, also between the quotes. So an equality is read
back whatever its literal is, and a difference is read back unless its literal has the operator of
equality in it, which is then taken for the operator of the condition.
-/

namespace DataMigration

theorem Path.lookup_null (path : String) : lookup .null path = none := by
  unfold lookup
  split
  · rfl
  · rename_i s rest _
    cases s <;> rfl

namespace Condition

/-! ## Written conditions -/

/-- A literal between quotes. -/
def quoted (q : Char) (literal : String) : String :=
  String.singleton q ++ literal ++ String.singleton q

/-- The text of a condition, with its literal between quotes. -/
def write (q : Char) : Condition → String
  | .exists path => path ++ " exists"
  | .equals path literal => path ++ " == " ++ quoted q literal
  | .differs path literal => path ++ " != " ++ quoted q literal

/-- A text without blanks. -/
structure IsWord (path : String) : Prop where
  ne_empty : path ≠ ""
  solid : ∀ c ∈ path.toList, Text.isBlank c = false

instance (path : String) : Decidable (IsWord path) :=
  decidable_of_iff (path ≠ "" ∧ (path.toList.all fun c => !Text.isBlank c) = true)
    ⟨fun h => ⟨h.1, Text.all_outside_iff.1 h.2⟩,
      fun h => ⟨h.ne_empty, Text.all_outside_iff.2 h.solid⟩⟩

section

variable {path literal : String} {q : Char}

theorem isBlank_of_isQuote (quote : isQuote q = true) : Text.isBlank q = false := by
  simp only [isQuote, Bool.or_eq_true, beq_iff_eq] at quote
  obtain rfl | rfl := quote <;> decide

namespace IsWord

theorem trim_eq (word : IsWord path) : Text.trim path = path := by
  rw [Text.trim, Text.trimChars_of_ends (fun c first => word.solid c (List.mem_of_mem_head? first))
    (fun c last => word.solid c (List.mem_of_mem_getLast? last)), String.ofList_toList]

theorem space_notMem (word : IsWord path) : ' ' ∉ path.toList := fun member => by
  have solid := word.solid ' ' member
  exact absurd solid (by decide)

/-- What begins with a word and does not end with a blank is not trimmed. -/
theorem trimChars_append (word : IsWord path) {rest : List Char} {last : Char}
    (ends : rest.getLast? = some last) (solid : Text.isBlank last = false) :
    Text.trimChars (path.toList ++ rest) = path.toList ++ rest := by
  have some : path.toList ≠ [] := fun none => word.ne_empty (String.toList_eq_nil_iff.1 none)
  refine Text.trimChars_of_ends (fun c first => ?_) (fun c last => ?_)
  · rw [List.head?_append_of_ne_nil _ some] at first
    exact word.solid c (List.mem_of_mem_head? first)
  · rw [List.getLast?_append, ends] at last
    cases last
    exact solid

end IsWord

/-- Quotes are taken off a literal that has none in it. -/
theorem unquote_quoted (quote : isQuote q = true)
    (unquoted : ∀ c ∈ literal.toList, isQuote c = false) :
    unquote (quoted q literal) = literal := by
  have solid := isBlank_of_isQuote quote
  have chars : (quoted q literal).toList = q :: (literal.toList ++ [q]) := by simp [quoted]
  have trimmed : Text.trim (quoted q literal) = quoted q literal := by
    rw [Text.trim, Text.trimChars_of_ends, String.ofList_toList]
    · rw [chars]
      rintro _ ⟨⟩
      exact solid
    · rw [chars, ← List.cons_append, List.getLast?_concat]
      rintro _ ⟨⟩
      exact solid
  rw [unquote, trimmed, quoted, Text.trimWhere_between quote quote unquoted]

/-! ## Reading them -/

theorem parse?_write_exists (word : IsWord path) :
    parse? (path ++ " exists") = some (.exists path) := by
  have last : " exists".toList.getLast? = some 's' := rfl
  have trimmed : Text.trim (path ++ " exists") = path ++ " exists" := by
    rw [Text.trim, String.toList_append, word.trimChars_append last (by decide),
      ← String.toList_append, String.ofList_toList]
  have before : Text.beforeEnd? " exists" (path ++ " exists") = some path := by
    rw [Text.beforeEnd?, String.toList_append, List.isSuffixOf?_eq_some_iff_append_eq.2 rfl,
      Option.map_some, String.ofList_toList]
  simp only [parse?, trimmed, before, word.trim_eq, if_neg word.ne_empty]

/-- A text that begins with a path and ends with a quoted literal is cut at an operator. -/
theorem parse?_quoted (word : IsWord path) (quote : isQuote q = true) (operator : String) :
    parse? (path ++ operator ++ quoted q literal) =
      match Text.cut? " == " (path ++ operator ++ quoted q literal) with
      | some (path, literal) => some (.equals (Text.trim path) (unquote literal))
      | none => (Text.cut? " != " (path ++ operator ++ quoted q literal)).map fun p =>
          .differs (Text.trim p.1) (unquote p.2) := by
  have ends : (path ++ operator ++ quoted q literal).toList =
      path.toList ++ (operator.toList ++ q :: literal.toList ++ [q]) := by simp [quoted]
  have trimmed : Text.trim (path ++ operator ++ quoted q literal) =
      path ++ operator ++ quoted q literal := by
    rw [Text.trim, ends, word.trimChars_append (List.getLast?_concat ..) (isBlank_of_isQuote quote),
      ← ends, String.ofList_toList]
  have before : Text.beforeEnd? " exists" (path ++ operator ++ quoted q literal) = none := by
    have other : 's' ≠ q := by
      rintro rfl
      exact absurd quote (by decide)
    have last : " exists".toList.reverse = 's' :: "tsixe ".toList := by decide
    rw [Text.beforeEnd?, ends, List.isSuffixOf?, ← List.append_assoc, List.reverse_append, last]
    simp [List.isPrefixOf?, other]
  cases cut : Text.cut? " == " (path ++ operator ++ quoted q literal) <;>
    simp only [parse?, trimmed, before, cut]

/-- An operator behind a path is found. -/
theorem cut?_word (word : IsWord path) {operator : String}
    (spaced : operator.toList.head? = some ' ') (rest : String) :
    Text.cut? operator (path ++ operator ++ rest) = some (path, rest) := by
  obtain ⟨tail, begins⟩ := List.head?_eq_some_iff.1 spaced
  have whole : (path ++ operator ++ rest).toList =
      path.toList ++ (operator.toList ++ rest.toList) := by simp
  rw [Text.cut?, whole, begins, Text.cutChars_append_of_notMem _ _ word.space_notMem,
    Text.cutChars_start (List.cons_ne_nil _ _)]
  simp

/-- Equality is found in a written difference where it is found in the literal. -/
theorem cut?_write_differs (word : IsWord path) (quote : isQuote q = true) :
    Text.cut? " == " (path ++ " != " ++ quoted q literal) = (Text.cut? " == " literal).map
      fun p => (path ++ " != " ++ String.singleton q ++ p.1, p.2 ++ String.singleton q) := by
  have sep : " == ".toList = [' ', '=', '=', ' '] := rfl
  have foreign : q ∉ [' ', '=', '=', ' '] := by
    simp only [isQuote, Bool.or_eq_true, beq_iff_eq] at quote
    obtain rfl | rfl := quote <;> decide
  obtain ⟨blank, equal⟩ : ' ' ≠ q ∧ '=' ≠ q :=
    ⟨by rintro rfl; simp at foreign, by rintro rfl; simp at foreign⟩
  have whole : (path ++ " != " ++ quoted q literal).toList =
      path.toList ++ (' ' :: '!' :: '=' :: ' ' :: q :: (literal.toList ++ [q])) := by simp [quoted]
  have past : ∀ s, Text.cutChars [' ', '=', '=', ' '] (' ' :: '!' :: '=' :: ' ' :: q :: s) =
      (Text.cutChars [' ', '=', '=', ' '] s).map fun p =>
        (' ' :: '!' :: '=' :: ' ' :: q :: p.1, p.2) := by
    intro s
    simp [Text.cutChars, List.isPrefixOf?, blank, equal, Function.comp_def]
  rw [Text.cut?, whole, sep, Text.cutChars_append_of_notMem _ _ word.space_notMem, past,
    Text.cutChars_concat (List.cons_ne_nil _ _) foreign, Text.cut?, sep]
  simp only [Option.map_map]
  congr 1
  funext p
  simp [← String.toList_inj]

/-- A difference whose literal has the operator of equality in it is read as an equality. -/
theorem parse?_write_differs (word : IsWord path) (quote : isQuote q = true)
    (unquoted : ∀ c ∈ literal.toList, isQuote c = false) :
    parse? (write q (.differs path literal)) =
      match Text.cut? " == " literal with
      | some (before, after) =>
        some (.equals (Text.trim (path ++ " != " ++ String.singleton q ++ before))
          (unquote (after ++ String.singleton q)))
      | none => some (.differs path literal) := by
  rw [write, parse?_quoted word quote, cut?_write_differs word quote]
  cases Text.cut? " == " literal with
  | some cut => rfl
  | none =>
    rw [cut?_word word rfl]
    simp only [Option.map_none, Option.map_some, word.trim_eq, unquote_quoted quote unquoted]

theorem parse?_write_equals (word : IsWord path) (quote : isQuote q = true)
    (unquoted : ∀ c ∈ literal.toList, isQuote c = false) :
    parse? (write q (.equals path literal)) = some (.equals path literal) := by
  rw [write, parse?_quoted word quote, cut?_word word rfl]
  simp only [word.trim_eq, unquote_quoted quote unquoted]

theorem parse?_write_differs_iff (word : IsWord path) (quote : isQuote q = true)
    (unquoted : ∀ c ∈ literal.toList, isQuote c = false) :
    parse? (write q (.differs path literal)) = some (.differs path literal) ↔
      ¬ " == ".toList <:+: literal.toList := by
  rw [parse?_write_differs word quote unquoted, ← Text.cutChars_eq_none_iff, Text.cut?]
  cases Text.cutChars " == ".toList literal.toList <;> simp

end

/-! ## Guards -/

/-- A written condition is read back, except a difference whose literal has the operator of equality
in it. Exactly where it is, a field mapping that is guarded by the difference applies to one payload
when the one that is guarded by the equality does not. -/
theorem parse?_write_iff {path literal : String} {q : Char} (word : IsWord path)
    (quote : isQuote q = true) (unquoted : ∀ c ∈ literal.toList, isQuote c = false) :
    parse? (write q (.exists path)) = some (.exists path) ∧
    parse? (write q (.equals path literal)) = some (.equals path literal) ∧
    (parse? (write q (.differs path literal)) = some (.differs path literal) ↔
      ¬ " == ".toList <:+: literal.toList) ∧
    ((∀ (m : FieldMapping) (payload : Value),
      ({ m with condition := some (write q (.differs path literal)) }.applies [payload] = true ↔
        ¬ { m with condition := some (write q (.equals path literal)) }.applies [payload] = true)) ↔
      ¬ " == ".toList <:+: literal.toList) := by
  have equals := parse?_write_equals word quote unquoted
  have differs := parse?_write_differs_iff word quote unquoted
  refine ⟨parse?_write_exists word, equals, differs, fun opposite => ?_, fun free m payload => ?_⟩
  · -- over a payload without values no equality holds, also none that a difference is taken for
    have unheld : ∀ path literal, (Condition.equals path literal).holds [.null] = false := by
      simp [holds, holdsFor, Path.lookup_null]
    rw [← differs]
    by_contra misread
    have atNull := opposite { target := "" } .null
    rw [parse?_write_differs word quote unquoted] at misread
    simp only [FieldMapping.applies, textHolds, equals, unheld,
      parse?_write_differs word quote unquoted] at atNull
    cases cut : Text.cut? " == " literal with
    | none => simp [cut] at misread
    | some parts => simp [cut, unheld] at atNull
  · simp only [FieldMapping.applies, textHolds, equals, differs.2 free, holds, holdsFor,
      List.any_cons, List.any_nil, Bool.or_false]
    cases Path.lookup payload path <;> simp

/-- The guards of a field mapping for active customers and for all others. -/
theorem status_guards_opposite :
    IsWord "status" ∧ isQuote '\'' = true ∧ (∀ c ∈ "active".toList, isQuote c = false) ∧
    ¬ " == ".toList <:+: "active".toList ∧
    parse? "status != 'active'" = some (.differs "status" "active") ∧
    ∀ (m : FieldMapping) (payload : Value),
      { m with condition := some "status != 'active'" }.applies [payload] = true ↔
        ¬ { m with condition := some "status == 'active'" }.applies [payload] = true := by
  have word : IsWord "status" := by decide
  have unquoted : ∀ c ∈ "active".toList, isQuote c = false := Text.all_outside_iff.1 (by decide)
  have free : ¬ " == ".toList <:+: "active".toList := by decide
  obtain ⟨_, _, read, opposite⟩ := parse?_write_iff word (q := '\'') (by decide) unquoted
  exact ⟨word, by decide, unquoted, free, read.2 free, opposite.2 free⟩

/-- A difference from a literal with the operator of equality in it is read as an equality at
another path. So it does not hold where the value is another one. -/
theorem formula_guard_misread :
    parse? "formula != 'a == b'" = some (.equals "formula != 'a" "b") ∧
    textHolds "formula != 'a == b'" [.obj [("formula", .str "c")]] = false ∧
    textHolds "formula == 'a == b'" [.obj [("formula", .str "c")]] = false := by
  decide +kernel

end Condition

end DataMigration
