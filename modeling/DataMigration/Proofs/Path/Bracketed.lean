import DataMigration.Proofs.Path.Joined
import Mathlib.Data.List.TakeWhile

/-!
# Segments with brackets

A segment `name[digits]` is a word and, in brackets, decimal digits of any script. It is an index
when the digits are ASCII digits of a number that a machine word holds; otherwise it is written
like an index and gives none.
-/

namespace DataMigration

/-! ## The number that digits write -/

namespace Decimal

/-- The number that ASCII digits write. -/
def value (digits : List Char) : Nat := digits.foldl (fun n c => 10 * n + (c.toNat - 48)) 0

theorem nat?_eq_value {digits : List Char} (nonempty : digits ≠ [])
    (ascii : ∀ c ∈ digits, (digit? c).isSome = true) : nat? digits = some (value digits) := by
  have each : ∀ n : Nat, digits.foldl (fun (acc : Option Nat) c =>
      acc.bind fun n => (digit? c).map fun d => 10 * n + d) (some n) =
        some (digits.foldl (fun n c => 10 * n + (c.toNat - 48)) n) := by
    clear nonempty
    induction digits with
    | nil => exact fun n => rfl
    | cons c digits ih =>
      obtain ⟨first, others⟩ := List.forall_mem_cons.1 ascii
      have read : digit? c = some (c.toNat - 48) := by
        unfold digit? at first ⊢
        split at first
        · rename_i range
          exact if_pos range
        · cases first
      intro n
      rw [List.foldl_cons, Option.bind_some, read]
      exact ih others _
  cases digits with
  | nil => exact absurd rfl nonempty
  | cons c digits => exact each 0

/-- Digits give no machine word if one of them is no ASCII digit or their number is too large. -/
theorem word?_eq_none_iff {digits : List Char} (nonempty : digits ≠ []) (unsigned : '+' ∉ digits) :
    word? digits = none ↔ (∃ c ∈ digits, digit? c = none) ∨ wordBound ≤ value digits := by
  have whole : word? digits = (nat? digits).filter fun n : Nat => isWord n := by
    unfold word?
    split
    · exact absurd List.mem_cons_self unsigned
    · rfl
  by_cases foreign : ∃ c ∈ digits, digit? c = none
  · refine iff_of_true ?_ (.inl foreign)
    obtain ⟨c, member, none⟩ := foreign
    cases reads : nat? digits with
    | none => rw [whole, reads]; rfl
    | some n =>
      have digit := Path.digits_of_nat? (by rw [reads]; rfl) c member
      rw [none] at digit
      cases digit
  · have ascii : ∀ c ∈ digits, (digit? c).isSome = true := fun c member =>
      Option.isSome_iff_ne_none.2 fun none => foreign ⟨c, member, none⟩
    have word : isWord (value digits) = decide ((value digits : Int) < wordBound) := by
      simp only [isWord, Int.natCast_nonneg, decide_true, Bool.true_and]
    rw [or_iff_right foreign, whole, nat?_eq_value nonempty ascii, Option.filter_eq_none_iff]
    simp [word]

/-! ## The digits of a number -/

theorem ascii_of_mem_natDigits {n : Nat} {c : Char} (member : c ∈ natDigits n) :
    48 ≤ c.toNat ∧ c.toNat ≤ 57 := by
  have ascii := Nat.isDigit_of_mem_toDigits (by decide) (by decide) member
  simp only [Char.isDigit, Bool.and_eq_true, decide_eq_true_eq, ge_iff_le,
    UInt32.le_iff_toNat_le] at ascii
  exact ascii

theorem isDigit_of_mem_natDigits {n : Nat} {c : Char} (member : c ∈ natDigits n) :
    Text.isDigit c = true := by
  have ascii := ascii_of_mem_natDigits member
  rw [Text.isDigit, if_pos (by omega)]
  simpa using ascii

theorem natDigits_ne_nil (n : Nat) : natDigits n ≠ [] := Nat.toDigits_ne_nil

theorem value_natDigits (n : Nat) : value (natDigits n) = n :=
  Nat.ofDigitChars_toDigits (by decide) (by decide)

/-- A machine word is read back from its digits. -/
theorem word?_natDigits {n : Nat} (word : (n : Int) < wordBound) :
    word? (natDigits n) = some n := by
  have ascii : ∀ c ∈ natDigits n, (digit? c).isSome = true := fun c member => by
    rw [digit?, if_pos (ascii_of_mem_natDigits member)]
    rfl
  have unsigned : ∀ rest, natDigits n ≠ '+' :: rest := fun rest signed =>
    absurd (ascii_of_mem_natDigits (signed ▸ List.mem_cons_self)) (by decide)
  unfold word?
  split
  · rename_i rest signed
    exact absurd signed (unsigned rest)
  · rw [nat?_eq_value (natDigits_ne_nil n) ascii, value_natDigits]
    simp [isWord, word]

end Decimal

namespace Path

/-! ## A name and digits in brackets -/

/-- The text is `name[digits]`. -/
structure IsBracketed (text name digits : List Char) : Prop where
  whole : text = name ++ '[' :: (digits ++ [']'])
  named : name ≠ []
  word : ∀ c ∈ name, Text.isWordChar c = true
  indexed : digits ≠ []
  digital : ∀ c ∈ digits, Text.isDigit c = true

theorem bracket_not_word : ¬ Text.isWordChar '[' = true := by decide

theorem bracket_not_digit : ¬ Text.isDigit ']' = true := by decide

theorem bracketed?_eq_some_iff {text name digits : List Char} :
    bracketed? text = some (name, digits) ↔ IsBracketed text name digits := by
  constructor
  · intro reads
    unfold bracketed? at reads
    split at reads
    · rename_i rest opens
      simp only [Option.ite_none_right_eq_some, Option.some.injEq, Prod.mk.injEq] at reads
      obtain ⟨⟨named, indexed, closes⟩, rfl, rfl⟩ := reads
      refine ⟨?_, named, fun c member => List.mem_takeWhile_imp member, indexed,
        fun c member => List.mem_takeWhile_imp member⟩
      rw [← closes, List.takeWhile_append_dropWhile, ← opens, List.takeWhile_append_dropWhile]
    · cases reads
  · rintro ⟨rfl, named, word, indexed, digital⟩
    have name_eq : (name ++ '[' :: (digits ++ [']'])).takeWhile Text.isWordChar = name := by
      rw [List.takeWhile_append_of_pos word, List.takeWhile_cons_of_neg bracket_not_word,
        List.append_nil]
    have rest_eq : (name ++ '[' :: (digits ++ [']'])).dropWhile Text.isWordChar =
        '[' :: (digits ++ [']']) := by
      rw [List.dropWhile_append_of_pos word, List.dropWhile_cons_of_neg bracket_not_word]
    have digits_eq : (digits ++ [']']).takeWhile Text.isDigit = digits := by
      rw [List.takeWhile_append_of_pos digital, List.takeWhile_cons_of_neg bracket_not_digit,
        List.append_nil]
    have closes : (digits ++ [']']).dropWhile Text.isDigit = [']'] := by
      rw [List.dropWhile_append_of_pos digital, List.dropWhile_cons_of_neg bracket_not_digit]
    simp only [bracketed?, name_eq, rest_eq, digits_eq, closes]
    rw [if_pos ⟨named, indexed, trivial⟩]

/-- A text is written like an element in at most one way. -/
theorem IsBracketed.parts {text name digits before inside after : List Char}
    (form : IsBracketed text name digits)
    (whole : text = before ++ '[' :: (inside ++ ']' :: after)) :
    before = name ∧ inside = digits ∧ after = [] := by
  have opens : '[' ∉ name := fun member => bracket_not_word (form.word _ member)
  have closes : ']' ∉ digits := fun member => bracket_not_digit (form.digital _ member)
  have inner : '[' ∉ digits ++ [']'] := by
    rw [List.mem_append, List.mem_singleton]
    rintro (member | same)
    · exact absurd (form.digital _ member) (by decide)
    · exact absurd same (by decide)
  obtain ⟨rfl, _, rest⟩ :=
    (List.append_cons_inj_of_notMem opens inner).1 (form.whole.symm.trans whole)
  obtain ⟨rfl, _, rfl⟩ := (List.append_cons_inj_of_notMem closes List.not_mem_nil).1 rest
  exact ⟨rfl, rfl, rfl⟩

/-- A segment is an element if it is written like one and its digits give the index. -/
theorem ofText_eq_indexed_iff {text name : String} {i : Nat} :
    Segment.ofText text = .indexed name i ↔
      ∃ digits, IsBracketed text.toList name.toList digits ∧ Decimal.word? digits = some i := by
  simp only [← bracketed?_eq_some_iff]
  unfold Segment.ofText
  cases bracketed? text.toList with
  | none => simp
  | some parts =>
    obtain ⟨own, digits⟩ := parts
    cases word : Decimal.word? digits <;> simp [word, ← String.toList_inj]

/-- A segment `name[digits]` whose digits give no index: not all of them are ASCII digits, or they
write a number that no machine word holds. -/
def GivesNoIndex (text : String) : Prop :=
  ∃ name digits, IsBracketed text.toList name digits ∧
    ((∃ c ∈ digits, Decimal.digit? c = none) ∨ Decimal.wordBound ≤ Decimal.value digits)

theorem ofText_eq_unindexable_iff {text : String} :
    (∃ t, Segment.ofText text = .unindexable t) ↔ GivesNoIndex text := by
  simp only [GivesNoIndex, ← bracketed?_eq_some_iff]
  unfold Segment.ofText
  cases bracketed : bracketed? text.toList with
  | none => simp
  | some parts =>
    obtain ⟨name, digits⟩ := parts
    have form := bracketed?_eq_some_iff.1 bracketed
    have unsigned : '+' ∉ digits := fun member =>
      absurd (form.digital '+' member) (by decide)
    have own : ∀ name' digits', some (name, digits) = some (name', digits') ↔
        name' = name ∧ digits' = digits := by
      intro name' digits'
      rw [Option.some.injEq, Prod.mk.injEq, eq_comm, eq_comm (a := digits)]
    simp only [own, and_assoc, exists_eq_left, exists_and_left]
    rw [← Decimal.word?_eq_none_iff form.indexed unsigned]
    cases Decimal.word? digits <;> simp

end Path

end DataMigration
