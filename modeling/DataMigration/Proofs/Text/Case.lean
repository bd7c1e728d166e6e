import DataMigration.Text.Case
import DataMigration.Text.Cut
import Mathlib.Data.List.Forall2

/-!
# Spellings of a text

Two texts are spellings of each other when they differ in nothing but the case of ASCII letters.
The lower-case form by the full mappings looks at more than one character: a capital sigma is
written by what stands around it. But ASCII letters count alike for that in both cases, so all
spellings of a text have one lower-case form.
-/

namespace DataMigration.Text

/-! ## Letters -/

theorem isAlpha_iff {c : Char} :
    c.isAlpha = true ↔ 65 ≤ c.toNat ∧ c.toNat ≤ 90 ∨ 97 ≤ c.toNat ∧ c.toNat ≤ 122 := by
  have letters : c.isAlpha = (decide (c.val ≥ 'A'.val ∧ c.val ≤ 'Z'.val) ||
      decide (c.val ≥ 'a'.val) && decide (c.val ≤ 'z'.val)) := rfl
  simp [letters, UInt32.le_iff_toNat_le]

theorem toNat_toLower (c : Char) :
    c.toLower.toNat = if 65 ≤ c.toNat ∧ c.toNat ≤ 90 then c.toNat + 32 else c.toNat := by
  have upper : c.val ≥ 'A'.val ∧ c.val ≤ 'Z'.val ↔ 65 ≤ c.toNat ∧ c.toNat ≤ 90 := by
    simp [UInt32.le_iff_toNat_le]
  unfold Char.toLower
  by_cases capital : 65 ≤ c.toNat ∧ c.toNat ≤ 90
  · have small : (c.val + ('a'.val - 'A'.val)).toNat = c.toNat + 32 := by
      have code : c.val.toNat = c.toNat := rfl
      have apart : ('a'.val - 'A'.val).toNat = 32 := rfl
      rw [UInt32.toNat_add, code, apart]
      omega
    rw [dif_pos (upper.2 capital), if_pos capital]
    exact small
  · rw [dif_neg (mt upper.1 capital), if_neg capital]

/-- Characters that are lowered to the same one are the same, or letters. -/
theorem eq_or_isAlpha_of_toLower_eq {c d : Char} (same : c.toLower = d.toLower) :
    c = d ∨ c.isAlpha = true ∧ d.isAlpha = true := by
  have codes := congrArg Char.toNat same
  rw [toNat_toLower, toNat_toLower] at codes
  rw [← Char.toNat_inj, isAlpha_iff, isAlpha_iff]
  split at codes <;> split at codes <;> omega

theorem cased_of_isAlpha {c : Char} (letter : c.isAlpha = true) :
    inRanges casedRanges c = true := by
  refine inRanges_iff.2 ?_
  obtain capital | small := isAlpha_iff.1 letter
  · exact ⟨(65, 90), by decide, capital⟩
  · exact ⟨(97, 122), by decide, small⟩

theorem not_ignorable_of_isAlpha {c : Char} (letter : c.isAlpha = true) :
    inRanges caseIgnorableRanges c = false := by
  have apart : (caseIgnorableRanges.all fun r =>
      decide (r.2 < 65) || decide (90 < r.1) && decide (r.2 < 97) || decide (122 < r.1)) = true := by
    decide +kernel
  rw [Bool.eq_false_iff, ne_eq, inRanges_iff]
  rintro ⟨r, member, low, high⟩
  have outside := List.all_eq_true.1 apart r member
  have letter := isAlpha_iff.1 letter
  simp only [Bool.or_eq_true, Bool.and_eq_true, decide_eq_true_eq] at outside
  omega

/-! ## Spellings -/

/-- The texts differ in the case of ASCII letters only. -/
abbrev Spellings (s t : List Char) : Prop := List.Forall₂ (fun c d => c.toLower = d.toLower) s t

theorem sameIgnoringCase_iff_spellings {a b : String} :
    sameIgnoringCase a b = true ↔ Spellings a.toList b.toList := by
  rw [sameIgnoringCase_iff, ← List.forall₂_eq_eq_eq, List.forall₂_map_left_iff,
    List.forall₂_map_right_iff]

/-- A text without ASCII letters has no other spelling. -/
theorem Spellings.eq_of_plain {s t : List Char} (spellings : Spellings s t)
    (plain : ∀ c ∈ s, c.isAlpha = false) : s = t := by
  induction spellings with
  | nil => rfl
  | cons same _ ih =>
    obtain ⟨first, others⟩ := List.forall_mem_cons.1 plain
    obtain rfl | ⟨letter, _⟩ := eq_or_isAlpha_of_toLower_eq same
    · exact congrArg _ (ih others)
    · rw [first] at letter
      cases letter

theorem eq_of_sameIgnoringCase {a b : String} (plain : ∀ c ∈ a.toList, c.isAlpha = false)
    (same : sameIgnoringCase a b = true) : a = b :=
  String.toList_inj.1 ((sameIgnoringCase_iff_spellings.1 same).eq_of_plain plain)

section

variable {c d : Char} {s t before before' : List Char}

theorem inRanges_cased_congr (same : c.toLower = d.toLower) :
    inRanges casedRanges c = inRanges casedRanges d := by
  obtain rfl | ⟨letter, letter'⟩ := eq_or_isAlpha_of_toLower_eq same
  · rfl
  · rw [cased_of_isAlpha letter, cased_of_isAlpha letter']

theorem inRanges_ignorable_congr (same : c.toLower = d.toLower) :
    inRanges caseIgnorableRanges c = inRanges caseIgnorableRanges d := by
  obtain rfl | ⟨letter, letter'⟩ := eq_or_isAlpha_of_toLower_eq same
  · rfl
  · rw [not_ignorable_of_isAlpha letter, not_ignorable_of_isAlpha letter']

theorem lowerChar_congr (same : c.toLower = d.toLower) : lowerChar c = lowerChar d := by
  obtain rfl | ⟨letter, letter'⟩ := eq_or_isAlpha_of_toLower_eq same
  · rfl
  · rw [isAlpha_iff] at letter letter'
    rw [lowerChar, lowerChar, if_pos (by omega), if_pos (by omega), same]

theorem isSigma_congr (same : c.toLower = d.toLower) : c.toNat = 0x3A3 ↔ d.toNat = 0x3A3 := by
  obtain rfl | ⟨letter, letter'⟩ := eq_or_isAlpha_of_toLower_eq same
  · rfl
  · rw [isAlpha_iff] at letter letter'
    omega

/-- Whether a cased character comes first is the same for all spellings. -/
theorem cased_congr (spellings : Spellings s t) : cased s = cased t := by
  induction spellings with
  | nil => rfl
  | @cons c d s t same _ ih =>
    have ignorable := inRanges_ignorable_congr same
    unfold cased at ih ⊢
    cases skipped : inRanges caseIgnorableRanges c with
    | true =>
      rw [List.dropWhile_cons_of_pos skipped, List.dropWhile_cons_of_pos (ignorable ▸ skipped)]
      exact ih
    | false =>
      rw [List.dropWhile_cons_of_neg (Bool.eq_false_iff.1 skipped),
        List.dropWhile_cons_of_neg (Bool.eq_false_iff.1 (ignorable ▸ skipped))]
      exact inRanges_cased_congr same

theorem lowerAfter_congr (spellings : Spellings s t) (earlier : Spellings before before') :
    lowerAfter before s = lowerAfter before' t := by
  induction spellings generalizing before before' with
  | nil => rfl
  | @cons c d s t same rest ih =>
    simp only [lowerAfter, ih (.cons same earlier), isSigma_congr same, lowerChar_congr same,
      cased_congr earlier, cased_congr rest]

end

/-- All spellings of a text have one lower-case form. -/
theorem toLower_congr {a b : String} (same : sameIgnoringCase a b = true) :
    toLower a = toLower b :=
  congrArg String.ofList (lowerAfter_congr (sameIgnoringCase_iff_spellings.1 same) .nil)

end DataMigration.Text
