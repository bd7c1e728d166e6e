import DataMigration.Operator.Wording
import DataMigration.Validation.Rule

/-!
# Telephone numbers

The operator on telephone numbers and the rule for them keep the same characters of a text, and both
count bytes. What the operator makes of a number is clean, and a clean number stays as it is. But
the plus sign that the operator puts in front counts for the rule as a digit does, so of the numbers
that the rule accepts it refuses the longest ones without a plus sign once they are cleaned.
-/

namespace DataMigration.Reshape

/-- The bytes that characters take. -/
def byteCount (cs : List Char) : Nat := (String.ofList cs).utf8ByteSize

theorem byteCount_plus (cs : List Char) : byteCount ('+' :: cs) = byteCount cs + 1 := by
  rw [byteCount, String.ofList_cons, String.utf8ByteSize_append, Nat.add_comm]
  rfl

/-- A digit or a plus sign. -/
def isPhoneChar (c : Char) : Bool := Text.isDigit c || c == '+'

/-- Characters that need a plus sign in front: they have none there, and take more than ten bytes. -/
def NeedsPlus (cs : List Char) : Prop := cs.head? ≠ some '+' ∧ 10 < byteCount cs

instance (cs : List Char) : Decidable (NeedsPlus cs) :=
  inferInstanceAs (Decidable (cs.head? ≠ some '+' ∧ 10 < byteCount cs))

/-- With a plus sign in front, if it is needed. -/
def led (cs : List Char) : List Char := if NeedsPlus cs then '+' :: cs else cs

/-- A number without decoration: digits and plus signs that need no other plus sign. -/
structure IsClean (cs : List Char) : Prop where
  nonempty : cs ≠ []
  plain : ∀ c ∈ cs, isPhoneChar c = true
  led : ¬ NeedsPlus cs

theorem isClean_led {cs : List Char} (nonempty : cs ≠ []) (plain : ∀ c ∈ cs, isPhoneChar c = true) :
    IsClean (led cs) := by
  unfold led
  split
  · refine ⟨List.cons_ne_nil _ _, ?_, fun needs => needs.1 rfl⟩
    rintro c (_ | ⟨_, member⟩)
    · rfl
    · exact plain c member
  · rename_i needless
    exact ⟨nonempty, plain, needless⟩

theorem phoneChars_plain (s : String) : ∀ c ∈ phoneChars s, isPhoneChar c = true :=
  fun _ member => (List.mem_filter.1 member).2

theorem phoneChars_of_plain {cs : List Char} (plain : ∀ c ∈ cs, isPhoneChar c = true) :
    phoneChars (String.ofList cs) = cs := by
  rw [phoneChars, String.toList_ofList]
  exact List.filter_eq_self.2 plain

theorem cleanPhone_of_ne_nil {v : Value} (nonempty : phoneChars v.text ≠ []) :
    cleanPhone v = some (.str (String.ofList (led (phoneChars v.text)))) := by
  simp only [cleanPhone, if_neg nonempty, led]
  exact (apply_ite (fun cs => some (Value.str (String.ofList cs))) _ _ _).symm

theorem cleanPhone_eq_some_iff {v w : Value} :
    cleanPhone v = some w ↔
      phoneChars v.text ≠ [] ∧ w = .str (String.ofList (led (phoneChars v.text))) := by
  by_cases none : phoneChars v.text = []
  · simp [cleanPhone, none]
  · rw [cleanPhone_of_ne_nil none, Option.some.injEq, eq_comm]
    exact (and_iff_right none).symm

/-- A clean number stays as it is. -/
theorem IsClean.cleanPhone_eq {cs : List Char} (clean : IsClean cs) :
    cleanPhone (.str (String.ofList cs)) = some (.str (String.ofList cs)) := by
  have kept : phoneChars (Value.str (String.ofList cs)).text = cs :=
    phoneChars_of_plain clean.plain
  rw [cleanPhone_eq_some_iff, kept, Reshape.led, if_neg clean.led]
  exact ⟨clean.nonempty, rfl⟩

/-- The rule accepts seven to fifteen bytes of digits and plus signs. -/
theorem phone_accepts_iff {v : Value} :
    FieldRule.phone.check v = none ↔
      7 ≤ byteCount (phoneChars v.text) ∧ byteCount (phoneChars v.text) ≤ 15 := by
  have same : FieldRule.phoneLength v.text = byteCount (phoneChars v.text) := rfl
  simp only [FieldRule.phone, same]
  split
  · rename_i fits
    exact ⟨fun _ => fits, fun _ => rfl⟩
  · rename_i unfit
    exact ⟨(nomatch ·), fun fits => absurd fits unfit⟩

/-- A plus sign is put in front of a number that stays within the limits of the rule exactly when it
is not of the greatest length without one. -/
theorem byteCount_led_le_iff {cs : List Char} (most : byteCount cs ≤ 15) :
    byteCount (led cs) ≤ 15 ↔ cs.head? = some '+' ∨ byteCount cs < 15 := by
  unfold led
  split
  · rename_i needs
    rw [byteCount_plus]
    constructor
    · exact fun fits => .inr fits
    · rintro (leads | short)
      · exact absurd leads needs.1
      · exact short
  · rename_i needless
    refine ⟨fun _ => ?_, fun _ => most⟩
    by_cases leads : cs.head? = some '+'
    · exact .inl leads
    · have short : byteCount cs ≤ 10 := Nat.le_of_not_lt fun long => needless ⟨leads, long⟩
      exact .inr (by omega)

theorem byteCount_le_led (cs : List Char) : byteCount cs ≤ byteCount (led cs) := by
  unfold led
  split
  · rw [byteCount_plus]
    omega
  · exact Nat.le_refl _

/-- Of a number that the rule accepts the operator makes a text, and the rule accepts the text
unless the number has no plus sign in front and takes fifteen bytes already. Cleaning what was
cleaned changes nothing. -/
theorem cleaned_phone_accepted_iff (v : Value) :
    (FieldRule.phone.check v = none →
      ∃ number, cleanPhone v = some (.str number) ∧
        (FieldRule.phone.check (.str number) = none ↔
          (phoneChars v.text).head? = some '+' ∨ FieldRule.phoneLength v.text < 15)) ∧
    ∀ w, cleanPhone v = some w → cleanPhone w = some w := by
  have clean (nonempty : phoneChars v.text ≠ []) : IsClean (led (phoneChars v.text)) :=
    isClean_led nonempty (phoneChars_plain v.text)
  refine ⟨fun accepted => ?_, fun w cleaned => ?_⟩
  · obtain ⟨least, most⟩ := phone_accepts_iff.1 accepted
    have nonempty : phoneChars v.text ≠ [] := by
      intro none
      rw [none] at least
      exact absurd least (by decide)
    have kept := phoneChars_of_plain (clean nonempty).plain
    refine ⟨_, cleanPhone_eq_some_iff.2 ⟨nonempty, rfl⟩, ?_⟩
    rw [phone_accepts_iff, Value.text, kept, byteCount_led_le_iff most]
    exact and_iff_right (Nat.le_trans least (byteCount_le_led _))
  · obtain ⟨nonempty, rfl⟩ := cleanPhone_eq_some_iff.1 cleaned
    exact (clean nonempty).cleanPhone_eq

theorem office_phone_accepted_once_cleaned :
    FieldRule.phone.check (.str "49 30 1234 5678") = none ∧
      ∃ number, cleanPhone (.str "49 30 1234 5678") = some (.str number) ∧
        FieldRule.phone.check (.str number) = none := by
  have accepted : FieldRule.phone.check (.str "49 30 1234 5678") = none := by decide
  obtain ⟨number, cleaned, accepts⟩ := (cleaned_phone_accepted_iff _).1 accepted
  exact ⟨accepted, number, cleaned, accepts.2 (.inr (by decide))⟩

/-- Fifteen digits are accepted, but not with the plus sign that cleaning puts in front of them. -/
theorem fifteen_digits_refused_once_cleaned :
    FieldRule.phone.check (.str "123456789012345") = none ∧
      cleanPhone (.str "123456789012345") = some (.str "+123456789012345") ∧
      FieldRule.phone.check (.str "+123456789012345") = some "Invalid phone number length" := by
  decide

end DataMigration.Reshape
