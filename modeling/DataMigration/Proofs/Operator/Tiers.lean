import DataMigration.Operator.Structure
import DataMigration.Proofs.Dict
import Mathlib.Data.List.Chain

/-!
# Bands of price tiers

A tier says how far it goes and a band says where it starts, too: at the unit after the bound of the
tier before it. So tiers whose bounds ascend become bands side by side, and every unit up to the
last bound lies in exactly one of them. The operator refuses nothing but parts that are no objects
and bounds that are no numbers.
-/

namespace DataMigration.Reshape

/-! ## Bounds -/

/-- The bound of a tier as it is given, unless it is missing or null. -/
def upTo? (tier : Dict Value) : Option Value := configValue? tier "up_to"

/-- Without the blanks around it, the text writes a whole number of 64 bits or a finite decimal. -/
def WritesNumber (s : String) : Prop :=
  (Decimal.int64? (Text.trimChars s.toList)).isSome = true ∨
    ∃ x, Decimal.float? (Text.trimChars s.toList) = some x ∧ x.isFinite = true

/-- What is no tier: something that is no object, or one whose bound neither is a number nor writes
one. -/
inductive Malformed : Value → Prop
  | item {v : Value} (other : ∀ tier, v ≠ .obj tier) : Malformed v
  | bound {tier : Dict Value} {v : Value} (bound : upTo? tier = some v) (number : ∀ n, v ≠ .num n)
      (text : ∀ s, v = .str s → ¬ WritesNumber s) : Malformed (.obj tier)

theorem numberOf?_str_eq_none_iff {s : String} : numberOf? (.str s) = none ↔ ¬ WritesNumber s := by
  cases whole : Decimal.int64? (Text.trimChars s.toList) <;> simp [numberOf?, WritesNumber, whole]

theorem numberOf?_eq_none_iff {v : Value} :
    numberOf? v = none ↔ (∀ n, v ≠ .num n) ∧ ∀ s, v = .str s → ¬ WritesNumber s := by
  cases v with
  | num n => cases h : n.toInt64? <;> simp [numberOf?, h]
  | str s => simp [numberOf?_str_eq_none_iff]
  | _ => simp [numberOf?]

/-- A bound is refused when it is given and no number. -/
theorem tierBound_error_iff {index : Nat} {tier : Dict Value} :
    (∃ e, tierBound index tier = .error e) ↔ Malformed (.obj tier) := by
  have refused : (∃ e, tierBound index tier = .error e) ↔
      ∃ v, upTo? tier = some v ∧ numberOf? v = none := by
    unfold tierBound upTo?
    cases configValue? tier "up_to" with
    | none => simp [pure, Except.pure]
    | some v =>
      cases number : numberOf? v <;>
        simp [number, pure, Except.pure, throw, throwThe, MonadExceptOf.throw]
  simp only [refused, numberOf?_eq_none_iff]
  constructor
  · rintro ⟨v, given, number, text⟩
    exact .bound given number text
  · rintro (other | ⟨given, number, text⟩)
    · exact absurd rfl (other tier)
    · exact ⟨_, given, number, text⟩

theorem tierBound_open {index : Nat} {tier : Dict Value} (without : upTo? tier = none) :
    tierBound index tier = .ok none := by
  rw [upTo?] at without
  simp only [tierBound, without]
  rfl

theorem tierBound_whole {index : Nat} {tier : Dict Value} {n : Int}
    (given : upTo? tier = some (.num (.int n))) (fits : Decimal.isInt64 n = true) :
    tierBound index tier = .ok (some (.int n)) := by
  rw [upTo?] at given
  simp only [tierBound, given, numberOf?, Number.toInt64?, fits, if_true]
  rfl

/-! ## What is refused -/

section

variable {fields : Dict Value} {openEnd : Value} {index : Nat} {start : Number}

theorem bands_obj (tier : Dict Value) (items : List Value) :
    bands fields openEnd index start (.obj tier :: items) =
      (tierBound index tier).bind fun bound =>
        (bands fields openEnd (index + 1) (unitAfter bound) items).map
          (band fields openEnd start tier :: ·) := by
  rw [bands]
  cases tierBound index tier with
  | error e => rfl
  | ok bound => cases bands fields openEnd (index + 1) (unitAfter bound) items <;> rfl

/-- There are no bands exactly if some item is no tier. -/
theorem bands_error_iff {items : List Value} :
    (∃ e, bands fields openEnd index start items = .error e) ↔ ∃ item ∈ items, Malformed item := by
  induction items generalizing index start with
  | nil => simp [bands, pure, Except.pure]
  | cons item items ih =>
    simp only [List.exists_mem_cons_iff]
    cases item with
    | obj tier =>
      rw [bands_obj]
      cases bounded : tierBound index tier with
      | error e =>
        have bad : Malformed (.obj tier) := tierBound_error_iff.1 ⟨e, bounded⟩
        exact iff_of_true ⟨e, rfl⟩ (.inl bad)
      | ok bound =>
        have good : ¬ Malformed (.obj tier) := fun bad => by
          obtain ⟨e, refused⟩ : ∃ e, tierBound index tier = .error e := tierBound_error_iff.2 bad
          rw [bounded] at refused
          cases refused
        rw [or_iff_right good, ← @ih (index + 1) (unitAfter bound)]
        cases rest : bands fields openEnd (index + 1) (unitAfter bound) items <;>
          simp [Except.bind, Except.map, rest]
    | _ => exact iff_of_true ⟨_, rfl⟩ (.inl (.item nofun))

end

theorem tierMapping_error_iff {items : List Value} {config : Dict Value} :
    (∃ e, tierMapping (some (.arr items)) config = .error e) ↔ ∃ item ∈ items, Malformed item := by
  have refused : (∃ e, bands ((configObject? config "field_mapping").getD defaultTierFields)
      ((Dict.get? config "null_up_to").getD (.str "inf")) 0 (.int 1) items = .error e) ↔
      ∃ item ∈ items, Malformed item := bands_error_iff
  rw [← refused, tierMapping]
  cases bands ((configObject? config "field_mapping").getD defaultTierFields)
    ((Dict.get? config "null_up_to").getD (.str "inf")) 0 (.int 1) items <;>
      simp [bind, Except.bind, pure, Except.pure]

/-! ## Bands side by side -/

/-- What stands for the end of a tier without a bound. -/
def sentinel (config : Dict Value) : Value := (Dict.get? config "null_up_to").getD (.str "inf")

/-- Tiers whose bounds are whole numbers that ascend from `start` on. Only the last may be open. -/
structure Ascending (start : Int) (tiers : List (Dict Value)) : Prop where
  whole : ∀ tier ∈ tiers, ∀ v, upTo? tier = some v →
    ∃ n : Int, v = .num (.int n) ∧ start ≤ n ∧ n < Decimal.int64Bound - 1
  closed : ∀ tier ∈ tiers.dropLast, upTo? tier ≠ none
  rising : tiers.Pairwise fun a b => ∀ m n : Int, upTo? a = some (.num (.int m)) →
    upTo? b = some (.num (.int n)) → m < n

/-- The band of a tier: it starts at a unit, ends at the bound or at the sentinel, and has the
amount as its price. -/
structure IsBand (openEnd : Value) (start : Int) (tier : Dict Value) (band : Value) : Prop where
  starts : band.member? "starting_unit" = some (.num (.int start))
  ends : band.member? "ending_unit" = some ((upTo? tier).getD openEnd)
  price : band.member? "price" = configValue? tier "unit_amount"

theorem isBand_band (openEnd : Value) (start : Int) (tier : Dict Value) :
    IsBand openEnd start tier (band defaultTierFields openEnd (.int start) tier) := by
  constructor <;>
    cases upTo : configValue? tier "up_to" <;> cases amount : configValue? tier "unit_amount" <;>
      simp [band, defaultTierFields, upTo?, upTo, amount, numberValue?, Value.asText?,
        Value.member?, Dict.get?_insert]

/-- The tier goes up to the unit or further. -/
def GoesTo (tier : Dict Value) (unit : Int) : Prop :=
  upTo? tier = none ∨ ∃ n : Int, upTo? tier = some (.num (.int n)) ∧ unit ≤ n

/-- The bands of tiers, the first of which starts at a unit and each next one at the unit after the
bound of the tier before. -/
inductive Laid (openEnd : Value) : Int → List (Dict Value) → List Value → Prop
  | last {start : Int} {tier : Dict Value} {band : Value} (own : IsBand openEnd start tier band)
      (long : GoesTo tier start) : Laid openEnd start [tier] [band]
  | next {start n : Int} {tier : Dict Value} {band : Value} {tiers : List (Dict Value)}
      {bands : List Value} (own : IsBand openEnd start tier band)
      (bound : upTo? tier = some (.num (.int n))) (long : start ≤ n)
      (rest : Laid openEnd (n + 1) tiers bands) : Laid openEnd start (tier :: tiers) (band :: bands)

theorem isInt64_of_unit {n : Int} (low : 1 ≤ n) (high : n < Decimal.int64Bound - 1) :
    Decimal.isInt64 n = true := by
  have least : Decimal.int64Min ≤ 0 := by decide
  simp only [Decimal.isInt64, Bool.and_eq_true, decide_eq_true_eq]
  omega

section

variable {openEnd : Value} {start : Int} {tier : Dict Value} {tiers : List (Dict Value)}

theorem Ascending.tail {n : Int} (ascending : Ascending start (tier :: tiers))
    (bound : upTo? tier = some (.num (.int n))) : Ascending (n + 1) tiers where
  whole := fun tier' member v given => by
    obtain ⟨m, rfl, _, fits⟩ := ascending.whole tier' (List.mem_cons_of_mem _ member) v given
    have above := List.rel_of_pairwise_cons ascending.rising member n m bound given
    exact ⟨m, rfl, by omega, fits⟩
  closed := fun tier' member => by
    refine ascending.closed tier' ?_
    rw [List.dropLast_cons_of_ne_nil (by rintro rfl; cases member)]
    exact List.mem_cons_of_mem _ member
  rising := ascending.rising.of_cons

/-- Ascending tiers are laid side by side. -/
theorem bands_laid (some : tiers ≠ []) (low : 1 ≤ start) (ascending : Ascending start tiers)
    (index : Nat) : ∃ laid, bands defaultTierFields openEnd index (.int start)
      (tiers.map .obj) = .ok laid ∧ Laid openEnd start tiers laid := by
  induction tiers generalizing start index with
  | nil => exact absurd rfl some
  | cons tier tiers ih =>
    have own := isBand_band openEnd start tier
    rw [List.map_cons, bands_obj]
    cases given : upTo? tier with
    | none =>
      cases tiers with
      | nil =>
        rw [tierBound_open given]
        exact ⟨_, rfl, .last own (.inl given)⟩
      | cons next tiers =>
        exact absurd given (ascending.closed tier List.mem_cons_self)
    | some v =>
      obtain ⟨n, rfl, long, fits⟩ := ascending.whole tier List.mem_cons_self v given
      rw [tierBound_whole given (isInt64_of_unit (by omega) fits)]
      cases tiers with
      | nil => exact ⟨_, rfl, .last own (.inr ⟨n, given, long⟩)⟩
      | cons next tiers =>
        obtain ⟨laid, made, rest⟩ := ih (List.cons_ne_nil _ _) (by omega) (ascending.tail given)
          (index + 1)
        refine ⟨_, ?_, .next own given long rest⟩
        simp only [Except.bind, unitAfter, if_pos (show n + 1 < Decimal.int64Bound by omega), made,
          Except.map]

end

/-- The unit lies in the band of a tier: not before its start and, unless the tier is open, not
after its end. -/
structure Covers (tier : Dict Value) (band : Value) (unit : Int) : Prop where
  starts : ∃ n : Int, band.member? "starting_unit" = some (.num (.int n)) ∧ n ≤ unit
  ends : upTo? tier = none ∨
    ∃ n : Int, band.member? "ending_unit" = some (.num (.int n)) ∧ unit ≤ n

theorem IsBand.covers_iff {openEnd : Value} {start : Int} {tier : Dict Value} {band : Value}
    (own : IsBand openEnd start tier band) {unit : Int} :
    Covers tier band unit ↔ start ≤ unit ∧ GoesTo tier unit := by
  have ends : (upTo? tier = none ∨
      ∃ n : Int, band.member? "ending_unit" = some (.num (.int n)) ∧ unit ≤ n) ↔
        GoesTo tier unit := by
    rw [GoesTo, own.ends]
    cases upTo? tier <;> simp
  constructor
  · rintro ⟨⟨n, first, low⟩, high⟩
    rw [own.starts] at first
    cases first
    exact ⟨low, ends.1 high⟩
  · rintro ⟨low, high⟩
    exact ⟨⟨start, own.starts, low⟩, ends.2 high⟩

/-- The unit lies in the band with a given number. -/
def CoversAt (tiers : List (Dict Value)) (bands : List Value) (unit : Int) (i : Nat) : Prop :=
  ∃ tier band, tiers[i]? = some tier ∧ bands[i]? = some band ∧ Covers tier band unit

section

variable {unit : Int} {tier : Dict Value} {tiers : List (Dict Value)} {band : Value}
  {bands : List Value}

theorem coversAt_zero_iff :
    CoversAt (tier :: tiers) (band :: bands) unit 0 ↔ Covers tier band unit := by
  simp [CoversAt]

theorem coversAt_succ_iff {i : Nat} :
    CoversAt (tier :: tiers) (band :: bands) unit (i + 1) ↔ CoversAt tiers bands unit i := by
  simp [CoversAt]

theorem exists_coversAt_cons_iff : (∃ i, CoversAt (tier :: tiers) (band :: bands) unit i) ↔
    Covers tier band unit ∨ ∃ i, CoversAt tiers bands unit i := by
  rw [← Nat.or_exists_add_one, coversAt_zero_iff]
  simp only [coversAt_succ_iff]

end

/-- A band for each tier, in order and with its end and its price. The first band starts at a unit
and each next one at the unit after the end of the one before. -/
structure Contiguous (openEnd : Value) (start : Int) (tiers : List (Dict Value))
    (bands : List Value) : Prop where
  own : List.Forall₂ (fun tier band =>
    band.member? "ending_unit" = some ((upTo? tier).getD openEnd) ∧
      band.member? "price" = configValue? tier "unit_amount") tiers bands
  first : ∀ band ∈ bands.head?, band.member? "starting_unit" = some (.num (.int start))
  next : bands.IsChain fun band band' =>
    ∃ n : Int, band.member? "ending_unit" = some (.num (.int n)) ∧
      band'.member? "starting_unit" = some (.num (.int (n + 1)))

namespace Laid

variable {openEnd : Value} {start unit : Int} {tier : Dict Value} {tiers : List (Dict Value)}
  {band : Value} {bands : List Value}

theorem start_le (laid : Laid openEnd start tiers bands) {i : Nat}
    (covers : CoversAt tiers bands unit i) : start ≤ unit := by
  induction laid generalizing i with
  | last own _ =>
    cases i with
    | zero => exact (own.covers_iff.1 (coversAt_zero_iff.1 covers)).1
    | succ i => simp [CoversAt] at covers
  | next own _ long _ ih =>
    cases i with
    | zero => exact (own.covers_iff.1 (coversAt_zero_iff.1 covers)).1
    | succ i =>
      have later := ih (coversAt_succ_iff.1 covers)
      omega

/-- No two bands overlap. -/
theorem eq_of_coversAt (laid : Laid openEnd start tiers bands) {i j : Nat}
    (covers : CoversAt tiers bands unit i) (covers' : CoversAt tiers bands unit j) : i = j := by
  induction laid generalizing i j with
  | last own _ =>
    cases i <;> cases j <;> simp [CoversAt] at covers covers' ⊢
  | @next _ n tier band tiers bands own bound long rest ih =>
    -- a unit of the first band is not after its bound, and the other bands start after it
    have apart : ∀ {k}, Covers tier band unit → ¬ CoversAt tiers bands unit k := by
      intro k here there
      have after := rest.start_le there
      obtain ⟨_, without | ⟨m, given, upTo⟩⟩ := own.covers_iff.1 here
      · rw [bound] at without
        cases without
      · rw [bound] at given
        cases given
        omega
    cases i with
    | zero =>
      cases j with
      | zero => rfl
      | succ j => exact absurd (coversAt_succ_iff.1 covers') (apart (coversAt_zero_iff.1 covers))
    | succ i =>
      cases j with
      | zero => exact absurd (coversAt_succ_iff.1 covers) (apart (coversAt_zero_iff.1 covers'))
      | succ j => rw [ih (coversAt_succ_iff.1 covers) (coversAt_succ_iff.1 covers')]

theorem ne_nil (laid : Laid openEnd start tiers bands) : tiers ≠ [] := by
  cases laid <;> exact List.cons_ne_nil _ _

theorem goesTo_last (laid : Laid openEnd start tiers bands) (low : unit ≤ start) :
    ∀ last ∈ tiers.getLast?, GoesTo last unit := by
  induction laid with
  | last own long =>
    rintro _ ⟨⟩
    exact long.imp_right fun ⟨n, given, upTo⟩ => ⟨n, given, by omega⟩
  | @next start n tier band tiers bands own bound long rest ih =>
    obtain ⟨next, tiers, rfl⟩ := List.exists_cons_of_ne_nil rest.ne_nil
    rw [List.getLast?_cons_cons]
    exact ih (by omega)

/-- There are no gaps: the bands cover what lies between the first unit and the last bound. -/
theorem exists_coversAt_iff (laid : Laid openEnd start tiers bands) :
    (∃ i, CoversAt tiers bands unit i) ↔
      start ≤ unit ∧ ∀ last ∈ tiers.getLast?, GoesTo last unit := by
  induction laid with
  | last own _ =>
    rw [exists_coversAt_cons_iff, own.covers_iff]
    simp [CoversAt]
  | @next start n tier band tiers bands own bound long rest ih =>
    have here : GoesTo tier unit ↔ unit ≤ n := by simp [GoesTo, bound]
    obtain ⟨next, tiers, rfl⟩ := List.exists_cons_of_ne_nil rest.ne_nil
    rw [exists_coversAt_cons_iff, own.covers_iff, List.getLast?_cons_cons, here]
    constructor
    · rintro (⟨low, high⟩ | later)
      · exact ⟨low, rest.goesTo_last (by omega)⟩
      · obtain ⟨low, last⟩ := ih.1 later
        exact ⟨by omega, last⟩
    · rintro ⟨low, last⟩
      by_cases high : unit ≤ n
      · exact .inl ⟨low, high⟩
      · exact .inr (ih.2 ⟨by omega, last⟩)

/-- What is laid is contiguous. -/
theorem contiguous (laid : Laid openEnd start tiers bands) :
    Contiguous openEnd start tiers bands := by
  induction laid with
  | last own _ =>
    refine ⟨.cons ⟨own.ends, own.price⟩ .nil, ?_, .singleton _⟩
    rintro _ ⟨⟩
    exact own.starts
  | @next start n tier band tiers bands own bound long rest ih =>
    refine ⟨.cons ⟨own.ends, own.price⟩ ih.own, ?_, ?_⟩
    · rintro _ ⟨⟩
      exact own.starts
    · refine List.isChain_cons.2 ⟨fun band' first => ⟨n, ?_, ih.first band' first⟩, ih.next⟩
      rw [own.ends, bound, Option.getD_some]

end Laid

/-- Tiers whose bounds ascend become bands without gaps and overlaps, and a list is refused exactly
if one of its items is no tier. -/
theorem tierMapping_partitions {tiers : List (Dict Value)} {config : Dict Value}
    (some : tiers ≠ []) (ascending : Ascending 1 tiers)
    (plain : configObject? config "field_mapping" = none) :
    (∃ bands, tierMapping (.some (.arr (tiers.map .obj))) config = .ok (.some (.arr bands)) ∧
      Contiguous (sentinel config) 1 tiers bands ∧
      ∀ unit : Int, (∃! i, CoversAt tiers bands unit i) ↔
        1 ≤ unit ∧ ∀ last ∈ tiers.getLast?, GoesTo last unit) ∧
    ∀ (items : List Value) (config : Dict Value),
      (∃ e, tierMapping (.some (.arr items)) config = .error e) ↔
        ∃ item ∈ items, Malformed item := by
  refine ⟨?_, fun items config => tierMapping_error_iff⟩
  obtain ⟨bands, made, laid⟩ : ∃ laid, bands defaultTierFields (sentinel config) 0 (.int 1)
      (tiers.map .obj) = .ok laid ∧ Laid (sentinel config) 1 tiers laid :=
    bands_laid some (Int.le_refl 1) ascending 0
  refine ⟨bands, ?_, laid.contiguous, fun unit => ?_⟩
  · simp only [tierMapping, plain, Option.getD_none]
    rw [sentinel] at made
    rw [made]
    rfl
  · rw [← laid.exists_coversAt_iff]
    exact ⟨ExistsUnique.exists, fun ⟨i, covers⟩ =>
      ⟨i, covers, fun j other => laid.eq_of_coversAt other covers⟩⟩

/-- Three tiers, the last of which is open. -/
def planTiers : List (Dict Value) := [
  [("unit_amount", .nat 1000), ("up_to", .nat 10)],
  [("unit_amount", .nat 800), ("up_to", .nat 50)],
  [("unit_amount", .nat 500), ("up_to", .null)]]

theorem planTiers_ascending : Ascending 1 planTiers where
  whole := by
    simp only [planTiers, List.forall_mem_cons]
    refine ⟨?_, ?_, ?_, List.forall_mem_nil _⟩
    · rintro _ ⟨⟩
      exact ⟨10, rfl, by decide, by decide⟩
    · rintro _ ⟨⟩
      exact ⟨50, rfl, by decide, by decide⟩
    · rintro _ ⟨⟩
  closed := by decide
  rising := by
    refine .cons ?_ (.cons ?_ (.cons (List.forall_mem_nil _) .nil))
    · rintro _ (_ | ⟨_, _ | ⟨_, ⟨⟩⟩⟩) m n ⟨⟩ ⟨⟩
      decide
    · rintro _ (_ | ⟨_, ⟨⟩⟩) m n ⟨⟩ ⟨⟩

/-- Every unit from 1 on lies in exactly one band of the three tiers. -/
theorem planTiers_partitioned : planTiers ≠ [] ∧ Ascending 1 planTiers ∧
    configObject? [("null_up_to", .str "max")] "field_mapping" = none ∧
    ∃ bands, tierMapping (some (.arr (planTiers.map .obj))) [("null_up_to", .str "max")] =
        .ok (some (.arr bands)) ∧
      Contiguous (.str "max") 1 planTiers bands ∧
      ∀ unit : Int, 1 ≤ unit → ∃! i, CoversAt planTiers bands unit i := by
  have plain : configObject? [("null_up_to", .str "max")] "field_mapping" = none := rfl
  obtain ⟨bands, made, contiguous, covered⟩ :=
    (tierMapping_partitions (by decide) planTiers_ascending plain).1
  refine ⟨by decide, planTiers_ascending, plain, bands, made, contiguous, fun unit low => ?_⟩
  refine (covered unit).2 ⟨low, ?_⟩
  rintro _ ⟨⟩
  exact .inl rfl

end DataMigration.Reshape
