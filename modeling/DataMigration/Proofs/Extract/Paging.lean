import DataMigration.Extract.Extractor
import DataMigration.Proofs.Migration.Batches

/-!
# Reading page by page

The pages of an extractor are asked for one after the other, each at the offset behind the one
before, until one is short, empty or fails. `Streams` says what comes of that without any bound on
the number of calls. An extractor that serves a list gives the chunks of the list, up to the first
page that fails.
-/

namespace DataMigration

namespace Extractor

/-- What a page gives: records, or why there are none. -/
abbrev Page := Except ExtractionError (List SourceRecord)

section

variable (page : Nat → Nat → Page) (size : Nat)

/-- The stream of pages from an offset on ends after a number of calls: the pages that it yields. -/
inductive Streams : Nat → Nat → List Page → Prop
  | failed {offset : Nat} {e : ExtractionError} (given : page offset size = .error e) :
      Streams offset 1 [.error e]
  | empty {offset : Nat} (given : page offset size = .ok []) : Streams offset 1 []
  | short {offset : Nat} {rs : List SourceRecord} (given : page offset size = .ok rs)
      (some : rs ≠ []) (short : rs.length ≠ size) : Streams offset 1 [.ok rs]
  | full {offset calls : Nat} {rs : List SourceRecord} {rest : List Page}
      (given : page offset size = .ok rs) (some : rs ≠ []) (full : rs.length = size)
      (further : Streams (offset + rs.length) calls rest) :
      Streams offset (calls + 1) (.ok rs :: rest)

variable {page size}

/-- A reader that may make as many calls yields the stream. -/
theorem Streams.pagesFrom_eq {offset calls : Nat} {pages : List Page}
    (h : Streams page size offset calls pages) {fuel : Nat} (enough : calls ≤ fuel) :
    pagesFrom page size fuel offset = pages := by
  induction h generalizing fuel with
  | failed given =>
    obtain ⟨fuel, rfl⟩ := Nat.exists_eq_add_of_le' enough
    simp only [pagesFrom, given]
  | empty given =>
    obtain ⟨fuel, rfl⟩ := Nat.exists_eq_add_of_le' enough
    simp only [pagesFrom, given]
  | short given some short =>
    obtain ⟨fuel, rfl⟩ := Nat.exists_eq_add_of_le' enough
    obtain ⟨r, rs, rfl⟩ := List.exists_cons_of_ne_nil some
    simp only [pagesFrom, given, if_neg short]
  | full given some full further ih =>
    obtain ⟨fuel, rfl⟩ : ∃ n, fuel = n + 1 := ⟨fuel - 1, by omega⟩
    obtain ⟨r, rs, rfl⟩ := List.exists_cons_of_ne_nil some
    simp only [pagesFrom, given, if_pos full]
    rw [ih (Nat.le_of_succ_le_succ enough)]

end

/-- An extractor serves a list of records: a page that does not fail holds those from its offset on,
at most as many as its limit. -/
def Serves (e : Extractor) (fs : Files) (records : List SourceRecord)
    (failure : Nat → Nat → Option ExtractionError) : Prop :=
  ∀ offset limit, e.page fs offset limit =
    match failure offset limit with
    | some reason => .error reason
    | none => .ok ((records.drop offset).take limit)

/-- Records at hand are served without failure. -/
theorem ofRecords_serves (source : Source) (records : List SourceRecord) (fs : Files) :
    (ofRecords source records).Serves fs records fun _ _ => none :=
  fun _ _ => rfl

/-- A file that can be read is served without failure, and any other fails at every page. -/
theorem ofFile_serves {source : Source} {now : Calendar.Instant} {e : Extractor}
    (built : ofFile source now = .ok e) (fs : Files) :
    ∃ records failure, e.Serves fs records failure ∧
      (failure = (fun _ _ => none) ∨ ∃ reason, failure = fun _ _ => some reason) := by
  simp only [ofFile] at built
  split at built
  · cases built
  · rename_i path _
    cases built
    cases given : readRecords source now path fs with
    | error reason =>
      exact ⟨[], fun _ _ => some reason, fun _ _ => by simp only [given, Except.map],
        .inr ⟨reason, rfl⟩⟩
    | ok records =>
      exact ⟨records, fun _ _ => none, fun _ _ => by simp only [given, Except.map], .inl rfl⟩

section

variable {e : Extractor} {fs : Files} {records : List SourceRecord}
  {failure : Nat → Nat → Option ExtractionError} {size : Nat}

theorem Serves.page_of_none (serves : e.Serves fs records failure) {offset : Nat}
    (succeeds : failure offset size = none) :
    e.page fs offset size = .ok ((records.drop offset).take size) := by
  rw [serves, succeeds]

theorem Serves.page_of_some (serves : e.Serves fs records failure) {offset : Nat}
    {reason : ExtractionError} (fails : failure offset size = some reason) :
    e.page fs offset size = .error reason := by
  rw [serves, fails]

/-- A full page leads on to the page behind it. -/
theorem Serves.streams_full (serves : e.Serves fs records failure) (positive : 0 < size)
    {offset calls : Nat} {part : List SourceRecord} {rest : List Page}
    (succeeds : failure offset size = none) (taken : (records.drop offset).take size = part)
    (full : part.length = size) (further : Streams (e.page fs) size (offset + size) calls rest) :
    Streams (e.page fs) size offset (calls + 1) (.ok part :: rest) := by
  have given := serves.page_of_none succeeds
  rw [taken] at given
  exact .full given (List.ne_nil_of_length_pos (by omega)) full (full.symm ▸ further)

/-- When no page fails that is asked for, all chunks of the rest of the list are yielded, and one
call more is made than there are full chunks. -/
theorem Serves.streams_all (serves : e.Serves fs records failure) (positive : 0 < size)
    (parts : List (List SourceRecord)) (offset : Nat) (within : offset ≤ records.length)
    (chunks : Chunks size (records.drop offset) parts)
    (succeeds : ∀ k, offset + k * size ≤ records.length →
      failure (offset + k * size) size = none) :
    Streams (e.page fs) size offset ((records.length - offset) / size + 1) (parts.map .ok) := by
  have first : ∀ offset, offset ≤ records.length → (∀ k, offset + k * size ≤ records.length →
      failure (offset + k * size) size = none) → failure offset size = none := by
    intro offset within succeeds
    simpa using succeeds 0 (by simpa using within)
  induction parts generalizing offset with
  | nil =>
    have none : records.drop offset = [] := chunks.whole.symm
    have given := serves.page_of_none (first offset within succeeds)
    rw [none, List.take_nil] at given
    rw [← List.length_drop, none, List.length_nil, Nat.zero_div]
    exact .empty given
  | cons part parts ih =>
    have here := first offset within succeeds
    have rest : (records.drop offset).length = records.length - offset := List.length_drop
    by_cases many : size ≤ (records.drop offset).length
    · obtain ⟨full, taken, others⟩ := chunks.full_cons many
      have later : offset + size ≤ records.length := by omega
      have shifted : ∀ k, offset + size + k * size = offset + (k + 1) * size := by
        intro k
        rw [Nat.succ_mul]
        omega
      rw [List.drop_drop] at others
      have further := ih (offset + size) later others fun k reached => by
        rw [shifted] at reached ⊢
        exact succeeds (k + 1) reached
      have calls : (records.length - offset) / size =
          (records.length - (offset + size)) / size + 1 := by
        rw [Nat.div_eq_sub_div positive (by omega), Nat.sub_sub]
      rw [calls]
      exact serves.streams_full positive here taken full further
    · have few : (records.drop offset).length < size := Nat.lt_of_not_le many
      obtain ⟨whole, rfl, some⟩ := chunks.short_cons few
      have given := serves.page_of_none here
      rw [List.take_of_length_le few.le, whole] at given
      rw [← rest, Nat.div_eq_of_lt few]
      rw [whole] at few
      exact .short given some few.ne

/-- When a page fails that is asked for, the chunks before it are yielded, and then the failure. -/
theorem Serves.streams_until (serves : e.Serves fs records failure) (positive : 0 < size)
    {reason : ExtractionError} (k : Nat) (parts : List (List SourceRecord)) (offset : Nat)
    (chunks : Chunks size (records.drop offset) parts)
    (within : offset + k * size ≤ records.length)
    (fails : failure (offset + k * size) size = some reason)
    (succeeds : ∀ j < k, failure (offset + j * size) size = none) :
    Streams (e.page fs) size offset (k + 1) ((parts.take k).map .ok ++ [.error reason]) := by
  induction k generalizing parts offset with
  | zero =>
    rw [Nat.zero_mul, Nat.add_zero] at fails
    exact .failed (serves.page_of_some fails)
  | succ k ih =>
    have shifted : ∀ j, offset + (j + 1) * size = offset + size + j * size := by
      intro j
      rw [Nat.succ_mul]
      omega
    have many : size ≤ (records.drop offset).length := by
      rw [List.length_drop]
      rw [shifted] at within
      omega
    cases parts with
    | nil =>
      have none : records.drop offset = [] := chunks.whole.symm
      rw [none, List.length_nil] at many
      omega
    | cons part parts =>
      obtain ⟨full, taken, others⟩ := chunks.full_cons many
      rw [List.drop_drop] at others
      have further := ih parts (offset + size) others (shifted k ▸ within) (shifted k ▸ fails)
        fun j before => shifted j ▸ succeeds (j + 1) (Nat.succ_lt_succ before)
      exact serves.streams_full positive (by simpa using succeeds 0 (Nat.succ_pos k)) taken full
        further

end

/-- The stream of an extractor that serves a list ends. If no page fails that it asks for, it yields
the chunks of the whole list, after one call more than there are full chunks. If one fails, it
yields the chunks before the first that does, then the reason, and ends there. The reader of all
pages yields the same whenever its bound is at least the number of records. -/
theorem stream_serves_chunks {e : Extractor} {fs : Files} {records : List SourceRecord}
    {failure : Nat → Nat → Option ExtractionError} (serves : e.Serves fs records failure)
    (size : Nat) :
    let limit := max size 1
    ∃ parts, Chunks limit records parts ∧
      ((∀ k, k * limit ≤ records.length → failure (k * limit) limit = none) →
        Streams (e.page fs) limit 0 (records.length / limit + 1) (parts.map .ok) ∧
        ∀ count, records.length ≤ count → e.pages fs size count = parts.map .ok) ∧
      ∀ k reason, k * limit ≤ records.length → failure (k * limit) limit = some reason →
        (∀ j < k, failure (j * limit) limit = none) →
        Streams (e.page fs) limit 0 (k + 1) ((parts.take k).map .ok ++ [.error reason]) ∧
        ∀ count, records.length ≤ count →
          e.pages fs size count = (parts.take k).map .ok ++ [.error reason] := by
  intro limit
  have positive : 0 < limit := by omega
  have chunks : Chunks limit (records.drop 0) (batches size records) := batches_chunks size records
  refine ⟨batches size records, chunks, fun succeeds => ?_, fun k reason within fails succeeds => ?_⟩
  · have streams := serves.streams_all positive _ 0 (Nat.zero_le _) chunks
      fun k reached => by
        rw [Nat.zero_add] at reached ⊢
        exact succeeds k reached
    rw [Nat.sub_zero] at streams
    refine ⟨streams, fun count enough => streams.pagesFrom_eq ?_⟩
    have calls : records.length / limit ≤ records.length := Nat.div_le_self _ _
    omega
  · have streams := serves.streams_until positive k _ 0 chunks (by omega)
      (by rw [Nat.zero_add]; exact fails)
      fun j before => by rw [Nat.zero_add]; exact succeeds j before
    refine ⟨streams, fun count enough => streams.pagesFrom_eq ?_⟩
    have calls : k ≤ k * limit := Nat.le_mul_of_pos_right k positive
    omega

/-- Five customers, and a source of them whose third page of two fails. -/
def fiveCustomers : List SourceRecord :=
  (Source.ofType .manual "shop" "customer").records ⟨0, 0⟩
    ((List.range 5).map fun i => .obj [("id", .nat i)])

/-- The source of the customers is gone before the fifth of them is read. -/
def goneBeforeFifth (offset _limit : Nat) : Option ExtractionError :=
  if offset = 4 then some (.remote "shop_customer" "gone") else none

/-- An extractor of the customers that fails from the fifth on. -/
def interruptedCustomers : Extractor where
  source := Source.ofType .manual "shop" "customer"
  problems _ := []
  extract _ := .ok (.ofRecords fiveCustomers)
  page _ offset limit :=
    match goneBeforeFifth offset limit with
    | some reason => .error reason
    | none => .ok ((fiveCustomers.drop offset).take limit)

theorem interruptedCustomers_streamed :
    interruptedCustomers.Serves {} fiveCustomers goneBeforeFifth ∧
      ∃ parts, Chunks 2 fiveCustomers parts ∧ interruptedCustomers.pages {} 2 5 =
        (parts.take 2).map .ok ++ [.error (.remote "shop_customer" "gone")] := by
  have serves : interruptedCustomers.Serves {} fiveCustomers goneBeforeFifth := fun _ _ => rfl
  obtain ⟨parts, chunks, _, interrupted⟩ := stream_serves_chunks serves 2
  have streams := interrupted 2 _ (by decide) rfl (by decide)
  exact ⟨serves, parts, chunks, streams.2 5 (by decide)⟩

end Extractor

end DataMigration
