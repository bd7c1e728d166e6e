import DataMigration.Proofs.Path.ReadBack
import DataMigration.Proofs.Registry.ReadableSources

/-!
# The fields of a record after a write

A record takes the first segment of a path as a key of its data, a write takes it as any other
segment. So a record has at a path what is found there in its data as a whole, unless the path
starts with an element of an array. What a write puts into such an element is in the data, but the
record does not have it.
-/

namespace DataMigration

namespace Path

/-- The text of a segment with an index is longer than the name of the array. -/
theorem ne_of_ofText_eq_indexed {text name : String} {i : Nat}
    (indexed : Segment.ofText text = .indexed name i) : text ≠ name := by
  unfold Segment.ofText at indexed
  split at indexed
  · cases indexed
  · rename_i cs digits reads
    split at indexed
    · obtain ⟨rfl, _⟩ := Segment.indexed.inj indexed
      have whole := (bracketed?_eq_some_iff.1 reads).whole
      intro same
      have lengths := congrArg List.length whole
      rw [congrArg String.toList same, String.toList_ofList, List.length_append,
        List.length_cons] at lengths
      omega
    · cases indexed

/-- A write to an element of an array leaves the field that is named like the element. -/
theorem get?_first_write {fields : Dict Value} {path name : String} {i : Nat} {v : Value}
    (indexed : Segment.ofText (first path) = .indexed name i)
    (through : (write fields path v).error = none) :
    Dict.get? (write fields path v).value (first path) = Dict.get? fields (first path) := by
  obtain ⟨nonempty, _⟩ := write_error_eq_none_iff.1 through
  obtain ⟨rest, segs⟩ := segments_eq_cons nonempty
  have planted := obj_write_value through
  rw [places, segs, indexed] at planted
  rw [Value.obj.inj planted, Dict.get?_put, if_neg (ne_of_ofText_eq_indexed indexed)]
  rfl

end Path

namespace TargetRecord

variable {path : String}

/-- A record has what is in its data as a whole, unless the path starts with an element. -/
theorem get?_eq_lookup (r : TargetRecord) (named : ∀ text ∈ Text.split '.' path, text ≠ "")
    (plain : Path.Segment.ofText (Path.first path) = .plain (Path.first path)) :
    r.get? path = Path.lookup (.obj r.data) path := by
  obtain ⟨others, pieces⟩ := Path.split_eq_first path
  have nonempty := Path.ne_empty_of_named named
  rw [pieces] at named
  rw [Path.get?_of_split r pieces (List.forall_mem_cons.1 named).2,
    Path.lookup_eq_present nonempty, Path.segments, if_neg nonempty, pieces, List.map_cons, plain]
  rfl

/-- What a write puts into the data is found there, and the record has it unless the path starts
with an element of an array. There the record has what it had before. -/
theorem get?_after_write {r : TargetRecord} {v : Value}
    (named : ∀ text ∈ Text.split '.' path, text ≠ "")
    (indexed : ∀ text ∈ Text.split '.' path, ¬ Path.GivesNoIndex text)
    (something : v ≠ .null) (through : (Path.write r.data path v).error = none) :
    let written : TargetRecord := { r with data := (Path.write r.data path v).value }
    Path.lookup (.obj written.data) path = some v ∧
      written.get? path =
        match Path.Segment.ofText (Path.first path) with
        | .indexed _ _ => r.get? path
        | _ => some v := by
  intro written
  have found : Path.lookup (.obj written.data) path = some v :=
    Path.lookup_written something through fun ⟨text, member, dead⟩ => indexed text member dead
  refine ⟨found, ?_⟩
  obtain ⟨others, pieces⟩ := Path.split_eq_first path
  cases start : Path.Segment.ofText (Path.first path) with
  | plain name =>
    rw [Path.ofText_eq_plain start] at start
    exact (written.get?_eq_lookup named start).trans found
  | indexed name i =>
    rw [pieces] at named
    obtain ⟨_, named⟩ := List.forall_mem_cons.1 named
    rw [Path.get?_of_split written pieces named, Path.get?_of_split r pieces named,
      Path.get?_first_write start through]
  | unindexable text =>
    have member : Path.first path ∈ Text.split '.' path := pieces ▸ List.mem_cons_self
    exact absurd (Path.ofText_eq_unindexable_iff.1 ⟨text, start⟩) (indexed _ member)

/-- A contact that nothing was written to yet. -/
def blankContact : TargetRecord where
  id := "shop_1"
  service := "crm"
  entity := "contact"
  transformedAt := ⟨0, 0⟩

/-- The contact has a second mail address that was written to its metadata. -/
theorem blankContact_has_written :
    let path := "meta_data.mails[1]"
    let mail := Value.str "ann@x.org"
    let after := Path.write blankContact.data path mail
    (∀ text ∈ Text.split '.' path, text ≠ "") ∧
      (∀ text ∈ Text.split '.' path, ¬ Path.GivesNoIndex text) ∧ mail ≠ .null ∧
      after.error = none ∧
      { blankContact with data := after.value }.get? path = some mail := by
  intro path mail after
  have pieces : Text.split '.' path = ["meta_data", "mails[1]"] := by decide +kernel
  have named : ∀ text ∈ Text.split '.' path, text ≠ "" := by
    rw [pieces]
    decide
  have indexed : ∀ text ∈ Text.split '.' path, ¬ Path.GivesNoIndex text := by
    have readable : Path.walks path ≠ [] := by decide +kernel
    rw [ne_eq, Path.walks_eq_nil_iff (by decide)] at readable
    exact fun text member dead => readable ⟨text, member, dead⟩
  have something : mail ≠ .null := Value.noConfusion
  have through : after.error = none := by decide +kernel
  have start : Path.Segment.ofText (Path.first path) = .plain "meta_data" := by decide +kernel
  obtain ⟨_, had⟩ := get?_after_write named indexed something through
  rw [start] at had
  exact ⟨named, indexed, something, through, had⟩

/-- A mail address that was written as the first element of a list is in the data, but the contact
does not have it. -/
theorem blankContact_lacks_written :
    let path := "emails[0]"
    let mail := Value.str "ann@x.org"
    let after := Path.write blankContact.data path mail
    (∀ text ∈ Text.split '.' path, text ≠ "") ∧
      (∀ text ∈ Text.split '.' path, ¬ Path.GivesNoIndex text) ∧ mail ≠ .null ∧
      after.error = none ∧ Path.lookup (.obj after.value) path = some mail ∧
      { blankContact with data := after.value }.get? path = none := by
  intro path mail after
  have pieces : Text.split '.' path = ["emails[0]"] := by decide +kernel
  have readable : Path.walks path ≠ [] := by decide +kernel
  rw [ne_eq, Path.walks_eq_nil_iff (by decide)] at readable
  refine ⟨?_, fun text member dead => readable ⟨text, member, dead⟩, Value.noConfusion,
    by decide +kernel, by decide +kernel, by decide +kernel⟩
  rw [pieces]
  decide

end TargetRecord

end DataMigration
