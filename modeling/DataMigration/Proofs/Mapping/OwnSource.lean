import DataMigration.Mapping.Apply
import DataMigration.Proofs.Document.Written
import DataMigration.Proofs.Mapping.Conditions
import DataMigration.Proofs.Path.ReadBack

/-!
# Field mappings guarded by their own source

A source path may begin with the name of a service and then goes on in the payload of that service.
A condition knows no services: it looks the whole path up in every payload. So a field mapping that
applies only if its own source exists is applied exactly when the source has a value, whatever the
payloads are, if and only if the path does not address a service.
-/

namespace DataMigration

namespace Path

variable {path head rest : String}

/-- Every segment leads to a value of less depth. -/
theorem depth_lt_of_step {v w : Value} {s : Segment} (there : step v s = some w) :
    w.depth < v.depth := by
  cases s with
  | plain name =>
    cases v with
    | obj fields => exact Value.depth_lt_of_mem (Dict.mem_of_get? there)
    | arr items =>
      obtain ⟨i, _, item⟩ := Option.bind_eq_some_iff.1 there
      exact Value.depth_lt_of_mem_items (List.mem_of_getElem? item)
    | _ => cases there
  | indexed name i =>
    cases v with
    | obj fields =>
      simp only [step, Value.member?] at there
      split at there
      · rename_i items held
        exact Nat.lt_trans (Value.depth_lt_of_mem_items (List.mem_of_getElem? there))
          (Value.depth_lt_of_mem (Dict.mem_of_get? held))
      · cases there
    | _ => cases there
  | unindexable text => cases there

/-- A path is looked up behind its first segment. -/
theorem lookup_cut (cut : Text.cut? "." path = some (head, rest)) (more : rest ≠ "") (v : Value) :
    lookup v path = (step v (Segment.ofText head)).bind fun w => lookup w rest := by
  have named : path ≠ "" := by
    rintro rfl
    cases cut
  obtain ⟨uncut, _⟩ | ⟨root, rest', cut', pieces⟩ := Text.cut?_or_split path
  · rw [cut] at uncut
    cases uncut
  · rw [cut] at cut'
    cases cut'
    rw [lookup_eq_present named, segments, if_neg named, pieces, List.map_cons, walk]
    cases step v (Segment.ofText head) with
    | none => rfl
    | some w =>
      rw [Option.bind_some, Option.bind_some, lookup_eq_present more, segments, if_neg more]

/-- A path under which there can be a value. -/
structure Readable (path : String) : Prop where
  named : path ≠ ""
  alive : ¬ ∃ text ∈ Text.split '.' path, GivesNoIndex text

theorem walks_ne_nil_iff : walks path ≠ [] ↔ Readable path := by
  by_cases empty : path = ""
  · rw [walks, if_pos empty]
    exact ⟨fun some => absurd rfl some, fun readable => absurd empty readable.named⟩
  · rw [ne_eq, walks_eq_nil_iff empty]
    exact ⟨fun alive => ⟨empty, alive⟩, Readable.alive⟩

/-- What a path finds, it finds because it is readable, and every readable path finds something in
some value. -/
theorem exists_lookup_iff : (∃ v w, lookup v path = some w) ↔ Readable path := by
  simp only [← walks_ne_nil_iff, lookup_eq_some_iff]
  constructor
  · rintro ⟨v, w, ps, walk, _⟩
    exact List.ne_nil_of_mem walk
  · intro some
    obtain ⟨ps, walk⟩ := List.exists_mem_of_ne_nil _ some
    have there := found?_plant_below (.bool true) ps [] .null
    rw [List.append_nil] at there
    exact ⟨plant (.bool true) ps .null, .bool true, ps, walk, there⟩

/-- If the path behind the first segment is readable, some value has something there and nothing at
the whole path. -/
theorem exists_only_behind (cut : Text.cut? "." path = some (head, rest))
    (readable : Readable rest) : ∃ v w, lookup v rest = some w ∧ lookup v path = none := by
  obtain ⟨v, w, found⟩ := exists_lookup_iff.2 readable
  have more := readable.named
  -- a value with something at the whole path has a less deep one with something behind the segment
  induction depth : v.depth using Nat.strongRecOn generalizing v w with
  | ind n ih =>
    cases whole : lookup v path with
    | none => exact ⟨v, w, found, whole⟩
    | some u =>
      rw [lookup_cut cut more] at whole
      obtain ⟨inner, there, inside⟩ := Option.bind_eq_some_iff.1 whole
      exact ih inner.depth (depth ▸ depth_lt_of_step there) inner u inside rfl

end Path

namespace Payloads

variable {payloads : Payloads} {services : List String} {path head rest : String}

/-- The path begins with the name of a service, and there can be a value behind the name or at the
whole path. -/
def Addresses (services : List String) (path : String) : Prop :=
  ∃ head rest, Text.cut? "." path = some (head, rest) ∧
    (∃ service ∈ services, Text.sameIgnoringCase service head = true) ∧
    (Path.Readable rest ∨ Path.Readable path)

/-- The path finds something in one of the payloads. -/
def Holds (payloads : Payloads) (path : String) : Prop :=
  ∃ p ∈ payloads, ∃ v, Path.lookup p.2 path = some v

theorem first?_eq_some_iff : (∃ v, payloads.first? path = some v) ↔ payloads.Holds path := by
  rw [← Option.isSome_iff_exists, first?, List.isSome_findSome?, List.any_eq_true]
  simp only [Option.isSome_iff_exists, Holds]

/-- A condition on a path does not ask for the service. -/
theorem textHolds_exists_iff (word : Condition.IsWord path) :
    Condition.textHolds (path ++ " exists") payloads.values = true ↔ payloads.Holds path := by
  simp only [Condition.textHolds, Condition.parse?_write_exists word, Condition.holds,
    Condition.holdsFor, values, List.any_map, List.any_eq_true, Function.comp,
    Option.isSome_iff_exists, Holds]

theorem service?_eq_none_iff : payloads.service? head = none ↔
    ∀ service ∈ payloads.map Prod.fst, Text.sameIgnoringCase service head ≠ true := by
  simp [service?]

/-- A path that addresses no service is looked up in every payload. -/
theorem resolve?_of_not_addresses (free : ¬ Addresses (payloads.map Prod.fst) path) :
    (∃ v, payloads.resolve? path = some v) ↔ payloads.Holds path := by
  unfold resolve?
  cases cut : Text.cut? "." path with
  | none => exact first?_eq_some_iff
  | some pieces =>
    obtain ⟨head, rest⟩ := pieces
    cases known : payloads.service? head with
    | none => simpa only [known] using first?_eq_some_iff
    | some payload =>
      have named : ∃ service ∈ payloads.map Prod.fst,
          Text.sameIgnoringCase service head = true := by
        by_contra unnamed
        rw [service?_eq_none_iff.2 fun service member same => unnamed ⟨service, member, same⟩]
          at known
        cases known
      -- neither the rest of the path nor the whole path finds anything in any payload
      obtain ⟨behind, whole⟩ := not_or.1 fun readable => free ⟨head, rest, cut, named, readable⟩
      simp only [known]
      refine iff_of_false (fun ⟨v, found⟩ => ?_) fun ⟨p, _, v, found⟩ => ?_
      · exact behind (Path.exists_lookup_iff.1 ⟨payload, v, found⟩)
      · exact whole (Path.exists_lookup_iff.1 ⟨p.2, v, found⟩)

/-! ## Payloads that tell them apart -/

/-- The payloads in which every service has the same value. -/
def same (services : List String) (v : Value) : Payloads := services.map fun service => (service, v)

theorem map_fst_same (services : List String) (v : Value) :
    (same services v).map Prod.fst = services := by
  simp [same, Function.comp_def]

theorem service?_same {service : String} (member : service ∈ services)
    (named : Text.sameIgnoringCase service head = true) (v : Value) :
    (same services v).service? head = some v := by
  cases known : (same services v).service? head with
  | none =>
    rw [service?_eq_none_iff, map_fst_same] at known
    exact absurd named (known service member)
  | some w =>
    obtain ⟨p, found, rfl⟩ := Option.map_eq_some_iff.1 known
    obtain ⟨_, _, rfl⟩ := List.mem_map.1 (List.mem_of_find?_eq_some found)
    rfl

theorem holds_same_iff {service : String} (member : service ∈ services) (v : Value) :
    (same services v).Holds path ↔ ∃ w, Path.lookup v path = some w := by
  constructor
  · rintro ⟨p, inside, found⟩
    obtain ⟨_, _, rfl⟩ := List.mem_map.1 inside
    exact found
  · exact fun found => ⟨(service, v), List.mem_map_of_mem member, found⟩

theorem exists_resolve?_ne_holds (addresses : Addresses services path) :
    ∃ payloads : Payloads, payloads.map Prod.fst = services ∧
      ¬ (payloads.Holds path ↔ ∃ v, payloads.resolve? path = some v) := by
  obtain ⟨head, rest, cut, ⟨service, member, named⟩, readable⟩ := addresses
  have resolves : ∀ v, (same services v).resolve? path = Path.lookup v rest := fun v => by
    simp only [resolve?, cut, service?_same member named v]
  by_cases behind : Path.Readable rest
  · obtain ⟨v, w, found, none⟩ := Path.exists_only_behind cut behind
    refine ⟨same services v, map_fst_same services v, fun agree => ?_⟩
    rw [holds_same_iff member, resolves, none] at agree
    obtain ⟨_, ⟨⟩⟩ := agree.2 ⟨w, found⟩
  · obtain ⟨v, w, found⟩ := Path.exists_lookup_iff.2 (readable.resolve_left behind)
    refine ⟨same services v, map_fst_same services v, fun agree => behind ?_⟩
    rw [holds_same_iff member, resolves] at agree
    exact Path.exists_lookup_iff.1 ⟨v, agree.1 ⟨w, found⟩⟩

/-- Whatever the payloads of some services are, the condition that a path exists holds exactly if
the path has a source value, and under this condition a field mapping that reads the path applies
exactly then: this is so if and only if the path addresses no service. -/
theorem guard_resolves_iff {path : String} (word : Condition.IsWord path) (services : List String) :
    ((∀ payloads : Payloads, payloads.map Prod.fst = services →
        (Condition.textHolds (path ++ " exists") payloads.values = true ↔
          ∃ v, payloads.resolve? path = some v)) ↔
      ¬ Addresses services path) ∧
    ((∀ payloads : Payloads, payloads.map Prod.fst = services →
        ∀ m : FieldMapping, m.source = some path → m.condition = some (path ++ " exists") →
          (m.applies payloads.values = true ↔ ∃ v, m.sourceValue? payloads = some v)) ↔
      ¬ Addresses services path) := by
  have guard : (∀ payloads : Payloads, payloads.map Prod.fst = services →
      (Condition.textHolds (path ++ " exists") payloads.values = true ↔
        ∃ v, payloads.resolve? path = some v)) ↔ ¬ Addresses services path := by
    simp only [textHolds_exists_iff word]
    constructor
    · intro agree addresses
      obtain ⟨payloads, theirs, differ⟩ := exists_resolve?_ne_holds addresses
      exact differ (agree payloads theirs)
    · rintro free payloads rfl
      exact (resolve?_of_not_addresses free).symm
  refine ⟨guard, Iff.trans ?_ guard⟩
  constructor
  · intro agree payloads theirs
    exact agree payloads theirs
      { source := some path, target := "", condition := some (path ++ " exists") } rfl rfl
  · intro agree payloads theirs m source condition
    rw [FieldMapping.applies, FieldMapping.sourceValue?, source, condition]
    exact agree payloads theirs

/-- A city is read from the payloads of two services, neither of which is called address. -/
theorem city_guard_resolves :
    Condition.IsWord "address.city" ∧ ¬ Addresses ["stripe", "salesforce"] "address.city" ∧
    ∀ payloads : Payloads, payloads.map Prod.fst = ["stripe", "salesforce"] →
      (Condition.textHolds "address.city exists" payloads.values = true ↔
        ∃ v, payloads.resolve? "address.city" = some v) := by
  have word : Condition.IsWord "address.city" := by decide
  have free : ¬ Addresses ["stripe", "salesforce"] "address.city" := by
    rintro ⟨head, rest, cut, ⟨service, member, named⟩, _⟩
    have pieces : Text.cut? "." "address.city" = some ("address", "city") := by decide +kernel
    rw [pieces] at cut
    cases cut
    have others : ∀ service ∈ ["stripe", "salesforce"],
        Text.sameIgnoringCase service "address" = false := by decide +kernel
    rw [others service member] at named
    cases named
  exact ⟨word, free, (guard_resolves_iff word ["stripe", "salesforce"]).1.2 free⟩

/-- A path with the name of its service has a source value, and the condition that it exists does
not hold. So the field mapping that is guarded by it does not apply. -/
theorem service_guard_fails :
    let payload : Value := .obj [("email", .str "ann@x.org")]
    let guarded : FieldMapping :=
      { FieldMapping.copy "stripe.email" "email" with condition := some "stripe.email exists" }
    resolve? [("stripe", payload)] "stripe.email" = some (.str "ann@x.org") ∧
    Condition.textHolds "stripe.email exists" [payload] = false ∧
    guarded.sourceValue? [("stripe", payload)] = some (.str "ann@x.org") ∧
    guarded.applies [payload] = false := by
  decide +kernel

end Payloads

end DataMigration
