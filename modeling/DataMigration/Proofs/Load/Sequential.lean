import DataMigration.Connectors

/-!
# Loading one record after the other

A loader is sequential when a batch is loaded record by record. What comes of a batch is then put
together from what comes of its parts, every record of it is attempted once, and neither a dry run
nor a limit on requests makes a difference to that.
-/

namespace DataMigration

namespace LoadResult

/-- The counters add up, with one problem for each failed record. -/
structure Balanced (r : LoadResult) : Prop where
  attempted : r.attempted = r.succeeded + r.failed
  errors : r.errors.length = r.failed
  skipped : r.skipped = 0

theorem merge_new (r : LoadResult) (entity : String) : r.merge { entity } = r := by
  simp [merge]

theorem merge_add (r q : LoadResult) (o : LoadOutcome) : (r.merge q).add o = r.merge (q.add o) := by
  simp only [add, merge]
  split <;> simp [Nat.add_assoc]

theorem add_attempted (r : LoadResult) (o : LoadOutcome) :
    (r.add o).attempted = r.attempted + 1 := by
  simp only [add]
  split <;> rfl

theorem Balanced.add {r : LoadResult} (h : r.Balanced) (o : LoadOutcome) : (r.add o).Balanced := by
  have attempted := h.attempted
  have errors := h.errors
  simp only [LoadResult.add]
  split
  · exact ⟨by simp only; omega, errors, h.skipped⟩
  · exact ⟨by simp only; omega, by simp [errors], h.skipped⟩

end LoadResult

namespace Loader

variable {σ : Type} (l : Loader σ)

/-- A batch is loaded record by record. -/
def Sequential : Prop := ∀ rs entity upsert target,
  l.loadBatch rs entity upsert target = l.loadEach rs entity upsert target

/-! ## Record by record -/

/-- The outcome that is taken down for a record. -/
theorem loadInto_eq (upsert : Bool) (acc : LoadResult × σ) (r : TargetRecord) :
    ∃ o target, ∀ result, l.loadInto upsert (result, acc.2) r = (result.add o, target) := by
  simp only [loadInto]
  generalize l.load r upsert acc.2 = p
  obtain ⟨_ | o, target⟩ := p
  · exact ⟨_, target, fun _ => rfl⟩
  · exact ⟨o, target, fun _ => rfl⟩

theorem foldl_loadInto_merge (upsert : Bool) (rs : List TargetRecord) (r q : LoadResult)
    (target : σ) :
    rs.foldl (l.loadInto upsert) (r.merge q, target) =
      (r.merge (rs.foldl (l.loadInto upsert) (q, target)).1,
        (rs.foldl (l.loadInto upsert) (q, target)).2) := by
  induction rs generalizing q target with
  | nil => rfl
  | cons x rs ih =>
    obtain ⟨o, target', loads⟩ := l.loadInto_eq upsert (q, target) x
    rw [List.foldl_cons, List.foldl_cons, loads, loads, LoadResult.merge_add, ih]

/-- What an invariant of adding outcomes says of loading records one by one. -/
theorem loadEach_induction {P : Nat → LoadResult → Prop} {entity : String}
    (new : P 0 { entity }) (add : ∀ n r o, P n r → P (n + 1) (r.add o)) (rs : List TargetRecord)
    (upsert : Bool) (target : σ) : P rs.length (l.loadEach rs entity upsert target).1 := by
  have all : ∀ (rs : List TargetRecord) n r target, P n r →
      P (n + rs.length) (rs.foldl (l.loadInto upsert) (r, target)).1 := by
    intro rs
    induction rs with
    | nil => exact fun _ _ _ own => own
    | cons x rs ih =>
      intro n r target own
      obtain ⟨o, target', loads⟩ := l.loadInto_eq upsert (r, target) x
      rw [List.foldl_cons, loads, List.length_cons, Nat.add_comm rs.length, ← Nat.add_assoc]
      exact ih (n + 1) (r.add o) target' (add n r o own)
  have whole := all rs 0 { entity } target new
  rwa [Nat.zero_add] at whole

/-- Every record is attempted once. -/
theorem loadEach_attempted (rs : List TargetRecord) (entity : String) (upsert : Bool) (target : σ) :
    (l.loadEach rs entity upsert target).1.attempted = rs.length :=
  l.loadEach_induction (P := fun n r => r.attempted = n) rfl
    (fun _ r o own => by rw [r.add_attempted, own]) rs upsert target

theorem loadEach_balanced (rs : List TargetRecord) (entity : String) (upsert : Bool) (target : σ) :
    (l.loadEach rs entity upsert target).1.Balanced :=
  l.loadEach_induction (P := fun _ r => r.Balanced) ⟨rfl, rfl, rfl⟩ (fun _ _ o own => own.add o) rs
    upsert target

/-- Loading records in two parts is loading them all. -/
theorem loadEach_append (rs rs' : List TargetRecord) (entity : String) (upsert : Bool)
    (target : σ) :
    l.loadEach (rs ++ rs') entity upsert target =
      let p := l.loadEach rs entity upsert target
      let q := l.loadEach rs' entity upsert p.2
      (p.1.merge q.1, q.2) := by
  have merged := l.foldl_loadInto_merge upsert rs' (l.loadEach rs entity upsert target).1 { entity }
    (l.loadEach rs entity upsert target).2
  rw [LoadResult.merge_new] at merged
  simp only [loadEach, List.foldl_append] at merged ⊢
  exact merged

/-- What comes of records one by one depends on what comes of each of them. -/
theorem loadEach_congr {l l' : Loader σ} (same : l'.load = l.load) : l'.loadEach = l.loadEach := by
  funext rs entity upsert target
  have each : l'.loadInto upsert = l.loadInto upsert := by
    funext acc r
    simp only [loadInto, same]
  simp only [loadEach, each]

/-! ## Sequential loaders -/

variable {l}

theorem Sequential.throttled (h : l.Sequential) : l.throttled.Sequential := by
  intro rs entity upsert target
  have same : l.throttled.loadEach rs entity upsert target = l.loadEach rs entity upsert target :=
    rfl
  rw [same, Loader.throttled]
  cases l.isBulk with
  | false => rfl
  | true => exact h rs entity upsert target

theorem outside_loadEach (l : Loader σ) (rs : List TargetRecord) (entity : String) (upsert : Bool)
    (target : Target σ) :
    l.outside.loadEach rs entity upsert target =
      let p := l.loadEach rs entity upsert target.outside
      (p.1, { target with outside := p.2 }) := by
  have all : ∀ (rs : List TargetRecord) (r : LoadResult) (t : σ),
      rs.foldl (l.outside.loadInto upsert) (r, { target with outside := t }) =
        ((rs.foldl (l.loadInto upsert) (r, t)).1,
          { target with outside := (rs.foldl (l.loadInto upsert) (r, t)).2 }) := by
    intro rs
    induction rs with
    | nil => exact fun _ _ => rfl
    | cons x rs ih =>
      intro r t
      have first : l.outside.loadInto upsert (r, { target with outside := t }) x =
          ((l.loadInto upsert (r, t) x).1,
            { target with outside := (l.loadInto upsert (r, t) x).2 }) := by
        simp only [loadInto, outside]
        generalize l.load x upsert t = p
        obtain ⟨_ | o, t'⟩ := p <;> rfl
      rw [List.foldl_cons, List.foldl_cons, first, ih]
  exact all rs { entity } target.outside

theorem Sequential.outside (h : l.Sequential) : l.outside.Sequential := by
  intro rs entity upsert target
  rw [outside_loadEach]
  have own := h rs entity upsert target.outside
  simp only [loadBatch, Loader.outside] at own ⊢
  cases batch : l.batch with
  | none => exact outside_loadEach l rs entity upsert target
  | some load =>
    rw [batch] at own
    simp only [Option.map_some, own]

/-- A limit on requests puts the loader behind it or leaves it as it is. -/
theorem limited_eq_ok {l limited : Loader σ} {rate : Option Binary64}
    (h : l.limited rate = .ok limited) : limited = l ∨ limited = l.throttled := by
  unfold Loader.limited at h
  split at h
  · cases h
    exact .inl rfl
  · split at h
    · cases h
      exact .inl rfl
    · split at h <;> cases h
      exact .inr rfl

end Loader

namespace Connectors

variable {σ : Type} {c : Connectors σ} {config : Config}

theorem unlimited_sequential (sequential : ∀ l, c.targetLoader config = .ok l → l.Sequential)
    {loader : Loader (Target σ)} (found : c.unlimited config = .ok loader) :
    loader.Sequential := by
  unfold unlimited at found
  split at found
  · cases found
    exact fun _ _ _ _ => rfl
  · cases built : c.targetLoader config with
    | error e =>
      rw [built] at found
      cases found
    | ok l =>
      rw [built] at found
      cases found
      exact (sequential l built).outside

/-- A run loads record by record if the loader of its target does. -/
theorem loader_sequential (sequential : ∀ l, c.targetLoader config = .ok l → l.Sequential)
    {loader : Loader (Target σ)} (found : c.loader config = .ok loader) : loader.Sequential := by
  unfold Connectors.loader at found
  split at found
  · cases found
  · rename_i l built
    have own := unlimited_sequential sequential built
    obtain rfl | rfl := Loader.limited_eq_ok found
    · exact own
    · exact own.throttled

end Connectors

end DataMigration
