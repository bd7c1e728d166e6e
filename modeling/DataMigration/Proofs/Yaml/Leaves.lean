import DataMigration.Proofs.Document.Canonical
import DataMigration.Yaml.Read

/-!
# The leaves of a document

A document that is read from tokens is made of lists, mappings and the scalars among the tokens.
What holds of all scalars, of nothing and of what fits no type holds of all its leaves.
-/

namespace DataMigration.Yaml

/-- A scalar that the token can stand for satisfies `P`. -/
def Token.Sound (P : Tree → Prop) : Token → Prop
  | .scalar text plain => P (scalarTree none text plain)
  | .tag _ _ => ∀ tag text plain, P (taggedScalar tag text plain)
  | _ => True

/-- The scalars that are left satisfy `P`, and so do the leaves of the parts with anchors. -/
structure Source.Clean (P : Tree → Prop) (s : Source) : Prop where
  tokens : ∀ x ∈ s.tokens, x.Sound P
  anchors : ∀ a ∈ s.anchors, a.2.Leaves P

variable {P : Tree → Prop} {s s' : Source} {handles : Handles} {depth : Nat}

theorem Source.Clean.after (clean : s.Clean P) {r : List Token} (rest : ∀ x ∈ r, x ∈ s.tokens) :
    Source.Clean P { s with tokens := r } :=
  ⟨fun x member => clean.tokens x (rest x member), clean.anchors⟩

theorem Source.Clean.tail (clean : s.Clean P) {x : Token} {r : List Token}
    (marks : s.tokens = x :: r) : Source.Clean P { s with tokens := r } :=
  clean.after fun _ member => marks ▸ List.mem_cons_of_mem x member

theorem Source.Clean.mark (clean : s.Clean P) {t : Tree} (leaves : t.Leaves P)
    (anchor : Option String) : (s.mark anchor t).Clean P := by
  cases anchor with
  | none => exact clean
  | some name => exact ⟨clean.tokens, List.forall_mem_cons.2 ⟨leaves, clean.anchors⟩⟩

theorem isLeaf_ofBinary64 (x : Binary64) : (Tree.value (.ofBinary64 x)).isLeaf = true := by
  unfold Value.ofBinary64
  cases Number.ofBinary64? x <;> rfl

theorem isLeaf_taggedScalar (tag text : String) (plain : Bool) :
    (taggedScalar tag text plain).isLeaf = true := by
  unfold taggedScalar
  simp only
  repeat' split
  all_goals first | rfl | exact isLeaf_ofBinary64 _

theorem isLeaf_scalarTree (tag : Option String) (text : String) (plain : Bool) :
    (scalarTree tag text plain).isLeaf = true := by
  cases tag with
  | none => cases plain <;> rfl
  | some tag => exact isLeaf_taggedScalar tag text plain

/-- What stands for no part and for a part of no type satisfies `P`. -/
structure Base (P : Tree → Prop) : Prop where
  empty : P empty
  odd : P .odd

theorem Base.leaves_empty (base : Base P) : Tree.Leaves P Yaml.empty := .leaf rfl base.empty

theorem Base.leaves_collection (base : Base P) (depth : Nat) {t : Tree} (leaves : t.Leaves P)
    (tag : Option String) : (collection depth tag t).Leaves P := by
  unfold collection
  split
  · exact .leaf rfl base.odd
  · exact leaves

theorem Base.leaves_mapping (base : Base P) {entries : List (Tree × Tree)}
    (leaves : ∀ e ∈ entries, e.2.Leaves P) : (mapping entries).Leaves P := by
  unfold mapping
  split
  · rename_i es all
    refine .dict fun e member => ?_
    obtain ⟨f, among, own⟩ := exists_of_mem_mapM all member
    obtain ⟨k, _, rfl⟩ := Option.map_eq_some_iff.1 own
    exact leaves f among
  · exact .leaf rfl base.odd

/-- The tokens behind an anchor and a tag. -/
theorem mem_properties {tokens r : List Token} {anchor tag : Option String}
    (read : properties handles tokens = some (anchor, tag, r)) :
    (∀ x ∈ r, x ∈ tokens) ∧ ∀ name ∈ tag, ∃ h x, Token.tag h x ∈ tokens := by
  unfold properties at read
  split at read
  · obtain ⟨name, _, same⟩ := Option.map_eq_some_iff.1 read
    cases same
    exact ⟨fun x member => List.mem_cons_of_mem _ (List.mem_cons_of_mem _ member),
      fun _ _ => ⟨_, _, List.mem_cons_of_mem _ List.mem_cons_self⟩⟩
  · cases read
    exact ⟨fun x member => List.mem_cons_of_mem _ member, nofun⟩
  · obtain ⟨name, _, same⟩ := Option.map_eq_some_iff.1 read
    cases same
    exact ⟨fun x member => List.mem_cons_of_mem _ (List.mem_cons_of_mem _ member),
      fun _ _ => ⟨_, _, List.mem_cons_self⟩⟩
  · obtain ⟨name, _, same⟩ := Option.map_eq_some_iff.1 read
    cases same
    exact ⟨fun x member => List.mem_cons_of_mem _ member, fun _ _ => ⟨_, _, List.mem_cons_self⟩⟩
  · cases read
    exact ⟨fun x member => member, nofun⟩

theorem mem_nextPlace? {first : Bool} {tokens r : List Token}
    (place : nextPlace? first tokens = some r) : ∀ x ∈ r, x ∈ tokens := by
  unfold nextPlace? at place
  split at place
  · cases place
    exact fun x member => member
  · split at place
    · cases place
      exact fun x member => List.mem_cons_of_mem _ member
    · cases place

/-- What `fuel` rounds of the reader give has leaves with `P`. -/
structure Faithful (P : Tree → Prop) (handles : Handles) (fuel : Nat) : Prop where
  part : ∀ {depth block bareList s t s'}, Source.Clean P s →
    part handles depth block bareList fuel s = some (t, s') → t.Leaves P ∧ s'.Clean P
  blockItems : ∀ {depth bare s ts s'}, Source.Clean P s →
    blockItems handles depth bare fuel s = some (ts, s') →
      (∀ t ∈ ts, t.Leaves P) ∧ s'.Clean P
  blockEntries : ∀ {depth s es s'}, Source.Clean P s →
    blockEntries handles depth fuel s = some (es, s') →
      (∀ e ∈ es, e.2.Leaves P) ∧ s'.Clean P
  blockPart : ∀ {depth s t s'}, Source.Clean P s →
    blockPart handles depth fuel s = some (t, s') → t.Leaves P ∧ s'.Clean P
  flowItems : ∀ {depth first s ts s'}, Source.Clean P s →
    flowItems handles depth first fuel s = some (ts, s') →
      (∀ t ∈ ts, t.Leaves P) ∧ s'.Clean P
  flowPair : ∀ {depth s t s'}, Source.Clean P s →
    flowPair handles depth fuel s = some (t, s') → t.Leaves P ∧ s'.Clean P
  flowEntries : ∀ {depth first s es s'}, Source.Clean P s →
    flowEntries handles depth first fuel s = some (es, s') →
      (∀ e ∈ es, e.2.Leaves P) ∧ s'.Clean P
  flowPart : ∀ {depth s t s'}, Source.Clean P s →
    flowPart handles depth fuel s = some (t, s') → t.Leaves P ∧ s'.Clean P

theorem leaves_scalarTree {tag : Option String} {text : String} {plain : Bool}
    (tagged : ∀ name ∈ tag, P (taggedScalar name text plain))
    (untagged : tag = none → P (scalarTree none text plain)) :
    (scalarTree tag text plain).Leaves P := by
  refine .leaf (isLeaf_scalarTree tag text plain) ?_
  cases tag with
  | none => exact untagged rfl
  | some name => exact tagged name rfl

/-- A collection whose inside was read, with its tag and its anchor. -/
theorem Base.collected (base : Base P) {α : Type} {Q : α → Prop} (make : α → Tree)
    (made : ∀ a, Q a → (make a).Leaves P) {inner : Option (α × Source)}
    {anchor tag : Option String} {t : Tree}
    (inside : ∀ u, inner = some u → Q u.1 ∧ u.2.Clean P)
    (read : (inner.map fun p => (collection depth tag (make p.1),
      p.2.mark anchor (collection depth tag (make p.1)))) = some (t, s')) :
    t.Leaves P ∧ s'.Clean P := by
  obtain ⟨u, given, same⟩ := Option.map_eq_some_iff.1 read
  cases same
  obtain ⟨own, rest⟩ := inside u given
  have whole := base.leaves_collection depth (made u.1 own) tag
  exact ⟨whole, rest.mark whole anchor⟩

theorem part_succ (base : Base P) {fuel : Nat} (ih : Faithful P handles fuel)
    {block bareList : Bool} {t : Tree} (clean : s.Clean P)
    (read : part handles depth block bareList (fuel + 1) s = some (t, s')) :
    t.Leaves P ∧ s'.Clean P := by
  unfold part at read
  split at read
  · rename_i name r marks
    obtain ⟨u, found, same⟩ := Option.map_eq_some_iff.1 read
    cases same
    obtain ⟨before, after, whole, _⟩ := List.lookup_eq_some_iff.1 found
    refine ⟨clean.anchors (_, t) (whole ▸ List.mem_append_right _ List.mem_cons_self), ?_⟩
    exact clean.tail marks
  · obtain ⟨⟨anchor, tag, r⟩, found, rest⟩ := Option.bind_eq_some_iff.1 read
    obtain ⟨sub, tagged⟩ := mem_properties found
    have tags : ∀ text plain, ∀ name ∈ tag, P (taggedScalar name text plain) := by
      intro text plain name given
      obtain ⟨h, x, member⟩ := tagged name given
      exact clean.tokens _ member name text plain
    have nothing : (scalarTree tag "" true).Leaves P :=
      leaves_scalarTree (tags "" true) fun _ => base.empty
    have next := clean.after sub
    have list : ∀ ts : List Tree, (∀ t ∈ ts, t.Leaves P) → (Tree.list ts).Leaves P :=
      fun _ => .list
    have dict : ∀ es : List (Tree × Tree), (∀ e ∈ es, e.2.Leaves P) → (mapping es).Leaves P :=
      fun _ => base.leaves_mapping
    simp only at rest
    split at rest
    · rename_i text plain r'
      cases rest
      have own : P (scalarTree none text plain) := next.tokens _ List.mem_cons_self
      have leaves := leaves_scalarTree (tags text plain) fun _ => own
      exact ⟨leaves, (next.tail rfl).mark leaves anchor⟩
    · exact base.collected .list list (fun _ => ih.flowItems (next.tail rfl)) rest
    · exact base.collected mapping dict (fun _ => ih.flowEntries (next.tail rfl)) rest
    · split at rest
      · exact base.collected .list list (fun _ => ih.blockItems (next.tail rfl)) rest
      · cases rest
    · split at rest
      · exact base.collected mapping dict (fun _ => ih.blockEntries (next.tail rfl)) rest
      · cases rest
    · split at rest
      · exact base.collected .list list (fun _ => ih.blockItems next) rest
      · split at rest
        · cases rest
          exact ⟨nothing, next.mark nothing anchor⟩
        · cases rest
    · split at rest
      · cases rest
        exact ⟨nothing, next.mark nothing anchor⟩
      · cases rest

/-- A part and the others that are read behind it. -/
theorem clean_cons {α : Type} {Q : α → Prop} {a : α} {as : List α}
    {inner : Option (List α × Source)} (first : Q a)
    (others : ∀ u, inner = some u → (∀ b ∈ u.1, Q b) ∧ u.2.Clean P)
    (read : (inner.map fun p => (a :: p.1, p.2)) = some (as, s')) :
    (∀ b ∈ as, Q b) ∧ s'.Clean P := by
  obtain ⟨u, inside, same⟩ := Option.map_eq_some_iff.1 read
  cases same
  obtain ⟨each, rest⟩ := others u inside
  exact ⟨List.forall_mem_cons.2 ⟨first, each⟩, rest⟩

theorem blockItems_succ (base : Base P) {fuel : Nat} (ih : Faithful P handles fuel) {bare : Bool}
    {ts : List Tree} (clean : s.Clean P)
    (read : blockItems handles depth bare (fuel + 1) s = some (ts, s')) :
    (∀ t ∈ ts, t.Leaves P) ∧ s'.Clean P := by
  unfold blockItems at read
  split at read
  · rename_i r tokens
    split at read
    · exact clean_cons base.leaves_empty (fun _ => ih.blockItems (clean.tail tokens)) read
    · obtain ⟨⟨t, s₁⟩, first, more⟩ := Option.bind_eq_some_iff.1 read
      obtain ⟨leaves, next⟩ := ih.part (clean.tail tokens) first
      exact clean_cons leaves (fun _ => ih.blockItems next) more
  · rename_i r tokens
    split at read
    · cases read
      exact ⟨List.forall_mem_nil _, clean⟩
    · cases read
      exact ⟨List.forall_mem_nil _, clean.tail tokens⟩
  · split at read
    · cases read
      exact ⟨List.forall_mem_nil _, clean⟩
    · cases read

theorem blockEntries_succ (base : Base P) {fuel : Nat} (ih : Faithful P handles fuel)
    {es : List (Tree × Tree)} (clean : s.Clean P)
    (read : blockEntries handles depth (fuel + 1) s = some (es, s')) :
    (∀ e ∈ es, e.2.Leaves P) ∧ s'.Clean P := by
  unfold blockEntries at read
  split at read
  · rename_i r tokens
    obtain ⟨⟨k, s₁⟩, key, read⟩ := Option.bind_eq_some_iff.1 read
    obtain ⟨_, behindKey⟩ := ih.blockPart (clean.tail tokens) key
    simp only at read
    split at read
    · rename_i r' marks
      obtain ⟨⟨v, s₂⟩, value, read⟩ := Option.bind_eq_some_iff.1 read
      obtain ⟨leaves, next⟩ := ih.blockPart (behindKey.tail marks) value
      exact clean_cons leaves (fun _ => ih.blockEntries next) read
    · exact clean_cons base.leaves_empty (fun _ => ih.blockEntries behindKey) read
  · rename_i r tokens
    cases read
    exact ⟨List.forall_mem_nil _, clean.tail tokens⟩
  · cases read

theorem blockPart_succ (base : Base P) {fuel : Nat} (ih : Faithful P handles fuel) {t : Tree}
    (clean : s.Clean P) (read : blockPart handles depth (fuel + 1) s = some (t, s')) :
    t.Leaves P ∧ s'.Clean P := by
  unfold blockPart at read
  split at read
  · cases read
    exact ⟨base.leaves_empty, clean⟩
  · cases read
    exact ⟨base.leaves_empty, clean⟩
  · cases read
    exact ⟨base.leaves_empty, clean⟩
  · exact ih.part clean read

theorem flowItems_succ {fuel : Nat} (ih : Faithful P handles fuel) {first : Bool}
    {ts : List Tree} (clean : s.Clean P)
    (read : flowItems handles depth first (fuel + 1) s = some (ts, s')) :
    (∀ t ∈ ts, t.Leaves P) ∧ s'.Clean P := by
  unfold flowItems at read
  split at read
  · rename_i r marks
    cases read
    exact ⟨List.forall_mem_nil _, clean.tail marks⟩
  · obtain ⟨tokens, place, read⟩ := Option.bind_eq_some_iff.1 read
    have next := clean.after (mem_nextPlace? place)
    split at read
    · cases read
      exact ⟨List.forall_mem_nil _, next.tail rfl⟩
    · obtain ⟨⟨t, s₁⟩, pair, more⟩ := Option.bind_eq_some_iff.1 read
      obtain ⟨leaves, behind⟩ := ih.flowPair (next.tail rfl) pair
      exact clean_cons leaves (fun _ => ih.flowItems behind) more
    · obtain ⟨⟨t, s₁⟩, own, more⟩ := Option.bind_eq_some_iff.1 read
      obtain ⟨leaves, behind⟩ := ih.part next own
      exact clean_cons leaves (fun _ => ih.flowItems behind) more

theorem flowPair_succ (base : Base P) {fuel : Nat} (ih : Faithful P handles fuel) {t : Tree}
    (clean : s.Clean P) (read : flowPair handles depth (fuel + 1) s = some (t, s')) :
    t.Leaves P ∧ s'.Clean P := by
  unfold flowPair at read
  obtain ⟨⟨k, s₁⟩, key, read⟩ := Option.bind_eq_some_iff.1 read
  obtain ⟨⟨v, s₂⟩, value, read⟩ := Option.bind_eq_some_iff.1 read
  have next : s₁.Clean P := by
    split at key
    · rename_i r marks
      cases key
      exact clean.tail marks
    · rename_i r marks
      cases key
      exact clean.tail marks
    · rename_i r marks
      cases key
      exact clean.tail marks
    · exact (ih.part clean key).2
  have last : v.Leaves P ∧ s₂.Clean P := by
    simp only at value
    split at value
    · rename_i r marks
      split at value
      · cases value
        exact ⟨base.leaves_empty, next.tail marks⟩
      · cases value
        exact ⟨base.leaves_empty, next.tail marks⟩
      · exact ih.part (next.tail marks) value
    · cases value
      exact ⟨base.leaves_empty, next⟩
  cases read
  exact ⟨base.leaves_mapping (List.forall_mem_singleton.2 last.1), last.2⟩

theorem flowEntries_succ (base : Base P) {fuel : Nat} (ih : Faithful P handles fuel) {first : Bool}
    {es : List (Tree × Tree)} (clean : s.Clean P)
    (read : flowEntries handles depth first (fuel + 1) s = some (es, s')) :
    (∀ e ∈ es, e.2.Leaves P) ∧ s'.Clean P := by
  unfold flowEntries at read
  split at read
  · rename_i r marks
    cases read
    exact ⟨List.forall_mem_nil _, clean.tail marks⟩
  · obtain ⟨tokens, place, read⟩ := Option.bind_eq_some_iff.1 read
    have next := clean.after (mem_nextPlace? place)
    split at read
    · cases read
      exact ⟨List.forall_mem_nil _, next.tail rfl⟩
    · obtain ⟨⟨k, s₁⟩, key, read⟩ := Option.bind_eq_some_iff.1 read
      obtain ⟨_, behindKey⟩ := ih.flowPart (next.tail rfl) key
      simp only at read
      split at read
      · rename_i r' marks
        obtain ⟨⟨v, s₂⟩, value, read⟩ := Option.bind_eq_some_iff.1 read
        obtain ⟨leaves, behind⟩ := ih.flowPart (behindKey.tail marks) value
        exact clean_cons leaves (fun _ => ih.flowEntries behind) read
      · exact clean_cons base.leaves_empty (fun _ => ih.flowEntries behindKey) read
    · obtain ⟨⟨k, s₁⟩, key, read⟩ := Option.bind_eq_some_iff.1 read
      exact clean_cons base.leaves_empty (fun _ => ih.flowEntries (ih.part next key).2) read

theorem flowPart_succ (base : Base P) {fuel : Nat} (ih : Faithful P handles fuel) {t : Tree}
    (clean : s.Clean P) (read : flowPart handles depth (fuel + 1) s = some (t, s')) :
    t.Leaves P ∧ s'.Clean P := by
  unfold flowPart at read
  split at read
  · cases read
    exact ⟨base.leaves_empty, clean⟩
  · cases read
    exact ⟨base.leaves_empty, clean⟩
  · cases read
    exact ⟨base.leaves_empty, clean⟩
  · exact ih.part clean read

/-- Every round reads what the next ones give and adds scalars of the tokens. -/
theorem faithful (base : Base P) (handles : Handles) (fuel : Nat) : Faithful P handles fuel := by
  induction fuel with
  | zero => constructor <;> intros <;> contradiction
  | succ fuel ih =>
    exact ⟨part_succ base ih, blockItems_succ base ih, blockEntries_succ base ih,
      blockPart_succ base ih, flowItems_succ ih, flowPair_succ base ih, flowEntries_succ base ih,
      flowPart_succ base ih⟩

theorem leaves_part (base : Base P) {tokens : List Token} (sound : ∀ x ∈ tokens, x.Sound P)
    {block bareList : Bool} {fuel : Nat} {p : Tree × Source}
    (read : part handles depth block bareList fuel { tokens } = some p) : p.1.Leaves P := by
  obtain ⟨t, s⟩ := p
  exact ((faithful base handles fuel).part ⟨sound, List.forall_mem_nil _⟩ read).1

theorem mem_directives {tokens r : List Token} {given : Handles} {versioned : Bool}
    (read : directives tokens given versioned = some (handles, r)) : ∀ x ∈ r, x ∈ tokens := by
  induction tokens, given, versioned using directives.induct with
  | case1 major minor tokens given versioned wrong =>
    rw [directives, if_pos wrong] at read
    cases read
  | case2 major minor tokens given versioned right ih =>
    rw [directives, if_neg right] at read
    exact fun x member => List.mem_cons_of_mem _ (ih read x member)
  | case3 handle start tokens given versioned again =>
    rw [directives, if_pos again] at read
    cases read
  | case4 handle start tokens given versioned fresh ih =>
    rw [directives, if_neg fresh] at read
    exact fun x member => List.mem_cons_of_mem _ (ih read x member)
  | case5 tokens given versioned noVersion noTag =>
    rw [directives] at read
    · cases read
      exact fun x member => member
    · exact noVersion
    · exact noTag

theorem leaves_content (base : Base P) {tokens r : List Token} (sound : ∀ x ∈ tokens, x.Sound P)
    {t : Tree} (read : content handles tokens = some (t, r)) : t.Leaves P := by
  unfold content at read
  simp only at read
  split at read
  all_goals first
    | cases read; exact base.leaves_empty
    | obtain ⟨p, own, same⟩ := Option.map_eq_some_iff.1 read
      cases same
      exact leaves_part base sound own

theorem leaves_ofTokens? (base : Base P) {tokens : List Token} (sound : ∀ x ∈ tokens, x.Sound P)
    {t : Tree} (read : ofTokens? tokens = some t) : t.Leaves P := by
  unfold ofTokens? at read
  split at read
  · cases read
    exact base.leaves_empty
  · obtain ⟨⟨handles, r⟩, start, read⟩ := Option.bind_eq_some_iff.1 read
    have rest : ∀ x ∈ r, x.Sound P := fun x member => sound x (mem_directives start x member)
    have ended : ∀ {body : Option (Tree × List Token)}, (∀ p, body = some p → p.1.Leaves P) →
        (body.bind fun p =>
          if p.2.dropWhile (· == .documentEnd) = [.streamEnd] then some p.1 else none) = some t →
        t.Leaves P := by
      intro body leaves given
      obtain ⟨p, own, same⟩ := Option.bind_eq_some_iff.1 given
      split at same
      · cases same
        exact leaves p own
      · cases same
    simp only at read
    split at read
    · exact ended (fun p own => leaves_content base
        (fun x member => rest x (List.mem_cons_of_mem _ member)) own) read
    · split at read
      · cases read
      · refine ended (fun p body => ?_) read
        obtain ⟨q, own, same⟩ := Option.map_eq_some_iff.1 body
        cases same
        exact leaves_part base rest own

/-- The document of a text is made of lists, mappings and scalars. -/
theorem leaves_read? {text : String} {t : Tree} (read : read? text = some t) :
    t.Leaves fun _ => True := by
  obtain ⟨tokens, _, given⟩ := Option.bind_eq_some_iff.1 read
  refine leaves_ofTokens? ⟨trivial, trivial⟩ (fun x _ => ?_) given
  cases x <;> first | trivial | exact fun _ _ _ => trivial

end DataMigration.Yaml
