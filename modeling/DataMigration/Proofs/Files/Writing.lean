import DataMigration.Files.Basic
import DataMigration.Proofs.Text

/-!
# Writing files

A file that is written can be read under its path. Directories stay directories, so paths that led
to a place lead there still, and files at other places stay as they are. So of the texts that are
written one after the other, what can be read under their paths are those that were written last to
the same place.
-/

namespace DataMigration

/-- A name behind a slash is one piece more. -/
theorem Text.split_append_slash {file : String} (plain : '/' ∉ file.toList) (directory : String) :
    split '/' (directory ++ "/" ++ file) = split '/' directory ++ [file] := by
  have some : split '/' directory ≠ [] :=
    mt List.map_eq_nil_iff.1 (splitAt_ne_nil '/' directory.toList)
  have whole := (List.dropLast_concat_getLast some).symm
  have last := not_mem_of_mem_split (List.getLast_mem some)
  generalize (split '/' directory).dropLast = before, (split '/' directory).getLast some = piece
    at whole last
  have two : split '/' (piece ++ ("/" ++ file)) = [piece, file] := by
    have chars : (piece ++ ("/" ++ file)).toList = piece.toList ++ '/' :: file.toList := by simp
    rw [split, chars, splitAt_append last, splitAt_of_not_mem plain]
    simp
  rw [String.append_assoc, split_append_of_concat whole, two, whole, List.append_assoc]
  rfl

/-- A path below a directory that ends in a name without slashes is not empty and ends in no
slash. -/
theorem FilePath.join_name {directory name : String} (plain : '/' ∉ name.toList)
    (named : name ≠ "") :
    join directory name ≠ "" ∧ Text.endsWith "/" (join directory name) = false := by
  have ends : ∃ start, join directory name = start ++ name := by
    unfold join
    split
    · exact ⟨"", String.empty_append.symm⟩
    · split
      · exact ⟨directory, rfl⟩
      · exact ⟨directory ++ "/", rfl⟩
  obtain ⟨start, whole⟩ := ends
  have chars : name.toList ≠ [] := mt String.toList_eq_nil_iff.1 named
  rw [whole]
  refine ⟨fun none => named (String.append_eq_empty_iff.1 none).2, ?_⟩
  rw [Text.endsWith, String.toList_append, ← List.dropLast_concat_getLast chars,
    ← List.append_assoc, Bool.eq_false_iff, Ne, List.isSuffixOf_iff_suffix,
    List.suffix_concat_iff]
  rintro (none | ⟨t, last, _⟩)
  · exact absurd none (by decide)
  · have slash : name.toList.getLast chars = '/' := by
      have one : [] ++ ['/'] = t ++ [name.toList.getLast chars] := last
      exact (List.singleton_inj.1 (List.append_inj' one rfl).2).symm
    exact plain (slash ▸ List.getLast_mem chars)

/-- A name without slashes stands behind a slash below such a directory. -/
theorem FilePath.join_of_name {directory name : String} (some : directory ≠ "")
    (shut : Text.endsWith "/" directory = false) (plain : '/' ∉ name.toList) :
    join directory name = directory ++ "/" ++ name := by
  have relative : isAbsolute name ≠ true := by
    intro absolute
    obtain ⟨rest, whole⟩ := List.isPrefixOf_iff_prefix.1 absolute
    exact plain (whole ▸ List.mem_cons_self)
  rw [join, if_neg (not_or.2 ⟨some, relative⟩), shut, if_neg Bool.false_ne_true]

/-- A name behind a slash is the last one of its path. -/
theorem FilePath.names_append {file : String} (plain : '/' ∉ file.toList) (named : file ≠ "")
    (notHere : file ≠ ".") (directory : String) :
    names (directory ++ "/" ++ file) = names directory ++ [file] := by
  rw [names, Text.split_append_slash plain, List.filter_append, names]
  simp [named, notHere]

namespace Files

variable {fs fs' : Files}

/-! ## What stands at a place -/

theorem lookup_filter_ne {names place : List String} (other : place ≠ names)
    (nodes : List (List String × FileNode)) :
    (nodes.filter fun e => e.1 != names).lookup place = nodes.lookup place := by
  induction nodes with
  | nil => rfl
  | cons e nodes ih =>
    obtain ⟨here, node⟩ := e
    by_cases same : here = names
    · subst same
      have apart : (place == here) = false := beq_false_of_ne other
      simp [List.lookup_cons, apart, ih]
    · simp [List.lookup_cons, same, ih]

/-- A node is put at its place and nowhere else. -/
theorem at?_put (fs : Files) {names : List String} (below : names ≠ []) (node : FileNode)
    (place : List String) :
    (fs.put names node).at? place = if place = names then some node else fs.at? place := by
  cases place with
  | nil => exact (if_neg below.symm).symm
  | cons name place =>
    simp only [at?, put]
    by_cases same : name :: place = names
    · rw [if_pos same, List.lookup_cons, beq_iff_eq.2 same]
    · rw [if_neg same, List.lookup_cons, beq_false_of_ne same]
      exact lookup_filter_ne same fs.nodes

/-- Something new or another file stands at a place below the working directory. -/
theorem ne_nil_of_at? {place : List String} (other : fs.at? place ≠ some .directory) :
    place ≠ [] := by
  rintro rfl
  exact other rfl

/-! ## Paths -/

/-- Where one name leads from a place. -/
def onward (place : List String) (name : String) : List String :=
  if name = ".." then place.dropLast else place ++ [name]

/-- The last name leads to its place whether something stands there or not. -/
theorem follow_last (fs : Files) (place : List String) (name : String) :
    fs.follow place [name] = .ok (onward place name) := by
  simp only [follow]
  rw [← onward]
  split
  · rfl
  · rfl
  · rename_i more
    cases more
  · rename_i more
    cases more

/-- The names before the last one lead through directories. -/
theorem follow_cons_eq_ok_iff {place names found : List String} {name : String}
    (more : names ≠ []) : fs.follow place (name :: names) = .ok found ↔
      fs.at? (onward place name) = some .directory ∧
        fs.follow (onward place name) names = .ok found := by
  simp only [follow]
  rw [← onward]
  split
  · rename_i isDirectory
    exact (and_iff_right isDirectory).symm
  · exact absurd rfl more
  · rename_i file
    simp [file]
  · rename_i none
    simp [none]

/-- As long as directories stay directories, names lead where they led. -/
theorem follow_of_directories
    (stay : ∀ place, fs.at? place = some .directory → fs'.at? place = some .directory)
    {place names found : List String} (reached : fs.follow place names = .ok found) :
    fs'.follow place names = .ok found := by
  induction names generalizing place with
  | nil => exact reached
  | cons name names ih =>
    by_cases more : names = []
    · subst more
      rw [follow_last] at reached ⊢
      exact reached
    · rw [follow_cons_eq_ok_iff more] at reached ⊢
      exact ⟨stay _ reached.1, ih reached.2⟩

theorem place_of_directories
    (stay : ∀ place, fs.at? place = some .directory → fs'.at? place = some .directory)
    {path : String} {found : List String} (leads : fs.place path = .ok found) :
    fs'.place path = .ok found := by
  unfold place at leads ⊢
  split at leads
  · cases leads
  · rename_i relative
    rw [if_neg relative]
    exact follow_of_directories stay leads

/-- Names lead to a place that bears the last one, unless that leads upwards. -/
theorem follow_concat {place names found : List String} {file : String} (down : file ≠ "..")
    (reached : fs.follow place (names ++ [file]) = .ok found) : ∃ above, found = above ++ [file] := by
  induction names generalizing place with
  | nil =>
    rw [List.nil_append, follow_last, onward, if_neg down] at reached
    cases reached
    exact ⟨place, rfl⟩
  | cons name names ih =>
    rw [List.cons_append, follow_cons_eq_ok_iff (by simp)] at reached
    exact ih reached.2

/-- A path leads to a place that bears the name behind its last slash. -/
theorem place_append {directory file : String} {found : List String} (plain : '/' ∉ file.toList)
    (named : file ≠ "") (notHere : file ≠ ".") (down : file ≠ "..")
    (leads : fs.place (directory ++ "/" ++ file) = .ok found) : ∃ above, found = above ++ [file] := by
  unfold place at leads
  split at leads
  · cases leads
  · rw [FilePath.names_append plain named notHere] at leads
    exact follow_concat down leads

/-- A file is read exactly if its path leads to it and asks for no directory. -/
theorem read_eq_ok_iff {path text : String} :
    fs.read path = .ok text ↔ ∃ place, fs.place path = .ok place ∧
      fs.at? place = some (.file text) ∧ FilePath.wantsDirectory path = false := by
  unfold read node
  cases fs.place path with
  | error e => simp
  | ok place =>
    cases stands : fs.at? place with
    | none => simp [stands]
    | some node =>
      cases node with
      | directory => simp [stands]
      | file content =>
        by_cases wants : FilePath.wantsDirectory path = true
        · simp [stands, wants]
        · simp [stands, wants]

/-! ## Making directories and writing -/

theorem at?_enter {place place' names : List String} {name : String} {node : FileNode}
    (entered : fs.enter place name = .ok (fs', place')) (stands : fs.at? names = some node) :
    fs'.at? names = some node := by
  simp only [enter] at entered
  split at entered
  · cases entered
    exact stands
  · cases entered
  · rename_i free
    cases entered
    have below := ne_nil_of_at? (free.trans_ne (nomatch ·))
    have other : names ≠ onward place name := by
      rintro rfl
      cases stands.symm.trans free
    rw [at?_put fs below]
    exact (if_neg other).trans stands

theorem at?_enterAll {place names stood : List String} {node : FileNode}
    (entered : fs.enterAll place names = .ok fs') (stands : fs.at? stood = some node) :
    fs'.at? stood = some node := by
  induction names generalizing fs place with
  | nil =>
    cases entered
    exact stands
  | cons name names ih =>
    simp only [enterAll] at entered
    split at entered
    · cases entered
    · rename_i first
      exact ih entered (at?_enter first stands)

/-- What stood anywhere before directories were made stands there afterwards. -/
theorem at?_makeDirectories {path : String} {place : List String} {node : FileNode}
    (made : fs.makeDirectories path = .ok fs') (stands : fs.at? place = some node) :
    fs'.at? place = some node := by
  unfold makeDirectories at made
  split at made
  · cases made
    exact stands
  · split at made
    · cases made
    · exact at?_enterAll made stands

/-- A file is written exactly if its path asks for no directory and leads to a place where none
stands. -/
theorem write_eq_ok_iff {path text : String} :
    fs.write path text = .ok fs' ↔ ∃ place, fs.place path = .ok place ∧
      fs.at? place ≠ some .directory ∧ FilePath.wantsDirectory path = false ∧
      fs' = fs.put place (.file text) := by
  unfold write
  cases fs.place path with
  | error e => simp
  | ok place =>
    cases stands : fs.at? place with
    | none =>
      by_cases wants : FilePath.wantsDirectory path = true
      · simp [stands, wants]
      · simp [stands, wants, eq_comm]
    | some node =>
      cases node with
      | directory => simp [stands]
      | file content =>
        by_cases wants : FilePath.wantsDirectory path = true
        · simp [stands, wants]
        · simp [stands, wants, eq_comm]

/-- A text was written to a path, and nothing was lost by that but a file at the same place. -/
structure Wrote (fs : Files) (path text : String) (fs' : Files) : Prop where
  directories : ∀ place, fs.at? place = some .directory → fs'.at? place = some .directory
  written : fs'.read path = .ok text
  others : ∀ other content, fs.read other = .ok content → fs'.place other ≠ fs'.place path →
    fs'.read other = .ok content

/-- Writing a file after making directories. -/
theorem wrote_of_write {made : Files} {path text : String}
    (stays : ∀ place node, fs.at? place = some node → made.at? place = some node)
    (writes : made.write path text = .ok fs') : Wrote fs path text fs' := by
  obtain ⟨place, leads, free, plain, rfl⟩ := write_eq_ok_iff.1 writes
  have put := made.at?_put (ne_nil_of_at? free) (.file text)
  have directories : ∀ q, made.at? q = some .directory →
      (made.put place (.file text)).at? q = some .directory := by
    intro q isDirectory
    have other : q ≠ place := by
      rintro rfl
      exact free isDirectory
    rw [put, if_neg other]
    exact isDirectory
  have leads' := place_of_directories directories leads
  refine ⟨fun q isDirectory => directories q (stays q _ isDirectory),
    read_eq_ok_iff.2 ⟨place, leads', by rw [put, if_pos rfl], plain⟩, ?_⟩
  intro other content reads apart
  obtain ⟨q, found, stands, plain'⟩ := read_eq_ok_iff.1 reads
  have found' := place_of_directories
    (fun r isDirectory => directories r (stays r _ isDirectory)) found
  have elsewhere : q ≠ place := by
    rintro rfl
    exact apart (found'.trans leads'.symm)
  refine read_eq_ok_iff.2 ⟨q, found', ?_, plain'⟩
  rw [put, if_neg elsewhere]
  exact stays q _ stands

/-! ## Writing again and again -/

/-- Paths that lead to the same place read the same file. -/
theorem read_of_same_place {path other text : String} (reads : fs.read path = .ok text)
    (same : fs.place path = fs.place other) (plain : FilePath.wantsDirectory other = false) :
    fs.read other = .ok text := by
  obtain ⟨place, leads, stands, _⟩ := read_eq_ok_iff.1 reads
  exact read_eq_ok_iff.2 ⟨place, same ▸ leads, stands, plain⟩

section

variable {α : Type} {path text : α → String}

/-- Of the things that were written one after the other, `last` is the last one that was written to
the place of a path. -/
structure LastAt (fs : Files) (path : α → String) (xs : List α) (at_ : String)
    (before : List α) (last : α) (after : List α) : Prop where
  whole : xs = before ++ last :: after
  here : fs.place (path last) = fs.place at_
  later : ∀ x ∈ after, fs.place (path x) ≠ fs.place at_

/-- Under the paths of things that were written one after the other stand the texts of those that
were written last to the same place. -/
def HoldsLast (fs : Files) (path text : α → String) (xs : List α) : Prop :=
  ∀ x ∈ xs, ∃ before last after, LastAt fs path xs (path x) before last after ∧
    fs.read (path x) = .ok (text last)

theorem HoldsLast.nil (fs : Files) : HoldsLast fs path text [] := fun _ member => nomatch member

theorem HoldsLast.place_eq {xs : List α} {written content : String}
    (h : HoldsLast fs path text xs) (wrote : Wrote fs written content fs') {x : α}
    (member : x ∈ xs) : fs'.place (path x) = fs.place (path x) := by
  obtain ⟨_, _, _, _, reads⟩ := h x member
  obtain ⟨place, leads, _⟩ := read_eq_ok_iff.1 reads
  rw [leads]
  exact place_of_directories wrote.directories leads

/-- One more thing that is written is the last one at its place, and at no other. -/
theorem HoldsLast.concat {xs : List α} {x : α} (h : HoldsLast fs path text xs)
    (wrote : Wrote fs (path x) (text x) fs') : HoldsLast fs' path text (xs ++ [x]) := by
  intro y member
  by_cases same : fs'.place (path x) = fs'.place (path y)
  · refine ⟨xs, x, [], ⟨rfl, same, fun _ none => nomatch none⟩, ?_⟩
    obtain old | new := List.mem_append.1 member
    · obtain ⟨_, _, _, _, reads⟩ := h y old
      obtain ⟨_, _, _, plain⟩ := read_eq_ok_iff.1 reads
      exact read_of_same_place wrote.written same plain
    · rw [List.mem_singleton.1 new]
      exact wrote.written
  · have old : y ∈ xs := by
      obtain old | new := List.mem_append.1 member
      · exact old
      · exact absurd (congrArg (fun z => fs'.place (path z)) (List.mem_singleton.1 new).symm) same
    obtain ⟨before, last, after, ⟨rfl, here, later⟩, reads⟩ := h y old
    have stays : ∀ z ∈ before ++ last :: after, fs'.place (path z) = fs.place (path z) :=
      fun z member => h.place_eq wrote member
    refine ⟨before, last, after ++ [x], ⟨by simp, ?_, ?_⟩,
      wrote.others _ _ reads (Ne.symm same)⟩
    · rw [stays last (by simp), stays y old]
      exact here
    · intro z member
      obtain afterwards | new := List.mem_append.1 member
      · rw [stays z (by simp [afterwards]), stays y old]
        exact later z afterwards
      · rw [List.mem_singleton.1 new]
        exact same

end

end Files

end DataMigration
