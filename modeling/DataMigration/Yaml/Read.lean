import DataMigration.Document.Tree
import DataMigration.Yaml.Token

/-!
# Reading YAML

The tree of the only document of a text. JSON texts are read in the same way, since their grammar
is almost entirely a part of the one of YAML. An alias stands for the part that its anchor marks.
-/

namespace DataMigration.Yaml

/-- What is left of the tokens, and the parts that anchors mark so far. -/
structure Source where
  tokens : List Token
  anchors : List (String × Tree) := []

/-- The names that the handles of tags stand for. -/
abbrev Handles := List (String × String)

/-- The handles that need no directive. -/
def standardHandles : Handles := [("!", "!"), ("!!", "tag:yaml.org,2002:")]

/-- The full name of a tag. -/
def tagName? (handles : Handles) (handle suffix : String) : Option String :=
  if handle = "" then some suffix else (handles.lookup handle).map fun start => start ++ suffix

/-- The greatest depth of nesting that is read. -/
def maxDepth : Nat := 128

/-- A scalar with a tag. The tags of the core schema name its type, `!` keeps it as written. -/
def taggedScalar (tag text : String) (plain : Bool) : Tree :=
  let core (name : String) : Bool := tag == "tag:yaml.org,2002:" ++ name
  if core "null" then if Scalar.isNullWord text then .bare text else .odd
  else if core "bool" then if (Scalar.bool? text).isSome then .bare text else .odd
  else if core "int" then if (Scalar.int? text).isSome then .bare text else .odd
  else if core "float" then
    match Scalar.float? text with
    | some x => .value (.ofBinary64 x)
    | none => .odd
  else if tag = "!" then if plain then .bare text else .text text
  else if tag.toList.head? = some '!' then .odd
  else .text text

/-- A scalar; without a tag it has a type of its own unless it is plain. -/
def scalarTree (tag : Option String) (text : String) (plain : Bool) : Tree :=
  match tag with
  | some tag => taggedScalar tag text plain
  | none => if plain then .bare text else .text text

/-- A collection at a depth of nesting; tags of applications and too great a depth make it odd. -/
def collection (depth : Nat) (tag : Option String) (t : Tree) : Tree :=
  if maxDepth < depth ∨ tag.any (fun tag => tag.toList.head? == some '!' && tag != "!") then .odd
  else t

/-- A mapping from entries whose keys are scalars. -/
def mapping (entries : List (Tree × Tree)) : Tree :=
  match entries.mapM fun e => e.1.text?.map fun k => (k, e.2) with
  | some entries => .dict entries
  | none => .odd

/-- Remembers a part under its anchor. -/
def Source.mark (anchor : Option String) (t : Tree) (s : Source) : Source :=
  match anchor with
  | some name => { s with anchors := (name, t) :: s.anchors }
  | none => s

/-- The anchor and the tag in front of a part. -/
def properties (handles : Handles) :
    List Token → Option (Option String × Option String × List Token)
  | .anchor a :: .tag h x :: r => (tagName? handles h x).map fun t => (some a, some t, r)
  | .anchor a :: r => some (some a, none, r)
  | .tag h x :: .anchor a :: r => (tagName? handles h x).map fun t => (some a, some t, r)
  | .tag h x :: r => (tagName? handles h x).map fun t => (none, some t, r)
  | r => some (none, none, r)

/-- A part that was left empty. -/
def empty : Tree := .bare ""

/-- These tokens end an element of a block list that has not started. -/
def endsElement (bare : Bool) : List Token → Bool
  | .blockEntry :: _ => true
  | .blockEnd :: _ => true
  | .key :: _ => bare
  | .value :: _ => bare
  | _ => false

/-- The tokens from the next place between brackets on: behind a comma unless it is the first. -/
def nextPlace? (first : Bool) (tokens : List Token) : Option (List Token) :=
  if first then some tokens
  else match tokens with
    | .flowEntry :: r => some r
    | _ => none

mutual

/-- Reads one part. `block` allows block collections, `bareList` a list without indentation. -/
def part (handles : Handles) (depth : Nat) (block bareList : Bool) :
    Nat → Source → Option (Tree × Source)
  | 0, _ => none
  | fuel + 1, s =>
    match s.tokens with
    | .alias name :: r => (s.anchors.lookup name).map fun t => (t, { s with tokens := r })
    | tokens => do
      let (anchor, tag, r) ← properties handles tokens
      let finish (p : Tree × Source) : Tree × Source :=
        let t := collection (depth + 1) tag p.1
        (t, p.2.mark anchor t)
      match r with
      | .scalar text plain :: r =>
        let t := scalarTree tag text plain
        some (t, ({ s with tokens := r }).mark anchor t)
      | .flowSequenceStart :: r =>
        (flowItems handles (depth + 1) true fuel { s with tokens := r }).map fun p =>
          finish (.list p.1, p.2)
      | .flowMappingStart :: r =>
        (flowEntries handles (depth + 1) true fuel { s with tokens := r }).map fun p =>
          finish (mapping p.1, p.2)
      | .blockSequenceStart :: r =>
        if block then
          (blockItems handles (depth + 1) false fuel { s with tokens := r }).map fun p =>
            finish (.list p.1, p.2)
        else none
      | .blockMappingStart :: r =>
        if block then
          (blockEntries handles (depth + 1) fuel { s with tokens := r }).map fun p =>
            finish (mapping p.1, p.2)
        else none
      | .blockEntry :: _ =>
        if bareList then
          (blockItems handles (depth + 1) true fuel { s with tokens := r }).map fun p =>
            finish (.list p.1, p.2)
        else if anchor.isSome || tag.isSome then
          let t := scalarTree tag "" true
          some (t, ({ s with tokens := r }).mark anchor t)
        else none
      | r =>
        if anchor.isSome || tag.isSome then
          let t := scalarTree tag "" true
          some (t, ({ s with tokens := r }).mark anchor t)
        else none
termination_by structural fuel => fuel

/-- The elements of a block list up to its end. A list without indentation ends where no hyphen
follows. -/
def blockItems (handles : Handles) (depth : Nat) (bare : Bool) :
    Nat → Source → Option (List Tree × Source)
  | 0, _ => none
  | fuel + 1, s =>
    match s.tokens with
    | .blockEntry :: r =>
      if endsElement bare r then
        (blockItems handles depth bare fuel { s with tokens := r }).map fun p =>
          (empty :: p.1, p.2)
      else do
        let (t, s) ← part handles depth true false fuel { s with tokens := r }
        (blockItems handles depth bare fuel s).map fun p => (t :: p.1, p.2)
    | .blockEnd :: r => if bare then some ([], s) else some ([], { s with tokens := r })
    | _ => if bare then some ([], s) else none
termination_by structural fuel => fuel

/-- The entries of a block mapping up to its end. -/
def blockEntries (handles : Handles) (depth : Nat) :
    Nat → Source → Option (List (Tree × Tree) × Source)
  | 0, _ => none
  | fuel + 1, s =>
    match s.tokens with
    | .key :: r => do
      let (k, s) ← blockPart handles depth fuel { s with tokens := r }
      let (v, s) ← (match s.tokens with
        | .value :: r => blockPart handles depth fuel { s with tokens := r }
        | _ => some (empty, s))
      (blockEntries handles depth fuel s).map fun p => ((k, v) :: p.1, p.2)
    | .blockEnd :: r => some ([], { s with tokens := r })
    | _ => none
termination_by structural fuel => fuel

/-- A key or a value of a block mapping, which may be left empty. -/
def blockPart (handles : Handles) (depth : Nat) : Nat → Source → Option (Tree × Source)
  | 0, _ => none
  | fuel + 1, s =>
    match s.tokens with
    | .key :: _ => some (empty, s)
    | .value :: _ => some (empty, s)
    | .blockEnd :: _ => some (empty, s)
    | _ => part handles depth true true fuel s
termination_by structural fuel => fuel

/-- The elements of a list in brackets up to its end. -/
def flowItems (handles : Handles) (depth : Nat) (first : Bool) :
    Nat → Source → Option (List Tree × Source)
  | 0, _ => none
  | fuel + 1, s =>
    match s.tokens with
    | .flowSequenceEnd :: r => some ([], { s with tokens := r })
    | tokens => do
      let tokens ← nextPlace? first tokens
      match tokens with
      | .flowSequenceEnd :: r => some ([], { s with tokens := r })
      | .key :: r =>
        let (t, s) ← flowPair handles depth fuel { s with tokens := r }
        (flowItems handles depth false fuel s).map fun p => (t :: p.1, p.2)
      | tokens =>
        let (t, s) ← part handles depth false false fuel { s with tokens }
        (flowItems handles depth false fuel s).map fun p => (t :: p.1, p.2)
termination_by structural fuel => fuel

/-- A single entry that stands in a list in brackets, behind its key mark. -/
def flowPair (handles : Handles) (depth : Nat) : Nat → Source → Option (Tree × Source)
  | 0, _ => none
  | fuel + 1, s => do
    let (k, s) ← (match s.tokens with
      | .value :: r => some (empty, { s with tokens := r })
      | .flowEntry :: r => some (empty, { s with tokens := r })
      | .flowSequenceEnd :: r => some (empty, { s with tokens := r })
      | _ => part handles (depth + 1) false false fuel s)
    let (v, s) ← (match s.tokens with
      | .value :: r =>
        match r with
        | .flowEntry :: _ => some (empty, { s with tokens := r })
        | .flowSequenceEnd :: _ => some (empty, { s with tokens := r })
        | _ => part handles (depth + 1) false false fuel { s with tokens := r }
      | _ => some (empty, s))
    some (mapping [(k, v)], s)
termination_by structural fuel => fuel

/-- The entries of a mapping in braces up to its end. -/
def flowEntries (handles : Handles) (depth : Nat) (first : Bool) :
    Nat → Source → Option (List (Tree × Tree) × Source)
  | 0, _ => none
  | fuel + 1, s =>
    match s.tokens with
    | .flowMappingEnd :: r => some ([], { s with tokens := r })
    | tokens => do
      let tokens ← nextPlace? first tokens
      match tokens with
      | .flowMappingEnd :: r => some ([], { s with tokens := r })
      | .key :: r =>
        let (k, s) ← flowPart handles depth fuel { s with tokens := r }
        let (v, s) ← (match s.tokens with
          | .value :: r => flowPart handles depth fuel { s with tokens := r }
          | _ => some (empty, s))
        (flowEntries handles depth false fuel s).map fun p => ((k, v) :: p.1, p.2)
      | tokens =>
        let (k, s) ← part handles depth false false fuel { s with tokens }
        (flowEntries handles depth false fuel s).map fun p => ((k, empty) :: p.1, p.2)
termination_by structural fuel => fuel

/-- A key or a value of a mapping in braces, which may be left empty. -/
def flowPart (handles : Handles) (depth : Nat) : Nat → Source → Option (Tree × Source)
  | 0, _ => none
  | fuel + 1, s =>
    match s.tokens with
    | .value :: _ => some (empty, s)
    | .flowEntry :: _ => some (empty, s)
    | .flowMappingEnd :: _ => some (empty, s)
    | _ => part handles depth false false fuel s
termination_by structural fuel => fuel

end

/-- The handles that the directives in front of a document add. -/
def directives : List Token → Handles → Bool → Option (Handles × List Token)
  | .versionDirective major minor :: r, handles, versioned =>
    if versioned ∨ major ≠ 1 ∨ (minor ≠ 1 ∧ minor ≠ 2) then none else directives r handles true
  | .tagDirective handle start :: r, handles, versioned =>
    if handles.any fun h => h.1 == handle then none
    else directives r (handles ++ [(handle, start)]) versioned
  | r, handles, _ => some (handles, r)

/-- The content of a document that starts with a mark; it may be empty. -/
def content (handles : Handles) (tokens : List Token) : Option (Tree × List Token) :=
  let read : Option (Tree × List Token) :=
    (part handles 0 true false (4 * tokens.length + 8) { tokens }).map fun p => (p.1, p.2.tokens)
  match tokens with
  | .versionDirective _ _ :: _ => some (empty, tokens)
  | .tagDirective _ _ :: _ => some (empty, tokens)
  | .documentStart :: _ => some (empty, tokens)
  | .documentEnd :: _ => some (empty, tokens)
  | .streamEnd :: _ => some (empty, tokens)
  | _ => read

/-- The tokens of a text that has one document at most hold this tree. -/
def ofTokens? (tokens : List Token) : Option Tree := do
  if tokens = [.streamEnd] then some empty
  else
    let (handles, r) ← directives tokens [] false
    let handles := handles ++ standardHandles
    let (t, r) ←
      match r with
      | .documentStart :: r => content handles r
      | r =>
        if r.length < tokens.length then none
        else
          (part handles 0 true false (4 * r.length + 8) { tokens := r }).map fun p =>
            (p.1, p.2.tokens)
    if r.dropWhile (· == .documentEnd) = [.streamEnd] then some t else none

/-- The tree of the only document of a text. -/
def read? (s : String) : Option Tree := (Token.ofText? s).bind ofTokens?

end DataMigration.Yaml
