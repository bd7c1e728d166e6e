import DataMigration.Yaml.ScalarText

/-!
# Tokens of a YAML text

The marks, scalars and boundaries that a text consists of. Indentation becomes explicit: a block
collection starts with a token of its own and ends with `blockEnd`. A scalar turns out to be a key
only when its colon is met, so `key` tokens are inserted in front of tokens that are already there.
-/

namespace DataMigration.Yaml

/-- A token. -/
inductive Token where
  | streamEnd
  | versionDirective (major minor : Nat)
  | tagDirective (handle start : String)
  | documentStart
  | documentEnd
  | blockSequenceStart
  | blockMappingStart
  | blockEnd
  | flowSequenceStart
  | flowSequenceEnd
  | flowMappingStart
  | flowMappingEnd
  | blockEntry
  | flowEntry
  | key
  | value
  | alias (name : String)
  | anchor (name : String)
  | tag (handle suffix : String)
  | scalar (text : String) (plain : Bool)
  deriving DecidableEq, Inhabited

/-- A place where a key may have started without a mark of its own. -/
structure KeyPlace where
  /-- No other token may stand here. -/
  required : Bool
  /-- The number of tokens before it. -/
  before : Nat
  index : Nat
  line : Nat
  column : Nat

/-- The state of the tokenizer. `keys` holds a place for each open bracket and one for the block
level, the innermost first. -/
structure Tokenizer where
  cursor : Cursor
  tokens : Array Token := #[]
  indent : Int := -1
  indents : List Int := []
  keyAllowed : Bool := true
  keys : List (Option KeyPlace) := [none]

namespace Tokenizer

/-- Inside brackets. -/
def inFlow (t : Tokenizer) : Bool := decide (1 < t.keys.length)

/-- Adds a token. -/
def push (t : Tokenizer) (x : Token) : Tokenizer := { t with tokens := t.tokens.push x }

/-- Skips blanks, comments and breaks. -/
def skipBlank (fuel : Nat) (t : Tokenizer) : Tokenizer :=
  match fuel with
  | 0 => t
  | fuel + 1 =>
    let tabs := t.inFlow || !t.keyAllowed
    let c := t.cursor.skipWhile fun x => x == ' ' || (tabs && x == '\t')
    let c := if c.at? '#' then c.skipWhile fun x => !isBreak x else c
    if c.atBreak then
      skipBlank fuel { t with cursor := c.takeBreak.2, keyAllowed := t.keyAllowed || !t.inFlow }
    else { t with cursor := c }

/-- Forgets the places where a key can no longer have started: on an earlier line or more than
1024 characters ago. A required key must not be forgotten. -/
def dropStale (t : Tokenizer) : Option Tokenizer := do
  let c := t.cursor
  let keys ← t.keys.mapM fun k =>
    match k with
    | none => some none
    | some k =>
      if k.line < c.line ∨ k.index + 1024 < c.index then
        if k.required then none else some none
      else some (some k)
  some { t with keys }

/-- Ends the block collections that are indented further than `column`. -/
def unroll (column : Int) : Nat → Tokenizer → Tokenizer
  | 0, t => t
  | fuel + 1, t =>
    if !t.inFlow && decide (column < t.indent) then
      unroll column fuel
        { t.push .blockEnd with indent := t.indents.headD (-1), indents := t.indents.tail }
    else t

/-- Ends the block collections that are indented further than `column`. -/
def unrollTo (column : Int) (t : Tokenizer) : Tokenizer := t.unroll column (t.indents.length + 1)

/-- Starts a block collection at `column` if that is further than the current indentation; its
token goes to place `before`. -/
def roll (column : Nat) (before : Nat) (start : Token) (t : Tokenizer) : Tokenizer :=
  if !t.inFlow && decide (t.indent < (column : Int)) then
    { t with
      indent := column
      indents := t.indent :: t.indents
      tokens := t.tokens.insertIdxIfInBounds before start }
  else t

/-- Gives up the innermost key place. -/
def dropKey (t : Tokenizer) : Option Tokenizer :=
  match t.keys with
  | some k :: ks => if k.required then none else some { t with keys := none :: ks }
  | _ => some t

/-- Remembers that a key may start here. -/
def saveKey (t : Tokenizer) : Option Tokenizer :=
  if t.keyAllowed then do
    let c := t.cursor
    let required := !t.inFlow && t.indent == (c.column : Int)
    let t ← t.dropKey
    some { t with keys := some ⟨required, t.tokens.size, c.index, c.line, c.column⟩ :: t.keys.tail }
  else some t

/-- A mark of one character becomes a token. -/
def mark (x : Token) (t : Tokenizer) : Tokenizer := { t.push x with cursor := t.cursor.skip }

/-- The token of a document boundary. -/
def documentMark (x : Token) (t : Tokenizer) : Option Tokenizer := do
  let t ← (t.unrollTo (-1)).dropKey
  some { t.push x with keyAllowed := false, cursor := t.cursor.skipMany 3 }

/-- An opening bracket. -/
def flowStart (x : Token) (t : Tokenizer) : Option Tokenizer := do
  let t ← t.saveKey
  some { t.mark x with keys := none :: t.keys, keyAllowed := true }

/-- A closing bracket. -/
def flowEnd (x : Token) (t : Tokenizer) : Option Tokenizer := do
  let t ← t.dropKey
  let keys := if t.inFlow then t.keys.tail else t.keys
  some { t.mark x with keys, keyAllowed := false }

/-- A comma between brackets. -/
def flowEntry (t : Tokenizer) : Option Tokenizer := do
  let t ← t.dropKey
  some { t.mark .flowEntry with keyAllowed := true }

/-- A hyphen in front of an element. -/
def blockEntry (t : Tokenizer) : Option Tokenizer :=
  if !t.inFlow && !t.keyAllowed then none
  else do
    let t ← (t.roll t.cursor.column t.tokens.size .blockSequenceStart).dropKey
    some { t.mark .blockEntry with keyAllowed := true }

/-- A question mark in front of a key. -/
def keyMark (t : Tokenizer) : Option Tokenizer :=
  if !t.inFlow && !t.keyAllowed then none
  else do
    let t ← (t.roll t.cursor.column t.tokens.size .blockMappingStart).dropKey
    some { t.mark .key with keyAllowed := !t.inFlow }

/-- A colon in front of a value: the remembered place becomes a key. -/
def valueMark (t : Tokenizer) : Option Tokenizer :=
  match t.keys with
  | some k :: ks =>
    let t := { t with tokens := t.tokens.insertIdxIfInBounds k.before .key, keys := none :: ks }
    let t := t.roll k.column k.before .blockMappingStart
    some { t.mark .value with keyAllowed := false }
  | _ =>
    if !t.inFlow && !t.keyAllowed then none
    else
      let t := t.roll t.cursor.column t.tokens.size .blockMappingStart
      some { t.mark .value with keyAllowed := !t.inFlow }

/-- A character of a name of an anchor. -/
def isNameChar (c : Char) : Bool := c.isAlphanum || c == '_' || c == '-'

/-- An anchor or an alias. -/
def anchorMark (make : String → Token) (t : Tokenizer) : Option Tokenizer := do
  let t ← t.saveKey
  let c := t.cursor.skip
  let name := c.rest.takeWhile isNameChar
  let c := c.skipMany name.length
  let ended := c.openAt 0 || c.rest.head?.any fun x => "?:,]\x7d%@\x60".toList.contains x
  if name = [] ∨ !ended then none
  else some { t.push (make (String.ofList name)) with cursor := c, keyAllowed := false }

/-- A character of the name of a tag. -/
def isUriChar (c : Char) : Bool :=
  isNameChar c || ";/?:@&=+$.!~*'()%".toList.contains c

/-- A character of the name of a tag between angle brackets. -/
def isVerbatimChar (c : Char) : Bool := isUriChar c || c == ',' || c == '[' || c == ']'

/-- A tag. -/
def tagMark (t : Tokenizer) : Option Tokenizer := do
  let t ← t.saveKey
  let c := t.cursor.skip
  let (token, c) ←
    match c.rest with
    | '<' :: r =>
      let uri := r.takeWhile isVerbatimChar
      let c := (c.skipMany (1 + uri.length))
      if uri = [] ∨ !c.at? '>' then none else some (Token.tag "" (String.ofList uri), c.skip)
    | r =>
      let name := r.takeWhile isNameChar
      let c := c.skipMany name.length
      if c.at? '!' then
        let c := c.skip
        let suffix := c.rest.takeWhile isUriChar
        if suffix = [] then none
        else
          some (Token.tag (String.ofList ('!' :: name ++ ['!'])) (String.ofList suffix),
            c.skipMany suffix.length)
      else
        let more := c.rest.takeWhile isUriChar
        let suffix := String.ofList (name ++ more)
        let c := c.skipMany more.length
        some (if suffix = "" then Token.tag "" "!" else Token.tag "!" suffix, c)
  if c.openAt 0 || (t.inFlow && c.at? ',') then
    some { t.push token with cursor := c, keyAllowed := false }
  else none

/-- A directive line. -/
def directive (t : Tokenizer) : Option Tokenizer := do
  let t ← (t.unrollTo (-1)).dropKey
  let c := t.cursor.skip
  let name := c.rest.takeWhile isNameChar
  let c := (c.skipMany name.length).skipWhile isBlank
  let (token, c) ←
    if name = "YAML".toList then do
      let major := c.rest.takeWhile Char.isDigit
      let c := c.skipMany major.length
      if major = [] ∨ !c.at? '.' then none
      else
        let c := c.skip
        let minor := c.rest.takeWhile Char.isDigit
        let c := c.skipMany minor.length
        let number (ds : List Char) : Nat := ds.foldl (fun n d => 10 * n + (d.toNat - 48)) 0
        if minor = [] then none else some (Token.versionDirective (number major) (number minor), c)
    else if name = "TAG".toList then
      let handle := c.rest.takeWhile fun x => isNameChar x || x == '!'
      let c := (c.skipMany handle.length).skipWhile isBlank
      let start := c.rest.takeWhile isVerbatimChar
      let c := c.skipMany start.length
      if handle.head? ≠ some '!' ∨ handle.getLast? ≠ some '!' ∨ start = [] ∨ !c.openAt 0 then none
      else some (Token.tagDirective (String.ofList handle) (String.ofList start), c)
    else none
  let c := c.skipWhile isBlank
  let c := if c.at? '#' then c.skipWhile fun x => !isBreak x else c
  if c.atEnd || c.atBreak then
    some { t.push token with cursor := c.takeBreak.2, keyAllowed := false }
  else none

/-- A block scalar. -/
def blockScalar (literal : Bool) (t : Tokenizer) : Option Tokenizer := do
  let t ← t.dropKey
  let (text, c) ← block literal t.indent t.cursor
  some { t.push (.scalar text false) with cursor := c, keyAllowed := true }

/-- A quoted scalar. -/
def quotedScalar (single : Bool) (t : Tokenizer) : Option Tokenizer := do
  let t ← t.saveKey
  let (text, c) ← quoted single t.cursor
  some { t.push (.scalar text false) with cursor := c, keyAllowed := false }

/-- A plain scalar. -/
def plainScalar (t : Tokenizer) : Option Tokenizer := do
  let t ← t.saveKey
  let (text, c, broken) ← plain t.inFlow (t.indent + 1).toNat t.cursor
  some { t.push (.scalar text true) with cursor := c, keyAllowed := broken }

/-- A plain scalar may start here. -/
def atPlain (t : Tokenizer) : Bool :=
  let c := t.cursor
  match c.rest with
  | [] => false
  | x :: _ =>
    !(isBlank x || isBreak x || "-?:,[]\x7b\x7d#&*!|>'\"%@\x60".toList.contains x) ||
      (x == '-' && !(c.rest[1]?).any isBlank) ||
      (!t.inFlow && (x == '?' || x == ':') && !c.openAt 1)

/-- Adds the tokens of the item that starts here; `none` if there can be none. -/
def item (t : Tokenizer) : Option Tokenizer :=
  let c := t.cursor
  match c.rest with
  | [] => do
    let t ← (t.unrollTo (-1)).dropKey
    some (t.push .streamEnd)
  | x :: _ =>
    if c.column = 0 ∧ x = '%' then t.directive
    else if c.atDocumentMark '-' then t.documentMark .documentStart
    else if c.atDocumentMark '.' then t.documentMark .documentEnd
    else if x = '[' then t.flowStart .flowSequenceStart
    else if x = '\x7b' then t.flowStart .flowMappingStart
    else if x = ']' then t.flowEnd .flowSequenceEnd
    else if x = '\x7d' then t.flowEnd .flowMappingEnd
    else if x = ',' then t.flowEntry
    else if x = '-' ∧ c.openAt 1 then t.blockEntry
    else if x = '?' ∧ (t.inFlow ∨ c.openAt 1) then t.keyMark
    else if x = ':' ∧ (t.inFlow ∨ c.openAt 1) then t.valueMark
    else if x = '*' then t.anchorMark .alias
    else if x = '&' then t.anchorMark .anchor
    else if x = '!' then t.tagMark
    else if x = '|' ∧ !t.inFlow then t.blockScalar true
    else if x = '>' ∧ !t.inFlow then t.blockScalar false
    else if x = '\'' then t.quotedScalar true
    else if x = '"' then t.quotedScalar false
    else if t.atPlain then t.plainScalar
    else none

/-- Adds the tokens of the next item. -/
def step (t : Tokenizer) : Option Tokenizer := do
  let t ← (t.skipBlank (t.cursor.rest.length + 1)).dropStale
  (t.unrollTo t.cursor.column).item

/-- Runs until the end of the text is reached. -/
def run : Nat → Tokenizer → Option Tokenizer
  | 0, _ => none
  | fuel + 1, t => do
    let t ← t.step
    if t.tokens.back? = some .streamEnd then some t else run fuel t

end Tokenizer

/-- Without the mark of the byte order. -/
def withoutMark : List Char → List Char
  | [] => []
  | c :: r => if c.toNat = 0xFEFF then r else c :: r

/-- The tokens of the characters of a text. -/
def Token.ofChars? (cs : List Char) : Option (List Token) :=
  let cs := withoutMark cs
  if cs.all isAllowed then
    (Tokenizer.run (cs.length + 2) { cursor := { rest := cs } }).map fun t => t.tokens.toList
  else none

/-- The tokens of a text. -/
def Token.ofText? (s : String) : Option (List Token) := ofChars? s.toList

end DataMigration.Yaml
