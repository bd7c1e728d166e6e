import DataMigration.Yaml.Cursor

/-!
# The text of scalars

Plain, quoted and block scalars. A single line break inside a plain or quoted scalar becomes a
blank, more breaks lose one; blanks around breaks are dropped. Block scalars keep their lines, and
the folded ones join the lines that are not indented further. Each loop uses a character of the
text in every round, so the length of what is left bounds it.
-/

namespace DataMigration.Yaml

/-- Blanks and breaks between two words of a scalar. -/
structure Gap where
  /-- A break has been seen. -/
  broken : Bool := false
  /-- The blanks before the first break. -/
  blanks : List Char := []
  /-- The first break. -/
  first : List Char := []
  /-- The breaks after the first one. -/
  more : List Char := []

namespace Gap

/-- What the gap contributes to the text. -/
def text (g : Gap) : List Char :=
  if g.broken then
    if g.first.head? = some '\n' then if g.more = [] then [' '] else g.more
    else g.first ++ g.more
  else g.blanks

/-- Reads the blanks and breaks from here on. With `indent`, a tab on a new line left of that
column is refused. -/
def read (indent : Option Nat) : Nat → Gap → Cursor → Option (Gap × Cursor)
  | 0, g, c => some (g, c)
  | fuel + 1, g, c =>
    if c.atBlank then
      if g.broken then
        if c.at? '\t' && indent.any (fun i => decide (c.column < i)) then none
        else read indent fuel g c.skip
      else read indent fuel { g with blanks := g.blanks ++ (c.rest.take 1) } c.skip
    else if c.atBreak then
      let (text, next) := c.takeBreak
      if g.broken then read indent fuel { g with more := g.more ++ text } next
      else read indent fuel { g with broken := true, blanks := [], first := text } next
    else some (g, c)

end Gap

/-- The value of a digit in base 16. -/
def hexDigit? (c : Char) : Option Nat :=
  let n := c.toNat
  if 48 ≤ n ∧ n ≤ 57 then some (n - 48)
  else if 97 ≤ n ∧ n ≤ 102 then some (n - 87)
  else if 65 ≤ n ∧ n ≤ 70 then some (n - 55)
  else none

/-- The character with the code that the first `n` digits in base 16 give. -/
def hexChar? (n : Nat) (cs : List Char) : Option Char := do
  let digits ← (cs.take n).mapM hexDigit?
  let code := digits.foldl (fun a d => 16 * a + d) 0
  if digits.length < n ∨ (0xD800 ≤ code ∧ code ≤ 0xDFFF) ∨ 0x10FFFF < code then none
  else some (Char.ofNat code)

/-- The character of an escape of one letter. -/
def simpleEscape? (c : Char) : Option Char :=
  ([('0', 0), ('a', 7), ('b', 8), ('t', 9), ('\t', 9), ('n', 10), ('v', 11), ('f', 12), ('r', 13),
    ('e', 27), (' ', 32), ('"', 34), ('/', 47), ('\\', 92), ('N', 0x85), ('_', 0xA0),
    ('L', 0x2028), ('P', 0x2029)].lookup c).map Char.ofNat

/-- The number of digits of an escape that gives a code. -/
def codeEscape? (c : Char) : Option Nat := [('x', 2), ('u', 4), ('U', 8)].lookup c

/-- Reads a word of a quoted scalar up to a blank, a break or the closing quote, onto the reversed
text; says whether an escaped break ended it. -/
def quotedWord (single : Bool) : Nat → List Char → Cursor → Option (List Char × Cursor × Bool)
  | 0, _, _ => none
  | fuel + 1, acc, c =>
    match c.rest with
    | [] => none
    | x :: r =>
      if isBlank x || isBreak x then some (acc, c, false)
      else if single && x == '\'' && r.head? == some '\'' then
        quotedWord single fuel ('\'' :: acc) (c.skipMany 2)
      else if x == (if single then '\'' else '"') then some (acc, c, false)
      else if !single && x == '\\' then
        match r with
        | [] => none
        | e :: digits =>
          if isBreak e then some (acc, c.skip.takeBreak.2, true)
          else
            match simpleEscape? e with
            | some y => quotedWord single fuel (y :: acc) (c.skipMany 2)
            | none => do
              let n ← codeEscape? e
              let y ← hexChar? n digits
              quotedWord single fuel (y :: acc) (c.skipMany (2 + n))
      else quotedWord single fuel (x :: acc) c.skip

/-- Reads the rest of a quoted scalar onto the reversed text. -/
def quotedRest (single : Bool) : Nat → List Char → Cursor → Option (List Char × Cursor)
  | 0, _, _ => none
  | fuel + 1, acc, c =>
    if c.atDocumentMark '-' || c.atDocumentMark '.' || c.atEnd then none
    else do
      let (acc, c, escaped) ← quotedWord single (c.rest.length + 1) acc c
      if c.at? (if single then '\'' else '"') then some (acc, c.skip)
      else
        let (gap, c) ← Gap.read none (c.rest.length + 1) { broken := escaped } c
        quotedRest single fuel (gap.text.reverse ++ acc) c

/-- A quoted scalar from its opening quote on. -/
def quoted (single : Bool) (c : Cursor) : Option (String × Cursor) :=
  (quotedRest single (c.rest.length + 1) [] c.skip).map fun p => (String.ofList p.1.reverse, p.2)

/-- The marks that end a plain scalar inside brackets. -/
def isFlowMark (c : Char) : Bool := c == ',' || c == '[' || c == ']' || c == '\x7b' || c == '\x7d'

/-- Reads a word of a plain scalar onto the reversed text, behind a gap. -/
def plainWord (flow : Bool) : Nat → Gap → List Char → Cursor → Option (Gap × List Char × Cursor)
  | 0, _, _, _ => none
  | fuel + 1, gap, acc, c =>
    match c.rest with
    | [] => some (gap, acc, c)
    | x :: r =>
      if isBlank x || isBreak x then some (gap, acc, c)
      else if flow && x == ':' && r.head?.any (fun y => isFlowMark y || y == '?') then none
      else if (x == ':' && c.openAt 1) || (flow && isFlowMark x) then some (gap, acc, c)
      else plainWord flow fuel {} (x :: (gap.text.reverse ++ acc)) c.skip

/-- Reads a plain scalar onto the reversed text; `indent` is the column its lines need. -/
def plainRest (flow : Bool) (indent : Nat) :
    Nat → Gap → List Char → Cursor → Option (Gap × List Char × Cursor)
  | 0, _, _, _ => none
  | fuel + 1, gap, acc, c =>
    if c.atDocumentMark '-' || c.atDocumentMark '.' || c.at? '#' then some (gap, acc, c)
    else do
      let (gap, acc, c) ← plainWord flow (c.rest.length + 1) gap acc c
      if !(c.atBlank || c.atBreak) then some (gap, acc, c)
      else
        let (gap, c) ← Gap.read (some indent) (c.rest.length + 1) gap c
        if !flow && decide (c.column < indent) then some (gap, acc, c)
        else plainRest flow indent fuel gap acc c

/-- A plain scalar, and whether a break follows its last word. -/
def plain (flow : Bool) (indent : Nat) (c : Cursor) : Option (String × Cursor × Bool) :=
  (plainRest flow indent (c.rest.length + 1) {} [] c).map fun p =>
    (String.ofList p.2.1.reverse, p.2.2, p.1.broken)

/-- What is done with the breaks at the end of a block scalar. -/
inductive Chomping where
  | clip
  | strip
  | keep
  deriving DecidableEq

/-- The head of a block scalar: how it is chomped, and its indentation if it is given. -/
def blockHead (c : Cursor) : Option (Chomping × Option Nat × Cursor) :=
  let chomping (c : Cursor) : Chomping × Cursor :=
    if c.at? '+' then (.keep, c.skip) else if c.at? '-' then (.strip, c.skip) else (.clip, c)
  let digit (c : Cursor) : Option (Option Nat × Cursor) :=
    match c.rest with
    | d :: _ =>
      let n := d.toNat
      if n = 48 then none
      else if 49 ≤ n ∧ n ≤ 57 then some (some (n - 48), c.skip)
      else some (none, c)
    | [] => some (none, c)
  let (first, c) := chomping c
  match digit c with
  | none => none
  | some (size, c) =>
    if first = .clip ∧ size.isSome then
      let (second, c) := chomping c
      some (second, size, c)
    else some (first, size, c)

/-- The blanks and breaks in front of a line of a block scalar: the breaks, the greatest column
reached, and the position. Without an `indent` all blanks are skipped. -/
def blockGap (indent : Option Nat) :
    Nat → List Char → Nat → Cursor → Option (List Char × Nat × Cursor)
  | 0, _, _, _ => none
  | fuel + 1, breaks, widest, c =>
    let free := c.rest.takeWhile (· == ' ')
    let n := match indent with
      | none => free.length
      | some i => min free.length (i - c.column)
    let c := c.skipMany n
    let widest := max widest c.column
    if c.at? '\t' && indent.all (fun i => decide (c.column < i)) then none
    else if c.atBreak then
      let (text, c) := c.takeBreak
      blockGap indent fuel (breaks ++ text) widest c
    else some (breaks, widest, c)

/-- Reads the lines of a block scalar onto the reversed text; gives the text, the break after the
last line and the breaks behind that. -/
def blockLines (literal : Bool) (indent : Nat) :
    Nat → List Char → List Char → List Char → Bool → Cursor →
      Option (List Char × List Char × List Char × Cursor)
  | 0, _, _, _, _, _ => none
  | fuel + 1, acc, first, more, afterBlank, c =>
    if c.column = indent ∧ !c.atEnd then
      let startsBlank := c.atBlank
      let fold := !literal && first.head? == some '\n' && !afterBlank && !startsBlank
      let gap := if fold then if more = [] then [' '] else more else first ++ more
      let line := c.rest.takeWhile fun x => !isBreak x
      let acc := line.reverse ++ (gap.reverse ++ acc)
      let (first, c) := (c.skipMany line.length).takeBreak
      match blockGap (some indent) (c.rest.length + 1) [] 0 c with
      | none => none
      | some (more, _, c) => blockLines literal indent fuel acc first more startsBlank c
    else some (acc, first, more, c)

/-- A block scalar from its mark on; `parent` is the indentation of what it stands in. -/
def block (literal : Bool) (parent : Int) (c : Cursor) : Option (String × Cursor) := do
  let (chomping, size, c) ← blockHead c.skip
  let c := c.skipWhile isBlank
  let c := if c.at? '#' then c.skipWhile fun x => !isBreak x else c
  if !(c.atEnd || c.atBreak) then none
  else
    let c := c.takeBreak.2
    let known := size.map fun n => (if 0 ≤ parent then parent.toNat + n else n)
    let (breaks, widest, c) ← blockGap known (c.rest.length + 1) [] 0 c
    let indent := known.getD (max (max widest (parent + 1).toNat) 1)
    let (acc, first, more, c) ← blockLines literal indent (c.rest.length + 1) [] [] breaks false c
    let acc := if chomping = .strip then acc else first.reverse ++ acc
    let acc := if chomping = .keep then more.reverse ++ acc else acc
    some (String.ofList acc.reverse, c)

end DataMigration.Yaml
