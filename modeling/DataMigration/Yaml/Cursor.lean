/-!
# Positions in a YAML text

What is left of a text together with the line and the column where it starts. Lines end at a line
feed, a carriage return or both, and at the line separators of Unicode.
-/

namespace DataMigration.Yaml

/-- A line break. -/
def isBreak (c : Char) : Bool :=
  c == '\n' || c == '\r' || c.toNat == 0x85 || c.toNat == 0x2028 || c.toNat == 0x2029

/-- A blank inside a line. -/
def isBlank (c : Char) : Bool := c == ' ' || c == '\t'

/-- A character that may occur in a document. -/
def isAllowed (c : Char) : Bool :=
  let n := c.toNat
  n == 9 || n == 10 || n == 13 || decide (0x20 ≤ n ∧ n ≤ 0x7E) || n == 0x85 ||
    decide (0xA0 ≤ n ∧ n ≤ 0xFFFD) || decide (0x10000 ≤ n)

/-- A position: the rest of the text, and where it starts. -/
structure Cursor where
  rest : List Char
  index : Nat := 0
  line : Nat := 0
  column : Nat := 0

namespace Cursor

/-- The next character. -/
def head? (c : Cursor) : Option Char := c.rest.head?

/-- The next character is `x`. -/
def at? (c : Cursor) (x : Char) : Bool := c.rest.head? == some x

/-- The text ends here. -/
def atEnd (c : Cursor) : Bool := c.rest.isEmpty

/-- The next character is a blank. -/
def atBlank (c : Cursor) : Bool := c.rest.head?.any isBlank

/-- The next character is a line break. -/
def atBreak (c : Cursor) : Bool := c.rest.head?.any isBreak

/-- Character `n` from here is a blank or a break, or there is none. -/
def openAt (c : Cursor) (n : Nat) : Bool := (c.rest[n]?).all fun x => isBlank x || isBreak x

/-- Behind the next character of the line. -/
def skip (c : Cursor) : Cursor :=
  match c.rest with
  | [] => c
  | _ :: r => ⟨r, c.index + 1, c.line, c.column + 1⟩

/-- Behind the next `n` characters of the line. -/
def skipMany (n : Nat) (c : Cursor) : Cursor :=
  ⟨c.rest.drop n, c.index + n, c.line, c.column + n⟩

/-- Behind a line break, and what the break contributes to a text. -/
def takeBreak (c : Cursor) : List Char × Cursor :=
  match c.rest with
  | '\r' :: '\n' :: r => (['\n'], ⟨r, c.index + 2, c.line + 1, 0⟩)
  | x :: r =>
    let next : Cursor := ⟨r, c.index + 1, c.line + 1, 0⟩
    if x.toNat = 0x2028 ∨ x.toNat = 0x2029 then ([x], next)
    else if isBreak x then (['\n'], next)
    else ([], c)
  | [] => ([], c)

/-- Behind a run of characters of the line. -/
def skipWhile (p : Char → Bool) (c : Cursor) : Cursor :=
  let n := (c.rest.takeWhile p).length
  c.skipMany n

/-- At the start of a line, three equal marks that separate documents. -/
def atDocumentMark (c : Cursor) (mark : Char) : Bool :=
  c.column == 0 && c.rest.take 3 == [mark, mark, mark] && c.openAt 3

end Cursor

end DataMigration.Yaml
