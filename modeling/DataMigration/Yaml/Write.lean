import DataMigration.Document.Scalar
import DataMigration.Json.Write
import DataMigration.Text.Cut
import DataMigration.Yaml.Cursor

/-!
# Writing YAML

Block documents with two blanks for each level; a list inside a mapping is not indented further.
A text is written without quotes where it would be read back as that text, in single quotes where
it looks like another type or like a mark, in double quotes where it needs escapes, and as a
literal block when it has several lines.
-/

namespace DataMigration.Yaml

/-- The ways to write a text. -/
inductive Style where
  | plain
  | single
  | double
  | literal
  deriving DecidableEq

/-- A character that may be written as it is. -/
def isPrintable (c : Char) : Bool :=
  let n := c.toNat
  n == 10 || decide (0x20 ≤ n ∧ n ≤ 0x7E) ||
    (decide (0xA0 ≤ n) && n != 0xFEFF && n != 0xFFFE && n != 0xFFFF && n != 0x2028 && n != 0x2029)

/-- A blank, a break or the end of the text. -/
def isOpen (c : Option Char) : Bool := c.all fun x => isBlank x || isBreak x

/-- Marks that no plain text may start with. -/
def isStartMark (c : Char) : Bool := "#,[]\x7b\x7d&*!|>'\"%@\x60".toList.contains c

/-- A mark inside `s` that would be read as something else; `before` precedes it. -/
def hasInnerMark : Option Char → List Char → Bool
  | _, [] => false
  | before, c :: r =>
    (c == ':' && isOpen r.head?) || (c == '#' && isOpen before) || hasInnerMark (some c) r

/-- The text has a mark that rules out the plain style. -/
def hasMark : List Char → Bool
  | [] => false
  | c :: r =>
    isStartMark c || ((c == '?' || c == ':' || c == '-') && isOpen r.head?) ||
      (c :: r).take 3 == ['-', '-', '-'] || (c :: r).take 3 == ['.', '.', '.'] ||
      hasInnerMark (some c) r

/-- The text has a character that satisfies `first` in front of one that satisfies `second`. -/
def hasPair (first second : Char → Bool) : List Char → Bool
  | a :: b :: r => (first a && second b) || hasPair first second (b :: r)
  | _ => false

/-- The text without quotes would be read as null, a truth value or a number. -/
def looksTyped (s : String) : Bool :=
  Scalar.isAbsent s || (Scalar.bool? s).isSome || (Scalar.int? s).isSome ||
    Scalar.hasLeadingZero s.toList || (Scalar.float? s).isSome

/-- The style of a text; a key has to stay on its line. -/
def styleOf (isKey : Bool) (s : String) : Style :=
  let cs := s.toList
  let space (c : Char) : Bool := c == ' '
  let special := cs.any (fun c => !isPrintable c) || hasPair space isBreak cs
  let trailingSpace := cs.getLast? == some ' '
  if cs.contains '\n' then
    if special || trailingSpace || isKey then .double else .literal
  else if special then .double
  else if looksTyped s || cs.head? == some ' ' || trailingSpace || hasMark cs then .single
  else .plain

/-- `n` in base 16 with `width` digits. -/
def hexPadded (width n : Nat) : List Char :=
  let ds := (Nat.toDigits 16 n).map Char.toUpper
  List.replicate (width - ds.length) '0' ++ ds

/-- A character inside double quotes. -/
def escape (c : Char) : List Char :=
  let n := c.toNat
  let letter := [(0, '0'), (7, 'a'), (8, 'b'), (9, 't'), (10, 'n'), (11, 'v'), (12, 'f'), (13, 'r'),
    (27, 'e'), (34, '"'), (92, '\\'), (0x85, 'N'), (0x2028, 'L'), (0x2029, 'P')].lookup n
  match letter with
  | some l => ['\\', l]
  | none =>
    if isPrintable c then [c]
    else if n ≤ 0xFF then '\\' :: 'x' :: hexPadded 2 n
    else if n ≤ 0xFFFF then '\\' :: 'u' :: hexPadded 4 n
    else '\\' :: 'U' :: hexPadded 8 n

/-- `n` blanks. -/
def spaces (n : Nat) : List Char := List.replicate n ' '

/-- The lines of a literal block at a column; empty lines stay empty. -/
def literalLines (column : Nat) : Bool → List Char → List Char
  | _, [] => []
  | atStart, c :: r =>
    if isBreak c then c :: literalLines column true r
    else (if atStart then spaces column else []) ++ c :: literalLines column false r

/-- The head of a literal block. -/
def literalHead (cs : List Char) : List Char :=
  let indent := if cs.head?.any (fun c => c == ' ' || isBreak c) then ['2'] else []
  let chomp :=
    match cs.reverse with
    | [] => ['-']
    | a :: r =>
      if !isBreak a then ['-']
      else if r.head?.all isBreak then ['+']
      else []
  '|' :: indent ++ chomp

/-- A text, ended by a line break; `column` is where the lines of a block start. -/
def textLine (isKey : Bool) (column : Nat) (s : String) : List Char :=
  let cs := s.toList
  match styleOf isKey s with
  | .plain => cs
  | .single => '\'' :: cs.flatMap (fun c => if c = '\'' then ['\'', '\''] else [c]) ++ ['\'']
  | .double => '"' :: cs.flatMap escape ++ ['"']
  | .literal =>
    let body := literalLines column true cs
    literalHead cs ++ '\n' :: (if body.getLast? = some '\n' then body.dropLast else body)

/-- A value that takes no lines of its own; anything else gives nothing. -/
def scalarText (column : Nat) : Value → List Char
  | .null => "null".toList
  | .bool true => "true".toList
  | .bool false => "false".toList
  | .num n => (n.write .yaml).toList
  | .str s => textLine false column s
  | .arr _ => ['[', ']']
  | .obj _ => ['\x7b', '\x7d']

/-- The greatest number of bytes of a key in front of its colon. -/
def maxKeyBytes : Nat := 128

/-- A key that can stand in front of its colon. -/
def isSimpleKey (k : String) : Bool :=
  !(k.toList.any isBreak) && decide (k.utf8ByteSize ≤ maxKeyBytes)

/-- A key at column `n` up to its colon. -/
def keyText (n : Nat) (k : String) : List Char :=
  if isSimpleKey k then textLine true (n + 2) k ++ [':']
  else '?' :: ' ' :: textLine false (n + 2) k ++ '\n' :: spaces n ++ [':']

mutual

/-- What follows the colon of a key at column `n`. -/
def afterColon (n : Nat) : Value → List Char
  | .arr vs => if vs.isEmpty then " []\n".toList else '\n' :: spaces n ++ items n vs
  | .obj fs =>
    if fs.isEmpty then " \x7b\x7d\n".toList else '\n' :: spaces (n + 2) ++ fields (n + 2) fs
  | v => ' ' :: scalarText (n + 2) v ++ ['\n']

/-- What follows a mark at column `n` that takes a line. -/
def afterMark (n : Nat) : Value → List Char
  | .arr vs => if vs.isEmpty then " []\n".toList else ' ' :: items (n + 2) vs
  | .obj fs => if fs.isEmpty then " \x7b\x7d\n".toList else ' ' :: fields (n + 2) fs
  | v => ' ' :: scalarText (n + 2) v ++ ['\n']

/-- The elements of a list at column `n`, from that column on. -/
def items (n : Nat) : List Value → List Char
  | [] => []
  | v :: vs =>
    '-' :: afterMark n v ++ (if vs.isEmpty then [] else spaces n ++ items n vs)

/-- The entries of a mapping at column `n`, from that column on. -/
def fields (n : Nat) : List (String × Value) → List Char
  | [] => []
  | (k, v) :: fs =>
    keyText n k ++ (if isSimpleKey k then afterColon n v else afterMark n v) ++
      (if fs.isEmpty then [] else spaces n ++ fields n fs)

end

/-- The last text of a document is a block that keeps its empty lines. -/
def endsOpen : Value → Bool
  | .str s => styleOf false s == .literal && (literalHead s.toList).getLast? == some '+'
  | .arr items => match items.getLast? with
    | some (.str s) => styleOf false s == .literal && (literalHead s.toList).getLast? == some '+'
    | _ => false
  | .obj fields => match fields.getLast? with
    | some (_, .str s) => styleOf false s == .literal && (literalHead s.toList).getLast? == some '+'
    | _ => false
  | _ => false

/-- A document. -/
def write (v : Value) : String :=
  let body := match v with
    | .arr (x :: xs) => items 0 (x :: xs)
    | .obj (f :: fs) => fields 0 (f :: fs)
    | v => scalarText 2 v ++ ['\n']
  String.ofList (body ++ (if endsOpen v then ['.', '.', '.', '\n'] else []))

end DataMigration.Yaml
