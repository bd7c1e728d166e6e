/-!
# Blank characters and trimming

Blank is the Unicode property `White_Space`. Trimming drops blanks at the ends of a text and
nothing in between.
-/

namespace DataMigration.Text

/-- The property `White_Space`. -/
def isBlank (c : Char) : Bool :=
  let n := c.toNat
  decide (9 ≤ n ∧ n ≤ 13) || n == 0x20 || n == 0x85 || n == 0xA0 || n == 0x1680 ||
    decide (0x2000 ≤ n ∧ n ≤ 0x200A) || n == 0x2028 || n == 0x2029 || n == 0x202F ||
    n == 0x205F || n == 0x3000

/-- Without the blanks at the start. -/
def dropBlanks (s : List Char) : List Char := s.dropWhile isBlank

/-- Without the blanks at the end. -/
def dropBlanksEnd (s : List Char) : List Char := (s.reverse.dropWhile isBlank).reverse

/-- Without the blanks at both ends, on characters. -/
def trimChars (s : List Char) : List Char := dropBlanksEnd (dropBlanks s)

/-- Without the blanks at both ends. -/
def trim (s : String) : String := String.ofList (trimChars s.toList)

/-- Without the characters of `p` at both ends. -/
def trimWhere (p : Char → Bool) (s : String) : String :=
  String.ofList ((s.toList.dropWhile p).reverse.dropWhile p).reverse

end DataMigration.Text
