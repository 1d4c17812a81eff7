/-!
# Characters, lines and white space

Text is read character by character. Which characters belong to a class is told by a table of ranges
of code points, a text has lines, and white space at its ends does not count.

## Main definitions

* `inRanges`: whether one of the ranges of a table holds a code point.
* `lines`: the lines of a text.
* `isBlank`: the white space characters, of any alphabet.
* `trimStart`, `trimEnd`, `trim`: text without white space at its start, its end, both.
-/

namespace TurnPool.Text

/-! ### Ranges of code points -/

/-- Whether one of the ranges, closed at both ends, holds the code point `n`. -/
def inRanges (ranges : Array (Nat × Nat)) (n : Nat) : Bool :=
  ranges.any fun r => r.1 ≤ n && n ≤ r.2

/-! ### Lines -/

/-- A line without the carriage return at its end, if it has one. -/
def dropReturn (l : List Char) : List Char :=
  if l.getLast? = some '\r' then l.dropLast else l

/-- The parts of a list of characters between its line feeds. There is always at least one. -/
def splitLines : List Char → List (List Char)
  | [] => [[]]
  | c :: cs =>
    if c = '\n' then [] :: splitLines cs
    else
      match splitLines cs with
      | l :: ls => (c :: l) :: ls
      | [] => [[c]]

/-- The lines of a text that ends without a line feed. -/
def lines (s : String) : List String :=
  (splitLines s.toList).map fun l => String.ofList (dropReturn l)

/-! ### White space -/

/-- Whether a character is white space: the control characters from the tabulator to the carriage
return, the space, next line, and the spaces and separators of other alphabets. -/
def isBlank (c : Char) : Bool :=
  let n := c.toNat
  (0x09 ≤ n && n ≤ 0x0D) || n == 0x20 || n == 0x85 || n == 0xA0 || n == 0x1680 ||
    (0x2000 ≤ n && n ≤ 0x200A) || n == 0x2028 || n == 0x2029 || n == 0x202F || n == 0x205F ||
    n == 0x3000

/-- The basic white space characters are white space. -/
theorem isBlank_of_isWhitespace {c : Char} (h : c.isWhitespace = true) : isBlank c = true := by
  simp only [Char.isWhitespace, Bool.or_eq_true, decide_eq_true_eq] at h
  rcases h with ((h | h) | h) | h <;> subst h <;> decide

/-- Text without the white space at its start. -/
def trimStart (cs : List Char) : List Char :=
  cs.dropWhile isBlank

/-- Text without the white space at its end. -/
def trimEnd (cs : List Char) : List Char :=
  (cs.reverse.dropWhile isBlank).reverse

/-- Text without the white space at either end. -/
def trim (cs : List Char) : List Char :=
  trimEnd (trimStart cs)

end TurnPool.Text
