/-!
# Blank characters, words and lines

White space is Unicode's White_Space property. A text is trimmed by dropping the blanks at its
ends, split into words at runs of blanks, and split into lines at line feeds.

Results:

* `isBlank`: the 25 white-space characters.
* `trim`, `trimStart`, `trimEnd`: a text without the blanks at its ends.
* `words`, `lines`: the two ways to split a text.
-/

namespace CapabilityPipeline.Text

/-! ## Blanks -/

/-- A character with the property White_Space. -/
def isBlank (c : Char) : Bool :=
  let n := c.toNat
  (9 ≤ n && n ≤ 13) || n == 0x20 || n == 0x85 || n == 0xA0 || n == 0x1680 ||
    (0x2000 ≤ n && n ≤ 0x200A) || n == 0x2028 || n == 0x2029 || n == 0x202F ||
    n == 0x205F || n == 0x3000

/-- A text without its leading blanks. -/
def trimStart (cs : List Char) : List Char :=
  cs.dropWhile isBlank

/-- A text without its trailing blanks. -/
def trimEnd (cs : List Char) : List Char :=
  (cs.reverse.dropWhile isBlank).reverse

/-- A text without the blanks at either end. -/
def trim (cs : List Char) : List Char :=
  trimEnd (trimStart cs)

/-- `trim` on strings. -/
def trimmed (text : String) : String :=
  String.ofList (trim text.toList)

/-! ## Words and lines -/

/-- The pieces of a text between the characters that separate. There is always at least one. -/
def splitAt (separates : Char → Bool) : List Char → List (List Char)
  | [] => [[]]
  | c :: rest =>
    if separates c then [] :: splitAt separates rest
    else match splitAt separates rest with
      | [] => [[c]]
      | piece :: others => (c :: piece) :: others

/-- The pieces of a text between runs of blanks, empty pieces left out. -/
def words (cs : List Char) : List (List Char) :=
  (splitAt isBlank cs).filter fun piece => !piece.isEmpty

/-- A line without one trailing carriage return. -/
def dropReturn (line : List Char) : List Char :=
  if line.getLast? = some '\r' then line.dropLast else line

/-- The lines of a text. A line feed ends a line, so none follows the last one; a carriage
return before a line feed belongs to the line's end. -/
def lines (cs : List Char) : List (List Char) :=
  let pieces := splitAt (· == '\n') cs
  let last := pieces.getLastD []
  pieces.dropLast.map dropReturn ++ (if last.isEmpty then [] else [last])

end CapabilityPipeline.Text
