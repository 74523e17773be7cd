import CapabilityPipeline.Source.Quote
import CapabilityPipeline.Text.Blank

/-!
# Comments

A comment runs from a `#` to the end of its line. The `#` stands at the start of a line or after
a blank, outside string literals and outside the parentheses of a target. A literal that is not
closed ends with its line, and so does a target.

Results:

* `stripComments`: a text without its comments, line by line as long as before.
-/

namespace CapabilityPipeline.Source

/-- The state of `strip_comments`: where the comment scanner stands. -/
structure CommentScan where
  inComment : Bool
  quote : Quote
  /-- Open parentheses on this line. -/
  parens : Nat
  /-- The last character kept is a blank, or there is none. -/
  afterBlank : Bool
  deriving DecidableEq, Repr

namespace CommentScan

/-- The start of a text. -/
def start : CommentScan := ⟨false, .outside, 0, true⟩

/-- One character in `strip_comments`: whether a character is kept, and where the scanner stands
after it. -/
def step (s : CommentScan) (c : Char) : Bool × CommentScan :=
  if s.inComment then
    if c = '\n' then (true, start) else (false, s)
  else if s.quote = .outside then
    if c = '#' ∧ s.parens = 0 ∧ s.afterBlank then (false, { s with inComment := true })
    else
      let parens :=
        if c = '(' then s.parens + 1
        else if c = ')' then s.parens - 1
        else if c = '\n' then 0
        else s.parens
      (true, ⟨false, s.quote.next c, parens, Text.isBlank c⟩)
  else
    let quote := if s.quote = .inside ∧ c = '\n' then .outside else s.quote.next c
    (true, ⟨false, quote, s.parens, Text.isBlank c⟩)

/-- The loop of `strip_comments`: the characters kept from here on. -/
def keep (s : CommentScan) : List Char → List Char
  | [] => []
  | c :: rest =>
    let (kept, next) := s.step c
    if kept then c :: keep next rest else keep next rest

end CommentScan

/-- Model of `strip_comments`: a text without its comments. -/
def stripComments (cs : List Char) : List Char :=
  CommentScan.start.keep cs

end CapabilityPipeline.Source
