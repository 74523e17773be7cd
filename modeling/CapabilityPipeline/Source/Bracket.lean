import CapabilityPipeline.Source.Quote
import CapabilityPipeline.Text.Blank
import CapabilityPipeline.Text.Symbol

/-!
# Brackets and top-level operators

Brackets of three kinds nest, and count only outside string literals. An operator splits a text
where no bracket is open. The pieces of a text are found in one pass that also checks that
brackets match and that literals end.

Results:

* `openDepth`: how many more brackets open than close, kinds apart.
* `pieces`: the parts of a balanced text between the top-level occurrences of an operator.
* `topLevelPositions`, `splitTopLevel`: the offsets of those occurrences and the trimmed parts.
* `splitClose`: a bracketed text at the front, and what follows its closing bracket.
-/

namespace CapabilityPipeline.Source

/-- The kinds of brackets. -/
inductive Bracket where
  | round
  | square
  | curly
  deriving DecidableEq, Repr

namespace Bracket

/-- The character that opens a bracket. -/
def opener : Bracket → Char
  | round => '('
  | square => '['
  | curly => '\x7b'

/-- The character that closes a bracket. -/
def closer : Bracket → Char
  | round => ')'
  | square => ']'
  | curly => '\x7d'

/-- The bracket that a character opens. -/
def ofOpener? (c : Char) : Option Bracket :=
  [round, square, curly].find? fun b => b.opener = c

/-- The bracket that a character closes. -/
def ofCloser? (c : Char) : Option Bracket :=
  [round, square, curly].find? fun b => b.closer = c

end Bracket

/-! ## Depth -/

/-- Opening minus closing brackets outside literals, from a given place on. -/
def depthFrom : Quote → List Char → Int
  | _, [] => 0
  | .outside, c :: rest =>
    let change :=
      if (Bracket.ofOpener? c).isSome then 1 else if (Bracket.ofCloser? c).isSome then -1 else 0
    change + depthFrom (Quote.outside.next c) rest
  | quote, c :: rest => depthFrom (quote.next c) rest

/-- Model of `open_depth`: opening minus closing brackets of a text outside its literals. -/
def openDepth (cs : List Char) : Int :=
  depthFrom .outside cs

/-! ## Splitting -/

/-- Why a text has no parts. -/
inductive ScanError where
  /-- A closing bracket that does not match, with its byte offset. -/
  | unbalanced (closer : Char) (offset : Nat)
  | unterminatedString
  | missingClose (bracket : Bracket)
  deriving DecidableEq, Repr

/-- The wording of a scan error. -/
def ScanError.message : ScanError → String
  | unbalanced closer offset => s!"unbalanced '{closer}' at offset {offset}"
  | unterminatedString => "unterminated string literal"
  | missingClose bracket => s!"missing closing '{bracket.closer}'"

/-- Where the splitting scanner stands. -/
structure SplitScan where
  offset : Nat
  quote : Quote
  /-- Open brackets, innermost first. -/
  nesting : List Bracket
  /-- Characters of an operator that are still to be passed over. -/
  pending : Nat
  deriving DecidableEq, Repr

/-- The start of a text. -/
def SplitScan.start : SplitScan := ⟨0, .outside, [], 0⟩

/-- A character before the first part. -/
def consFirst (c : Char) : List (List Char) → List (List Char)
  | [] => [[c]]
  | part :: others => (c :: part) :: others

/-- The loop of `top_level_positions`: the parts of a text between top-level occurrences of an
operator, from a given place on. -/
def piecesFrom (op : Operator) : SplitScan → List Char → Except ScanError (List (List Char))
  | s, [] =>
    if s.quote ≠ .outside then .error .unterminatedString
    else match s.nesting with
      | bracket :: _ => .error (.missingClose bracket)
      | [] => .ok [[]]
  | s, c :: rest =>
    let offset := s.offset + c.utf8Size
    if s.pending > 0 then
      piecesFrom op { s with offset, pending := s.pending - 1 } rest
    else if s.quote ≠ .outside then
      (piecesFrom op { s with offset, quote := s.quote.next c } rest).map (consFirst c)
    else match Bracket.ofOpener? c, Bracket.ofCloser? c with
      | some bracket, _ =>
        (piecesFrom op { s with offset, nesting := bracket :: s.nesting } rest).map (consFirst c)
      | none, some bracket =>
        match s.nesting with
        | [] => .error (.unbalanced c s.offset)
        | innermost :: outer =>
          if innermost = bracket then
            (piecesFrom op { s with offset, nesting := outer } rest).map (consFirst c)
          else .error (.unbalanced c s.offset)
      | none, none =>
        if s.nesting = [] ∧ op.symbol.isPrefixOf (c :: rest) then
          (piecesFrom op { s with offset, pending := op.symbol.length - 1 } rest).map ([] :: ·)
        else
          (piecesFrom op { s with offset, quote := s.quote.next c } rest).map (consFirst c)

/-- The parts of a text between top-level occurrences of an operator. -/
def pieces (op : Operator) (cs : List Char) : Except ScanError (List (List Char)) :=
  piecesFrom op .start cs

/-- The byte offsets of the operators between parts, the first part starting at an offset. -/
def operatorOffsets (op : Operator) : Nat → List (List Char) → List Nat
  | _, [] => []
  | _, [_] => []
  | start, part :: others =>
    let here := start + Text.byteCount part
    here :: operatorOffsets op (here + Text.byteCount op.symbol) others

/-- Model of `top_level_positions`: the byte offsets of the top-level occurrences of an operator. -/
def topLevelPositions (op : Operator) (cs : List Char) : Except ScanError (List Nat) :=
  (pieces op cs).map (operatorOffsets op 0)

/-- Model of `split_top_level`: the trimmed parts of a text between top-level occurrences of an
operator. -/
def splitTopLevel (op : Operator) (cs : List Char) : Except ScanError (List (List Char)) :=
  (pieces op cs).map (List.map Text.trim)

/-- The operator occurs at top level. -/
def occurs (op : Operator) (cs : List Char) : Except ScanError Bool :=
  (pieces op cs).map fun parts => 1 < parts.length

/-! ## Matching brackets -/

/-- The loop of `matching_close`: the text up to the bracket that closes the outermost open one, and
the rest. -/
def splitCloseFrom : Quote → (nesting : List Bracket) → List Char → Option (List Char × List Char)
  | _, _, [] => none
  | .outside, nesting, c :: rest =>
    let keepOn (quote : Quote) (nesting : List Bracket) :=
      (splitCloseFrom quote nesting rest).map fun (inner, after) => (c :: inner, after)
    match Bracket.ofOpener? c, Bracket.ofCloser? c with
    | some bracket, _ => keepOn .outside (bracket :: nesting)
    | none, some bracket =>
      match nesting with
      | [] => none
      | [outermost] => if outermost = bracket then some ([c], rest) else none
      | innermost :: outer => if innermost = bracket then keepOn .outside outer else none
    | none, none => keepOn (Quote.outside.next c) nesting
  | quote, nesting, c :: rest =>
    (splitCloseFrom (quote.next c) nesting rest).map fun (inner, after) => (c :: inner, after)

/-- A text that starts with an opening bracket, split after the bracket that closes it. -/
def splitClose : List Char → Option (List Char × List Char)
  | [] => none
  | c :: rest =>
    match Bracket.ofOpener? c with
    | none => none
    | some bracket =>
      (splitCloseFrom .outside [bracket] rest).map fun (inner, after) => (c :: inner, after)

/-- Model of `matching_close`: the byte offset of the bracket that closes the one at the start of a
text. -/
def matchingClose (cs : List Char) : Option Nat :=
  (splitClose cs).map fun (bracketed, _) => Text.byteCount bracketed - 1

end CapabilityPipeline.Source
