import CapabilityPipeline.Source.Bracket
import CapabilityPipeline.Source.Comment

/-!
# Statements

A statement is one line of a program, or several: a line that ends with an operator or leaves a
bracket open goes on with the next line that is not blank, and so does a line before one that
starts with an operator.

Results:

* `statements`: the statements of a text without comments, each with the line it starts on.
-/

namespace CapabilityPipeline.Source

/-- Model of `LogicalLine`: a statement and the number of its first line, counted from one. -/
structure Statement where
  line : Nat
  text : List Char
  deriving DecidableEq, Repr

/-- The text ends with an operator. -/
def endsWithOperator (cs : List Char) : Bool :=
  Operator.all.any fun op => op.symbol.isSuffixOf cs

/-- Model of `starts_with_operator`: the text starts with an operator. -/
def startsWithOperator (cs : List Char) : Bool :=
  Operator.all.any fun op => op.symbol.isPrefixOf cs

/-- Model of `needs_continuation`. A statement cannot end here: an operator is last, or a bracket is
open. -/
def needsContinuation (cs : List Char) : Bool :=
  let text := Text.trimEnd cs
  endsWithOperator text || 0 < openDepth text

/-- A line belongs to the statement before it. -/
def continues (before line : List Char) : Bool :=
  needsContinuation before || startsWithOperator line

/-- The loop of `logical_lines`: the statements of numbered lines, of which one may be under way. -/
def joinLines : Option Statement → List (Nat × List Char) → List Statement
  | none, [] => []
  | some current, [] => [current]
  | none, (n, line) :: rest => joinLines (some ⟨n, line⟩) rest
  | some current, (n, line) :: rest =>
    if continues current.text line then
      joinLines (some { current with text := current.text ++ ' ' :: line }) rest
    else current :: joinLines (some ⟨n, line⟩) rest

/-- Part of `logical_lines`: the trimmed lines of a text that are not blank, with their numbers. -/
def numberedLines (cs : List Char) : List (Nat × List Char) :=
  (((Text.lines cs).zipIdx 1).map fun (line, n) => (n, Text.trim line)).filter
    fun (_, line) => !line.isEmpty

/-- Model of `logical_lines`: the statements of a text. -/
def statements (cs : List Char) : List Statement :=
  joinLines none (numberedLines cs)

end CapabilityPipeline.Source
