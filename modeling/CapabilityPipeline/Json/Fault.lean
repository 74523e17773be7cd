import CapabilityPipeline.Text.Symbol

/-!
# What can be wrong with a JSON text

A fault is a cause together with what was left of the text when it was found. From the whole
text and the rest follows the position: the line, and the number of bytes read on that line.

Results:

* `Cause.message`: the wording of each cause.
* `Fault.located`: the cause with its line and column.
-/

namespace CapabilityPipeline.Json

open Text (Symbol)

/-- Why a text is no JSON. -/
inductive Cause where
  | endInValue
  | endInString
  | endInList
  | endInObject
  | expectedColon
  | expectedListEnd
  | expectedObjectEnd
  | expectedIdent
  | expectedValue
  | invalidEscape
  | invalidNumber
  | numberOutOfRange
  | invalidCodePoint
  | controlCharacter
  | keyNotString
  | loneSurrogate
  | trailingComma
  | trailingCharacters
  | unexpectedEndOfEscape
  | nestedTooDeep
  deriving DecidableEq, Repr

/-- The wording of a cause. -/
def Cause.message : Cause → String
  | endInValue => "EOF while parsing a value"
  | endInString => "EOF while parsing a string"
  | endInList => "EOF while parsing a list"
  | endInObject => "EOF while parsing an object"
  | expectedColon => "expected `:`"
  | expectedListEnd => "expected `,` or `]`"
  | expectedObjectEnd => "expected `,` or `\x7d`"
  | expectedIdent => "expected ident"
  | expectedValue => "expected value"
  | invalidEscape => "invalid escape"
  | invalidNumber => "invalid number"
  | numberOutOfRange => "number out of range"
  | invalidCodePoint => "invalid unicode code point"
  | controlCharacter => "control character (\\u0000-\\u001F) found while parsing a string"
  | keyNotString => "key must be a string"
  | loneSurrogate => "lone leading surrogate in hex escape"
  | trailingComma => "trailing comma"
  | trailingCharacters => "trailing characters"
  | unexpectedEndOfEscape => "unexpected end of hex escape"
  | nestedTooDeep => "recursion limit exceeded"

/-- A cause, what was left of the text, and how many bytes of the next symbol count as read. -/
structure Fault where
  cause : Cause
  rest : List Symbol
  extra : Nat
  deriving DecidableEq, Repr

/-- A cause with its position. -/
structure Located where
  cause : Cause
  line : Nat
  column : Nat
  deriving DecidableEq, Repr

/-- The wording of a cause with its position. -/
def Located.message (e : Located) : String :=
  s!"{e.cause.message} at line {e.line} column {e.column}"

namespace Fault

/-- A fault found after what was read. -/
def here {α : Type} (cause : Cause) (rest : List Symbol) : Except Fault α :=
  .error ⟨cause, rest, 0⟩

/-- A fault of which some bytes are still to be counted as read. -/
def after (cause : Cause) : (bytes : Nat) → List Symbol → Fault
  | 0, rest => ⟨cause, rest, 0⟩
  | _, [] => ⟨cause, [], 0⟩
  | bytes + 1, s :: rest =>
    if s.size ≤ bytes + 1 then after cause (bytes + 1 - s.size) rest
    else ⟨cause, s :: rest, bytes + 1⟩
termination_by _ rest => rest.length

/-- A fault at the next byte, which counts as read if there is one. -/
def peeked {α : Type} (cause : Cause) (rest : List Symbol) : Except Fault α :=
  .error (after cause 1 rest)

/-- Line and column after some symbols, counted from given ones. -/
def positionAfter : (line column : Nat) → List Symbol → Nat × Nat
  | line, column, [] => (line, column)
  | line, column, s :: rest =>
    if s = .char '\n' then positionAfter (line + 1) 0 rest
    else positionAfter line (column + s.size) rest

/-- The fault with its position in the whole text. -/
def located (fault : Fault) (text : List Symbol) : Located :=
  let (line, column) := positionAfter 1 0 (text.take (text.length - fault.rest.length))
  ⟨fault.cause, line, column + fault.extra⟩

end Fault

end CapabilityPipeline.Json
