/-!
# String literals and operators

Program text holds string literals between double quotes, in which a backslash makes the next
character ordinary. Statements are joined by three operators.

Results:

* `Quote.next`: where a scanner stands relative to string literals after one more character.
* `Operator.symbol`: the three operators as written.
-/

namespace CapabilityPipeline.Source

/-- Where a scanner stands relative to string literals. -/
inductive Quote where
  | outside
  | inside
  /-- Inside, just after a backslash. -/
  | escaped
  deriving DecidableEq, Repr

/-- The place after one more character. -/
def Quote.next : Quote → Char → Quote
  | outside, c => if c = '"' then inside else outside
  | inside, c => if c = '\\' then escaped else if c = '"' then outside else inside
  | escaped, _ => inside

/-- The operators between steps, loosest first. -/
inductive Operator where
  /-- Runs one group after another. -/
  | sequence
  /-- Runs branches side by side. -/
  | parallel
  /-- Runs branches until one succeeds. -/
  | fallback
  deriving DecidableEq, Repr

namespace Operator

/-- An operator as written. -/
def symbol : Operator → List Char
  | sequence => ['>', '>']
  | parallel => ['&']
  | fallback => ['?', '?']

/-- An operator as written. -/
def text (op : Operator) : String :=
  String.ofList op.symbol

/-- Model of `CONTINUATION_OPERATORS`: all operators, loosest first. -/
def all : List Operator :=
  [sequence, parallel, fallback]

end Operator

end CapabilityPipeline.Source
