import CapabilityPipeline.Json.Printer
import CapabilityPipeline.Json.Fault
import CapabilityPipeline.Text.Quoted

/-!
# Shapes of data

A shape says what a text is expected to hold, and a mismatch how a text that is JSON falls short
of it. Both serve to say what is wrong with a text from which no data could be read.

Results:

* `Shape`: what can be expected.
* `Mismatch.message`: the wording of each mismatch.
* `DataError`: why no data can be read from a text.
-/

namespace CapabilityPipeline.Json

/-- One of the kinds of a record that begins with a kind. -/
structure KindShape where
  /-- The word for the kind. -/
  word : String
  /-- The kind in words. -/
  title : String
  /-- Its fields, which are strings. -/
  fields : List String
  deriving DecidableEq, Repr

/-- What a text is expected to hold. -/
inductive Shape where
  | string
  | boolean
  /-- An integer from zero of 64 bits. -/
  | natural
  | optional (part : Shape)
  | list (item : Shape)
  | map (part : Shape)
  /-- One of several words. -/
  | word (words : List String)
  /-- Fields, of which any may be left out. -/
  | record (title : String) (fields : List (String × Shape))
  /-- A kind, under the name of a tag, and the fields of that kind. -/
  | tagged (title tag : String) (kinds : List KindShape)

/-- What a text holds instead. -/
inductive Found where
  | null
  | boolean (value : Bool)
  | number (value : Number)
  | string (value : String)
  | sequence
  | map
  deriving DecidableEq

/-- How a text falls short of a shape. -/
inductive Mismatch where
  | type (found : Found) (expected : String)
  | value (found : Found) (expected : String)
  | unknownWord (word : String) (expected : List String)
  | repeatedField (name : String)
  | missingField (name : String)
  | length (found : Nat) (expected : String)
  deriving DecidableEq

/-- What a text holds, in words. -/
def Found.describe : Found → String
  | null => "null"
  | boolean value => s!"boolean `{value}`"
  | number (.integer value _) => s!"integer `{value}`"
  | number (.double value) =>
    let digits := String.ofList (doubleText value)
    s!"floating point `{digits}`"
  | string value => "string " ++ Text.quoted value
  | sequence => "sequence"
  | map => "map"

/-- Words to choose from, in words. -/
def choice (words : List String) : String :=
  match words.map fun word => s!"`{word}`" with
  | [a, b] => a ++ " or " ++ b
  | [a] => a
  | many => "one of " ++ ", ".intercalate many

/-- The wording of a mismatch. -/
def Mismatch.message : Mismatch → String
  | type found expected => s!"invalid type: {found.describe}, expected {expected}"
  | value found expected => s!"invalid value: {found.describe}, expected {expected}"
  | unknownWord word expected => s!"unknown variant `{word}`, expected {choice expected}"
  | repeatedField name => s!"duplicate field `{name}`"
  | missingField name => s!"missing field `{name}`"
  | length found expected => s!"invalid length {found}, expected {expected}"

/-- Why no data can be read from a text. -/
inductive DataError where
  /-- The text is no JSON. -/
  | malformed (fault : Located)
  /-- The text does not have the expected shape. -/
  | mismatch (cause : Mismatch) (line column : Nat)
  /-- The text has none of several shapes. -/
  | noVariant (title : String)
  deriving DecidableEq

/-- The wording of a data error. -/
def DataError.message : DataError → String
  | malformed fault => fault.message
  | .mismatch m line column => s!"{m.message} at line {line} column {column}"
  | noVariant title => s!"data did not match any variant of untagged enum {title}"

end CapabilityPipeline.Json
