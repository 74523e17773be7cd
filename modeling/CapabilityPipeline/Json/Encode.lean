import CapabilityPipeline.Json.Value
import CapabilityPipeline.Names.Map

/-!
# Writing data as JSON

Data is written as values: a record as an object of its fields in order, a map as an object in
the order of its names, a list as an array.

Results:

* `Value.record`, `Value.ofMap`, `Value.ofList`: the three containers.
* `always`, `whenSome`: members that are written always or only when present.
-/

namespace CapabilityPipeline.Json

variable {α : Type}

/-- A member that is always written. -/
def always (name : String) (value : Value) : Option (String × Value) :=
  some (name, value)

/-- A member that is written only when there is something to write. -/
def whenSome (name : String) (value : α → Value) (part : Option α) : Option (String × Value) :=
  part.map fun a => (name, value a)

namespace Value

/-- The object of those members that are written. -/
def record (members : List (Option (String × Value))) : Value :=
  .object (members.filterMap id)

/-- The object of a map, in the order of its names. -/
def ofMap (value : α → Value) (m : NameMap α) : Value :=
  .object (m.entries.map fun e => (e.1, value e.2))

/-- The array of a list. -/
def ofList (value : α → Value) (items : List α) : Value :=
  .array (items.map value)

/-- The array of a list of strings. -/
def ofStrings (items : List String) : Value :=
  ofList .string items

/-- The array of a set of names, in their order. -/
def ofNameSet (names : NameSet) : Value :=
  ofStrings names.keys

end Value

end CapabilityPipeline.Json
