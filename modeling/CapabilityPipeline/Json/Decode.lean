import CapabilityPipeline.Json.Diagnosis
import CapabilityPipeline.Json.Reader
import CapabilityPipeline.Names.Map

/-!
# Reading data from JSON

Data of a known shape is read from a tree. A record may be written as an object, whose unknown
members are skipped and whose known members occur at most once, or as an array of its fields
in order. An absent part is written as null.

Results:

* `Tree.string?`, `Tree.nat?`, `Tree.list?`, `Tree.map?` and their like: the plain shapes.
* `Tree.record?` with `Record.required`, `Record.optional`, `Record.defaulted`: records.
* `read?`, `decode`: data that a whole text holds, and what is wrong with a text without.
-/

namespace CapabilityPipeline.Json

open Text (Symbol)

namespace Tree

variable {α : Type}

/-! ## Plain shapes -/

/-- A string. -/
def string? : Tree → Option String
  | string s => some s
  | _ => none

/-- True or false. -/
def bool? : Tree → Option Bool
  | bool b => some b
  | _ => none

/-- An integer from zero below a limit. -/
def nat? (limit : Nat) : Tree → Option Nat
  | number (.integer value _) =>
    if 0 ≤ value ∧ value < limit then some value.toNat else none
  | _ => none

/-- Any value without unusable parts. -/
def value? (tree : Tree) : Option Value :=
  if tree.isUsable then some tree.toValue else none

/-- An object, as its members with repeated names merged. -/
def object? (tree : Tree) : Option Object :=
  match tree.value? with
  | some (.object members) => some members
  | _ => none

/-- An optional part. -/
def option? (read : Tree → Option α) : Tree → Option (Option α)
  | null => some none
  | tree => (read tree).map some

/-- A list of parts. -/
def list? (read : Tree → Option α) : Tree → Option (List α)
  | array items => items.mapM read
  | _ => none

/-- A map from names to parts. Of entries with one name the last one counts. -/
def map? (read : Tree → Option α) : Tree → Option (NameMap α)
  | object members =>
    (members.mapM fun m => (read m.2).map fun part => (m.1, part)).map NameMap.ofList
  | _ => none

/-- A set of names, written as a list. -/
def nameSet? (tree : Tree) : Option NameSet :=
  (tree.list? string?).map NameSet.ofNames

/-- One of several words. A word may also be written as an object that maps it to null. -/
def word? (words : List (String × α)) : Tree → Option α
  | string s => words.lookup s
  | object [(s, null)] => words.lookup s
  | _ => none

/-! ## Records -/

/-- The fields of a record as far as they are written. -/
structure Record where
  /-- The record is written as an array. -/
  positional : Bool
  fields : List (String × Tree)

/-- The record with fields of the given names, in order. -/
def record? (names : List String) : Tree → Option Record
  | object members =>
    let known := members.filter fun m => names.contains m.1
    if (known.map Prod.fst).Nodup then some ⟨false, known⟩ else none
  | array items =>
    if items.length ≤ names.length then some ⟨true, names.zip items⟩ else none
  | _ => none

namespace Record

/-- A field that must be written. -/
def required (r : Record) (name : String) (read : Tree → Option α) : Option α := do
  read (← r.fields.lookup name)

/-- A field with a value of its own when it is not written. -/
def defaulted (r : Record) (name : String) (read : Tree → Option α) (absent : α) : Option α :=
  match r.fields.lookup name with
  | some tree => read tree
  | none => some absent

/-- A field that may be absent. -/
def optional (r : Record) (name : String) (read : Tree → Option α) : Option (Option α) :=
  r.defaulted name (option? read) none

/-- A field that may be absent from an object, but keeps its place in an array. -/
def nullable (r : Record) (name : String) (read : Tree → Option α) : Option (Option α) :=
  match r.fields.lookup name with
  | some tree => option? read tree
  | none => if r.positional then none else some none

end Record

end Tree

/-! ## Whole texts -/

variable {α : Type}

/-- The data of a text, if there is any. -/
def read? (read : Tree → Option α) (text : List Symbol) : Option α :=
  match Tree.readLenient text with
  | .ok tree => read tree
  | .error _ => none

/-- The data of a text that is expected to have a shape, or the first thing that is wrong with
the text. -/
def decode (shape : Shape) (read : Tree → Option α) (text : List Symbol) : Except DataError α :=
  match read? read text with
  | some a => .ok a
  | none => .error (shape.diagnose text)

end CapabilityPipeline.Json
