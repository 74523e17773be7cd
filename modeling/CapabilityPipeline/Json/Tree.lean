import CapabilityPipeline.Json.Value

/-!
# JSON as written

A tree keeps what the text of a value says: all members of an object, repeated names included.
Where only some parts of a text are wanted, a part that can be skipped but not read, such as a
number out of range, is kept as unusable.

Results:

* `Tree.toValue`: the value of a tree. Of members with one name the last one counts, at the
  place of the first.
* `Tree.isUsable`: no part is unusable.
* `Tree.ofValue`: the tree that a value would be read from.
-/

namespace CapabilityPipeline.Json

/-- The text of a value, read. -/
inductive Tree where
  | null
  | bool (value : Bool)
  | number (value : Number)
  | string (value : String)
  | array (items : List Tree)
  | object (members : List (String × Tree))
  | unusable

instance : Inhabited Tree := ⟨.null⟩

namespace Tree

mutual

/-- The value of a tree. Unusable parts count as null. -/
def toValue : Tree → Value
  | null => .null
  | bool b => .bool b
  | number n => .number n
  | string s => .string s
  | array items => .array (itemValues items)
  | object members => .object (Object.ofMembers (memberValues members))
  | unusable => .null

/-- The values of items. -/
def itemValues : List Tree → List Value
  | [] => []
  | item :: rest => toValue item :: itemValues rest

/-- The values of members, repeated names included. -/
def memberValues : List (String × Tree) → List (String × Value)
  | [] => []
  | (name, tree) :: rest => (name, toValue tree) :: memberValues rest

end

mutual

/-- No part of the tree is unusable. -/
def isUsable : Tree → Bool
  | array items => itemsUsable items
  | object members => membersUsable members
  | unusable => false
  | _ => true

/-- No part of any item is unusable. -/
def itemsUsable : List Tree → Bool
  | [] => true
  | item :: rest => isUsable item && itemsUsable rest

/-- No part of any member is unusable. -/
def membersUsable : List (String × Tree) → Bool
  | [] => true
  | (_, tree) :: rest => isUsable tree && membersUsable rest

end

mutual

/-- The tree of a value. -/
def ofValue : Value → Tree
  | .null => null
  | .bool b => bool b
  | .number n => number n
  | .string s => string s
  | .array items => array (ofItems items)
  | .object members => object (ofMembers members)

/-- The trees of items. -/
def ofItems : List Value → List Tree
  | [] => []
  | item :: rest => ofValue item :: ofItems rest

/-- The trees of members. -/
def ofMembers : List (String × Value) → List (String × Tree)
  | [] => []
  | (name, value) :: rest => (name, ofValue value) :: ofMembers rest

end

end Tree

end CapabilityPipeline.Json
