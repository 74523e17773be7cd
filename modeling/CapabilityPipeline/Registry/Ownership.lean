import CapabilityPipeline.Json.Decode
import CapabilityPipeline.Json.Encode

/-!
# Ownership

The registry records which package contributed each action, and which packages contributed
each guide. A guide on a node that no package holds belongs to the node itself.

Results:

* `Provenance`: the owner of an action of a node, with `owner?`, `record`, `remove`, `ownedBy`.
* `GuideOwners`: the holders of a guide of a node, with `isOwned`, `record`, `heldAlone`, `drop`.
-/

namespace CapabilityPipeline

open Json (Tree Value)

/-! ## Actions -/

/-- Model of `ProvenanceTable`: the package that contributed each action, by node and action. -/
structure Provenance where
  table : NameMap (NameMap String)
  deriving DecidableEq

namespace Provenance

/-- No action has an owner. -/
def empty : Provenance := ⟨.empty⟩

/-- Model of `owner`: the owner of an action. -/
def owner? (p : Provenance) (node action : String) : Option String :=
  (p.table.get? node).bind fun actions => actions.get? action

/-- Model of `record`: the table with an owner recorded. -/
def record (p : Provenance) (node action packageId : String) : Provenance :=
  let actions := (p.table.get? node).getD .empty
  ⟨p.table.insert node (actions.insert action packageId)⟩

/-- Model of `remove`: the table without an entry. A node without entries is dropped. -/
def remove (p : Provenance) (node action : String) : Provenance :=
  match p.table.get? node with
  | none => p
  | some actions =>
    let others := actions.erase action
    if others.isEmpty then ⟨p.table.erase node⟩ else ⟨p.table.insert node others⟩

/-- Model of `entries`: node, action and owner of every entry, in order. -/
def entries (p : Provenance) : List (String × String × String) :=
  p.table.entries.flatMap fun (node, actions) =>
    actions.entries.map fun (action, packageId) => (node, action, packageId)

/-- Model of `owned_by`: node and action of every entry of a package, in order. -/
def ownedBy (p : Provenance) (packageId : String) : List (String × String) :=
  (p.entries.filter fun (_, _, owner) => owner = packageId).map fun (node, action, _) =>
    (node, action)

/-- Model of `len`: number of entries. -/
def size (p : Provenance) : Nat :=
  p.table.values.foldr (fun actions n => actions.size + n) 0

/-- Model of `is_empty`: the table has no node. -/
def isEmpty (p : Provenance) : Bool :=
  p.table.isEmpty

/-- The table as JSON. -/
def toValue (p : Provenance) : Value :=
  .ofMap (.ofMap .string) p.table

/-- The shape of a table of owners. -/
def shape : Json.Shape :=
  .map (.map .string)

/-- The table that a tree describes. -/
def ofTree? (tree : Tree) : Option Provenance :=
  (tree.map? (Tree.map? Tree.string?)).map Provenance.mk

end Provenance

/-! ## Guides -/

/-- The packages that contributed each guide, by node and guide. -/
structure GuideOwners where
  table : NameMap (NameMap NameSet)
  deriving DecidableEq

namespace GuideOwners

/-- No guide has a holder. -/
def empty : GuideOwners := ⟨.empty⟩

/-- The packages that hold a guide. -/
def holders (g : GuideOwners) (node guide : String) : NameSet :=
  ((g.table.get? node).bind fun guides => guides.get? guide).getD .empty

/-- Model of `is_owned`: the table has an entry for the guide. -/
def isOwned (g : GuideOwners) (node guide : String) : Bool :=
  ((g.table.get? node).bind fun guides => guides.get? guide).isSome

/-- Model of `record`: the table with a holder recorded. -/
def record (g : GuideOwners) (node guide packageId : String) : GuideOwners :=
  let guides := (g.table.get? node).getD .empty
  let holders := (guides.get? guide).getD .empty
  ⟨g.table.insert node (guides.insert guide (holders.add packageId))⟩

/-- The table after `release`: the table without a package. Guides without holders and nodes without
guides are dropped. -/
def drop (g : GuideOwners) (packageId : String) : GuideOwners :=
  let remaining := g.table.mapValues fun _ guides =>
    (guides.mapValues fun _ holders => holders.erase packageId).filter fun _ holders =>
      !holders.isEmpty
  ⟨remaining.filter fun _ guides => !guides.isEmpty⟩

/-- The result of `release`: node and guide of every entry that a package holds alone, in order. -/
def heldAlone (g : GuideOwners) (packageId : String) : List (String × String) :=
  g.table.entries.flatMap fun (node, guides) =>
    (guides.entries.filter fun (_, holders) =>
      holders.contains packageId && (holders.erase packageId).isEmpty).map fun (guide, _) =>
        (node, guide)

/-- Model of `is_empty`: the table has no node. -/
def isEmpty (g : GuideOwners) : Bool :=
  g.table.isEmpty

/-- The table as JSON. -/
def toValue (g : GuideOwners) : Value :=
  .ofMap (.ofMap .ofNameSet) g.table

/-- The shape of a table of guide holders. -/
def shape : Json.Shape :=
  .map (.map (.list .string))

/-- The table that a tree describes. -/
def ofTree? (tree : Tree) : Option GuideOwners :=
  (tree.map? (Tree.map? Tree.nameSet?)).map GuideOwners.mk

end GuideOwners

end CapabilityPipeline
