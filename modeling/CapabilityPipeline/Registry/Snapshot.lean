import CapabilityPipeline.Registry.Node
import CapabilityPipeline.Registry.Ownership

/-!
# Snapshots of the registry

A snapshot is one consistent view of the nodes and of who owns their actions.

Results:

* `Snapshot.route`: the action that a step asks for, or why there is none.
* `Snapshot.violations`: where nodes and ownership disagree.
-/

namespace CapabilityPipeline

/-- A node or an action that the registry does not know. -/
inductive LookupError where
  | unknownNode (node : String)
  | unknownAction (node action : String)
  deriving DecidableEq, Repr

/-- The wording of a failed look-up. -/
def LookupError.message : LookupError → String
  | unknownNode node => s!"unknown node '{node}'"
  | unknownAction node action => s!"unknown action '{action}' on node '{node}'"

/-- Model of `RegistrySnapshot`: nodes by id, with the owners of their actions. -/
structure Snapshot where
  nodes : NameMap Node
  provenance : Provenance
  deriving DecidableEq

/-- A place where nodes and ownership disagree. -/
inductive Violation where
  /-- An owner is recorded for an action that is not defined. -/
  | undefinedAction (node action packageId : String)
  /-- A package serves an action and is not recorded as its owner. -/
  | unrecordedOwner (node action packageId : String)
  deriving DecidableEq, Repr

/-- The wording of a violation. -/
def Violation.message : Violation → String
  | undefinedAction node action packageId =>
    s!"provenance entry {node}:{action} -> {packageId} has no action definition"
  | unrecordedOwner node action packageId =>
    s!"action {node}:{action} is handled by package {packageId} " ++
      "without a matching provenance entry"

namespace Snapshot

/-- A snapshot without nodes. -/
def empty : Snapshot := ⟨.empty, .empty⟩

/-- Model of `new`: the snapshot of nodes that no package has contributed to. A later node replaces
an earlier one of the same id. -/
def ofNodes (nodes : List Node) : Snapshot :=
  ⟨NameMap.ofList (nodes.map fun n => (n.id, n)), .empty⟩

/-- Model of `route`: the action of a domain. -/
def route (s : Snapshot) (domain action : String) : Except LookupError Action :=
  match s.nodes.get? domain with
  | none => .error (.unknownNode domain)
  | some node =>
    match node.actions.get? action with
    | none => .error (.unknownAction domain action)
    | some found => .ok found

/-- Model of `get_node`: the node of an id. -/
def node (s : Snapshot) (id : String) : Except LookupError Node :=
  match s.nodes.get? id with
  | none => .error (.unknownNode id)
  | some node => .ok node

/-- Model of `list_nodes`: the nodes in the order of their ids, agents among them only if wanted. -/
def list (s : Snapshot) (agents : Bool) : List Node :=
  s.nodes.values.filter fun n => agents || !n.isAgent

/-- Model of `package_ids`: the packages that serve some action. -/
def packages (s : Snapshot) : NameSet :=
  NameSet.ofNames (s.nodes.values.flatMap fun n =>
    n.actions.values.filterMap fun a => a.handler.packageId?)

/-- Model of `provenance_violations`: the places where nodes and ownership disagree, those of
ownership first. -/
def violations (s : Snapshot) : List Violation :=
  let undefined := s.provenance.entries.filterMap fun (node, action, packageId) =>
    match s.route node action with
    | .ok _ => none
    | .error _ => some (.undefinedAction node action packageId)
  let unrecorded := s.nodes.entries.flatMap fun (id, node) =>
    node.actions.entries.filterMap fun (name, action) =>
      match action.handler.packageId? with
      | none => none
      | some packageId =>
        if s.provenance.owner? id name = some packageId then none
        else some (.unrecordedOwner id name packageId)
  undefined ++ unrecorded

end Snapshot

end CapabilityPipeline
