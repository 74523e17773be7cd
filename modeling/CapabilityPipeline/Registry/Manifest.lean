import CapabilityPipeline.Json.Reader
import CapabilityPipeline.Numbers.Word
import CapabilityPipeline.Registry.Node

/-!
# Package manifests

A manifest names the actions and guides that a package contributes, to one node or to several,
and possibly a command that serves its tools.

Results:

* `Manifest.contributions`: what a manifest contributes, node by node.
* `ManifestAction.toAction`: the action that a package contributes.
* `Manifest.read`: the manifest that a text holds.
-/

namespace CapabilityPipeline

open Json (Tree Value)
open Text (Symbol)

/-- An action as a package declares it. -/
structure ManifestAction where
  description : String
  usage : Option String
  /-- The tool that serves it. Without one its name is that of the action. -/
  tool : Option String
  /-- Who serves it, if not a tool of the package. -/
  handler : Option Handler
  deriving DecidableEq, Repr

/-- Model of `to_descriptor`: the action that a package contributes under a name. -/
def ManifestAction.toAction (a : ManifestAction) (packageId name : String) : Action :=
  ⟨a.handler.getD (.package packageId (a.tool.getD name)), a.description, a.usage⟩

/-- Model of `ManifestNode`: what a package contributes to a node. -/
structure Contribution where
  actions : NameMap ManifestAction
  guides : List String
  deriving DecidableEq

/-- Model of `ActionManifest`: what a package contributes, and the command that serves its tools. -/
inductive Manifest where
  | multi (nodes : NameMap Contribution) (command : Option String)
  | single (node : String) (contribution : Contribution) (command : Option String)
  deriving DecidableEq

namespace Manifest

/-- Model of `into_nodes`: contributions with their nodes, in order. -/
def contributions : Manifest → List (String × Contribution)
  | multi nodes _ => nodes.entries
  | single node contribution _ => [(node, contribution)]

/-- Model of `command`: the command that serves the tools. -/
def command : Manifest → Option String
  | multi _ command => command
  | single _ _ command => command

/-- Model of `is_empty`: no action is contributed to any node. -/
def isEmpty (m : Manifest) : Bool :=
  m.contributions.all fun (_, contribution) => contribution.actions.isEmpty

/-- The manifest has the form for several nodes. -/
def isMulti : Manifest → Bool
  | multi _ _ => true
  | single _ _ _ => false

end Manifest

/-! ## Reading -/

/-- The kind of a handler in a manifest: its word or its number. -/
def Handler.kindInManifest? : Tree → Option String
  | .string kind => some kind
  | tree =>
    match tree.nat? wordLimit64 with
    | some 0 => some "code"
    | some 1 => some "package"
    | _ => none

/-- The declared action that a tree describes. -/
def ManifestAction.ofTree? (tree : Tree) : Option ManifestAction := do
  let r ← tree.record? ["description", "example", "tool", "handler"]
  return {
    description := ← r.defaulted "description" Tree.string? ""
    usage := ← r.optional "example" Tree.string?
    tool := ← r.optional "tool" Tree.string?
    handler := ← r.optional "handler" (Handler.ofTreeWith? Handler.kindInManifest?) }

/-- The contribution that a tree describes. -/
def Contribution.ofTree? (tree : Tree) : Option Contribution := do
  let r ← tree.record? ["actions", "guides"]
  return {
    actions := ← r.defaulted "actions" (Tree.map? ManifestAction.ofTree?) .empty
    guides := ← r.defaulted "guides" (Tree.list? Tree.string?) [] }

namespace Manifest

/-- The manifest for several nodes that a tree describes. -/
def multiOfTree? (tree : Tree) : Option Manifest := do
  let r ← tree.record? ["nodes", "command"]
  return .multi (← r.required "nodes" (Tree.map? Contribution.ofTree?))
    (← r.optional "command" Tree.string?)

/-- The manifest for one node that a tree describes. -/
def singleOfTree? (tree : Tree) : Option Manifest := do
  let r ← tree.record? ["node", "actions", "guides", "command"]
  return .single (← r.required "node" Tree.string?)
    ⟨← r.defaulted "actions" (Tree.map? ManifestAction.ofTree?) .empty,
      ← r.defaulted "guides" (Tree.list? Tree.string?) []⟩
    (← r.optional "command" Tree.string?)

/-- The manifest that a tree describes. The form for several nodes is tried first, and neither
may be written as an array. -/
def ofTree? (tree : Tree) : Option Manifest :=
  match tree with
  | .object _ =>
    match multiOfTree? tree with
    | some m => some m
    | none => singleOfTree? tree
  | _ => none

/-- The manifest that a text holds. All of the text is read strictly. -/
def read (text : List Symbol) : Except Json.DataError Manifest :=
  match Tree.read text with
  | .error fault => .error (.malformed fault)
  | .ok tree =>
    match ofTree? tree with
    | some m => .ok m
    | none => .error (.noVariant "ActionManifest")

end Manifest

/-! ## Writing -/

/-- A declared action as JSON. -/
def ManifestAction.toValue (a : ManifestAction) : Value :=
  .record [
    Json.always "description" (.string a.description),
    Json.whenSome "example" .string a.usage,
    Json.whenSome "tool" .string a.tool,
    Json.whenSome "handler" Handler.toValue a.handler]

/-- A contribution as JSON. -/
def Contribution.toValue (c : Contribution) : Value :=
  .record [
    Json.always "actions" (.ofMap ManifestAction.toValue c.actions),
    Json.always "guides" (.ofStrings c.guides)]

/-- A manifest as JSON. -/
def Manifest.toValue : Manifest → Value
  | multi nodes command =>
    .record [
      Json.always "nodes" (.ofMap Contribution.toValue nodes),
      Json.whenSome "command" .string command]
  | single node c command =>
    .record [
      Json.always "node" (.string node),
      Json.always "actions" (.ofMap ManifestAction.toValue c.actions),
      Json.always "guides" (.ofStrings c.guides),
      Json.whenSome "command" .string command]

end CapabilityPipeline
