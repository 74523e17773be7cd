import CapabilityPipeline.Json.Decode
import CapabilityPipeline.Json.Encode

/-!
# Nodes and actions

A node is a domain of capabilities, or stands for an agent. It defines actions by name and
lists guides. An action is served by the driver of its node or by a tool of a package.

Results:

* `Handler`, `Action`, `Node`: the records of the registry, read from and written as JSON.
* `Node.addGuide`: a guide is listed once.
-/

namespace CapabilityPipeline

open Json (Tree Value)

/-- What a node stands for. -/
inductive NodeKind where
  | capability
  | agent
  deriving DecidableEq, Repr

/-- Model of `ActionHandler`: who serves an action. -/
inductive Handler where
  /-- The driver of the node. -/
  | code
  /-- A tool of a package. -/
  | package (packageId tool : String)
  deriving DecidableEq, Repr

/-- Model of `package_id`: the package that serves an action, if any. -/
def Handler.packageId? : Handler → Option String
  | code => none
  | package packageId _ => some packageId

/-- Model of `ActionDescriptor`. An action: who serves it, and what it is for. -/
structure Action where
  handler : Handler
  description : String
  /-- A program text that shows the action in use. -/
  usage : Option String
  deriving DecidableEq, Repr

/-- Model of `code`: an action that the driver of its node serves. -/
def Action.code (description : String) : Action :=
  ⟨.code, description, none⟩

/-- Model of `NodeDescriptor`: a node with its actions by name and its guides in order. -/
structure Node where
  id : String
  kind : NodeKind
  description : Option String
  actions : NameMap Action
  guides : List String
  deriving DecidableEq

namespace Node

/-- Model of `new`: a node of capabilities without actions. -/
def ofId (id : String) : Node :=
  ⟨id, .capability, none, .empty, []⟩

/-- Model of `agent`: a node that stands for an agent, without actions. -/
def agent (id : String) : Node :=
  { ofId id with kind := .agent }

/-- Model of `with_action`: the node with an action set. -/
def withAction (n : Node) (name : String) (action : Action) : Node :=
  { n with actions := n.actions.insert name action }

/-- Model of `is_agent`: the node stands for an agent. -/
def isAgent (n : Node) : Bool :=
  n.kind = .agent

/-- Model of `add_guide`: the node with a guide at the end of its list, unless it is there
already. -/
def addGuide (n : Node) (guide : String) : Node :=
  if n.guides.contains guide then n else { n with guides := n.guides ++ [guide] }

/-- The node without an action. -/
def removeAction (n : Node) (name : String) : Node :=
  { n with actions := n.actions.erase name }

/-- The node without a guide. -/
def removeGuide (n : Node) (guide : String) : Node :=
  { n with guides := n.guides.filter (· ≠ guide) }

end Node

/-! ## Writing -/

/-- The word for a kind of node. -/
def NodeKind.word : NodeKind → String
  | capability => "capability"
  | agent => "agent"

/-- A handler as JSON, with its kind first. -/
def Handler.toValue : Handler → Value
  | code => .object [("kind", .string "code")]
  | package packageId tool =>
    .object [("kind", .string "package"), ("package_id", .string packageId),
      ("tool", .string tool)]

/-- An action as JSON. -/
def Action.toValue (a : Action) : Value :=
  .record [
    Json.always "handler" a.handler.toValue,
    Json.always "description" (.string a.description),
    Json.whenSome "example" .string a.usage]

/-- A node as JSON. -/
def Node.toValue (n : Node) : Value :=
  .record [
    Json.always "id" (.string n.id),
    Json.always "kind" (.string n.kind.word),
    Json.whenSome "description" .string n.description,
    Json.always "actions" (.ofMap Action.toValue n.actions),
    Json.always "guides" (.ofStrings n.guides)]

/-! ## Reading -/

/-- The shape of a handler. -/
def Handler.shape : Json.Shape :=
  .tagged "ActionHandler" "kind" [
    ⟨"code", "ActionHandler::Code", []⟩,
    ⟨"package", "ActionHandler::Package", ["package_id", "tool"]⟩]

/-- The shape of an action. -/
def Action.shape : Json.Shape :=
  .record "ActionDescriptor" [
    ("handler", Handler.shape),
    ("description", .string),
    ("example", .optional .string)]

/-- The shape of a node. -/
def Node.shape : Json.Shape :=
  .record "NodeDescriptor" [
    ("id", .string),
    ("kind", .word ["capability", "agent"]),
    ("description", .optional .string),
    ("actions", .map Action.shape),
    ("guides", .list .string)]

/-- The kind that a word stands for. -/
def NodeKind.ofTree? : Tree → Option NodeKind :=
  Tree.word? [("capability", .capability), ("agent", .agent)]

/-- The package and tool of a handler. -/
def Handler.packageOfTree? (tree : Tree) : Option Handler := do
  let r ← tree.record? ["package_id", "tool"]
  return .package (← r.required "package_id" Tree.string?) (← r.required "tool" Tree.string?)

/-- A handler of a named kind, with the rest of what is written about it. -/
def Handler.ofKind? (kind : String) (rest : Tree) : Option Handler :=
  if kind = "code" then
    match rest with
    | .array (_ :: _) => none
    | _ => some .code
  else if kind = "package" then Handler.packageOfTree? rest
  else none

/-- The handler that a tree describes: an object with one member for the kind, or an array
that starts with it. `kindOf` reads the kind. -/
def Handler.ofTreeWith? (kindOf : Tree → Option String) (tree : Tree) : Option Handler :=
  if !tree.isUsable then none
  else match tree with
    | .object members =>
      match members.filter fun m => m.1 = "kind" with
      | [(_, kind)] => do
        Handler.ofKind? (← kindOf kind) (.object (members.filter fun m => m.1 ≠ "kind"))
      | _ => none
    | .array (kind :: rest) => do Handler.ofKind? (← kindOf kind) (.array rest)
    | _ => none

/-- The handler that a tree describes. -/
def Handler.ofTree? : Tree → Option Handler :=
  Handler.ofTreeWith? Tree.string?

/-- The action that a tree describes. -/
def Action.ofTree? (tree : Tree) : Option Action := do
  let r ← tree.record? ["handler", "description", "example"]
  return {
    handler := ← r.defaulted "handler" Handler.ofTree? .code
    description := ← r.defaulted "description" Tree.string? ""
    usage := ← r.optional "example" Tree.string? }

/-- The node that a tree describes. -/
def Node.ofTree? (tree : Tree) : Option Node := do
  let r ← tree.record? ["id", "kind", "description", "actions", "guides"]
  return {
    id := ← r.defaulted "id" Tree.string? ""
    kind := ← r.defaulted "kind" NodeKind.ofTree? .capability
    description := ← r.optional "description" Tree.string?
    actions := ← r.defaulted "actions" (Tree.map? Action.ofTree?) .empty
    guides := ← r.defaulted "guides" (Tree.list? Tree.string?) [] }

end CapabilityPipeline
