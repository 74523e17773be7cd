import CapabilityPipeline.Json.Decode
import CapabilityPipeline.Json.Encode

/-!
# Execution contexts

A context says who runs a program and which nodes the run may use.

Results:

* `Context.allows`: a node may be used.
-/

namespace CapabilityPipeline

open Json (Tree Value)

/-- Model of `ExecutionContext`: who runs a program, and which nodes it may use. -/
structure Context where
  runId : String
  agentId : Option String
  taskId : Option String
  /-- The only nodes that may be used, when given. -/
  allowedNodes : Option NameSet
  deriving DecidableEq

namespace Context

/-- The context of a run without restrictions. -/
def ofRun (runId : String) : Context :=
  ⟨runId, none, none, none⟩

/-- Model of `allows`: a node may be used. -/
def allows (c : Context) (node : String) : Bool :=
  match c.allowedNodes with
  | none => true
  | some nodes => nodes.contains node

/-- A context as JSON. -/
def toValue (c : Context) : Value :=
  .record [
    Json.always "run_id" (.string c.runId),
    Json.whenSome "agent_id" .string c.agentId,
    Json.whenSome "task_id" .string c.taskId,
    Json.whenSome "allowed_nodes" .ofNameSet c.allowedNodes]

/-- The context that a tree describes. -/
def ofTree? (tree : Tree) : Option Context := do
  let r ← tree.record? ["run_id", "agent_id", "task_id", "allowed_nodes"]
  return {
    runId := ← r.required "run_id" Tree.string?
    agentId := ← r.optional "agent_id" Tree.string?
    taskId := ← r.optional "task_id" Tree.string?
    allowedNodes := ← r.optional "allowed_nodes" Tree.nameSet? }

end Context

end CapabilityPipeline
