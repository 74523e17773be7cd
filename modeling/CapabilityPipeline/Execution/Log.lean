import CapabilityPipeline.Json.Decode
import CapabilityPipeline.Json.Encode
import CapabilityPipeline.Numbers.Word

/-!
# Execution logs

The log of a run has one entry for each group that was run and one for each binding that was
evaluated, in the order in which they ended.

Results:

* `LogEntry`, `ExecutionLog`: the log, read from and written as JSON.
* `ExecutionLog.start`, `ExecutionLog.finish`: its life.
-/

namespace CapabilityPipeline

open Json (Tree Value)

/-- Model of `ExecutionLogEntry`: a group that was run, or a binding that was evaluated. -/
structure LogEntry where
  /-- Position in the log, counted from one. -/
  seq : Nat
  /-- The pipeline of a group. -/
  pipeline : Option Nat
  /-- The place of a group in its pipeline. -/
  group : Option Nat
  /-- The kind of group, or the word for a binding. -/
  kind : String
  /-- The text of a group, or the variable of a binding. -/
  label : String
  success : Bool
  summary : Option String
  error : Option String
  startedAt : String
  durationMs : Nat
  deriving DecidableEq, Repr

/-- The account of one run. -/
structure ExecutionLog where
  version : Nat
  runId : String
  agentId : Option String
  startedAt : String
  finishedAt : Option String
  finalStatus : String
  entries : List LogEntry
  deriving DecidableEq, Repr

namespace ExecutionLog

/-- Model of `start`: the log of a run that starts at a time. -/
def start (runId : String) (agentId : Option String) (time : String) : ExecutionLog :=
  ⟨1, runId, agentId, time, none, "running", []⟩

/-- Model of `finish`: the log of a run that ends at a time with an outcome. -/
def finish (log : ExecutionLog) (success : Bool) (time : String) : ExecutionLog :=
  { log with
    finishedAt := some time
    finalStatus := if success then "success" else "failed" }

end ExecutionLog

/-! ## Writing -/

/-- A log entry as JSON. Absent parts are written as null. -/
def LogEntry.toValue (e : LogEntry) : Value :=
  .object [
    ("seq", .ofNat e.seq),
    ("pipeline", .ofOption .ofNat e.pipeline),
    ("group", .ofOption .ofNat e.group),
    ("kind", .string e.kind),
    ("label", .string e.label),
    ("success", .bool e.success),
    ("summary", .ofOption .string e.summary),
    ("error", .ofOption .string e.error),
    ("started_at", .string e.startedAt),
    ("duration_ms", .ofNat e.durationMs)]

/-- A log as JSON. Absent parts are written as null. -/
def ExecutionLog.toValue (log : ExecutionLog) : Value :=
  .object [
    ("version", .ofNat log.version),
    ("run_id", .string log.runId),
    ("agent_id", .ofOption .string log.agentId),
    ("started_at", .string log.startedAt),
    ("finished_at", .ofOption .string log.finishedAt),
    ("final_status", .string log.finalStatus),
    ("entries", .ofList LogEntry.toValue log.entries)]

/-! ## Reading -/

/-- The log entry that a tree describes. -/
def LogEntry.ofTree? (tree : Tree) : Option LogEntry := do
  let r ← tree.record? ["seq", "pipeline", "group", "kind", "label", "success", "summary",
    "error", "started_at", "duration_ms"]
  return {
    seq := ← r.required "seq" (Tree.nat? wordLimit32)
    pipeline := ← r.nullable "pipeline" (Tree.nat? wordLimit64)
    group := ← r.nullable "group" (Tree.nat? wordLimit64)
    kind := ← r.required "kind" Tree.string?
    label := ← r.required "label" Tree.string?
    success := ← r.required "success" Tree.bool?
    summary := ← r.nullable "summary" Tree.string?
    error := ← r.nullable "error" Tree.string?
    startedAt := ← r.required "started_at" Tree.string?
    durationMs := ← r.required "duration_ms" (Tree.nat? wordLimit64) }

/-- The log that a tree describes. -/
def ExecutionLog.ofTree? (tree : Tree) : Option ExecutionLog := do
  let r ← tree.record? ["version", "run_id", "agent_id", "started_at", "finished_at",
    "final_status", "entries"]
  return {
    version := ← r.required "version" (Tree.nat? wordLimit32)
    runId := ← r.required "run_id" Tree.string?
    agentId := ← r.nullable "agent_id" Tree.string?
    startedAt := ← r.required "started_at" Tree.string?
    finishedAt := ← r.nullable "finished_at" Tree.string?
    finalStatus := ← r.required "final_status" Tree.string?
    entries := ← r.required "entries" (Tree.list? LogEntry.ofTree?) }

end CapabilityPipeline
