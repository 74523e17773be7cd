import CapabilityPipeline.Execution.Log
import CapabilityPipeline.Files.Tree
import CapabilityPipeline.Json.Printer

/-!
# Log files

A log is kept in a file of its own, as indented JSON.

Results:

* `ExecutionLog.load`, `ExecutionLog.save`: the log of a file, and a file with the log.
-/

namespace CapabilityPipeline

open Text (Symbol)

/-- Why a log cannot be read. -/
inductive LogFileError where
  | io (error : FileError)
  | noLog
  deriving DecidableEq, Repr

/-- The wording of a log that cannot be read. -/
def LogFileError.message : LogFileError → String
  | io error => error.message
  | noLog => "the file holds no log"

namespace ExecutionLog

/-- Model of `load_execution_log`: the log that a file holds. -/
def load (files : FileTree) (path : String) : Except LogFileError ExecutionLog :=
  match files.read path with
  | .error e => .error (.io e)
  | .ok content => (Json.read? ofTree? content).elim (.error .noLog) .ok

/-- Model of `write_execution_log`: the tree with a log written to a file, in a directory that is
made if it is missing. -/
def save (log : ExecutionLog) (path : String) (files : FileTree) : Except FileError FileTree := do
  let files ← match Path.parent? path with
    | some parent => files.createDirectories parent
    | none => pure files
  files.write path (Symbol.ofText log.toValue.pretty)

end ExecutionLog

end CapabilityPipeline
