import CapabilityPipeline.Command.Process
import CapabilityPipeline.Execution.Driver
import CapabilityPipeline.Json.Printer

/-!
# Commands that serve calls

A command serves calls of a node or a package: it is run once for each call, reads the request
as JSON from its input, and writes the result to its output.

Results:

* `CommandLine.ofText?`: the command that a line of words names.
* `CommandLine.serve`: what becomes of a call that a command serves.
* `Driver.launching`: the driver that runs a command in a directory.
-/

namespace CapabilityPipeline

open Json (Value)
open Text (Symbol)

/-- Model of `CommandDriver`: a program and its arguments. -/
structure CommandLine where
  program : String
  arguments : List String
  deriving DecidableEq, Repr

/-- Model of `from_command_line`. The command of a line: its first word is the program. Quotes mean
nothing. -/
def CommandLine.ofText? (line : String) : Option CommandLine :=
  match (Text.words line.toList).map String.ofList with
  | program :: arguments => some ⟨program, arguments⟩
  | [] => none

/-- A request as JSON. -/
def Request.toValue (r : Request) : Value :=
  .object [
    ("action", .string r.action),
    ("target", .ofOption .string r.target),
    ("params", .object r.params),
    ("context", r.context.toValue)]

/-- Model of `run`: what becomes of a call that a command serves in a directory among files, and of
the files. -/
def CommandLine.serve (launch : Launcher) (c : CommandLine) (dir : String) (request : Request)
    (files : FileTree) : Served × FileTree :=
  match launch files dir c.program c.arguments (Symbol.ofText request.toValue.compact) with
  | .error e => ((Reply.failed s!"spawn {c.program}: {e.message}").atOnce, files)
  | .ok process =>
    let reply : Reply := match process.outcome with
      | none => .unanswered
      | some outcome =>
        match outcome.result with
        | .ok result => .answered result
        | .error e => .failed e.message
    (⟨reply, process.duration⟩, process.files)

/-- The driver that runs a command in a directory. Its world is the files. -/
def Driver.launching (launch : Launcher) (c : CommandLine) (dir : String) : Driver FileTree where
  call := c.serve launch dir
  actions := []

end CapabilityPipeline
