import CapabilityPipeline.Command.Outcome
import CapabilityPipeline.Files.Tree

/-!
# Processes

A process is a program that runs by itself, with arguments and an input, in a directory among
files. It leaves behind what it wrote to its outputs, and the files as it has changed them. What a
program does is not said here: whoever runs commands is given something that starts processes.

Results:

* `Process`, `StartError`: what a process leaves behind, or why it does not start.
* `Launcher`: whatever starts processes.
-/

namespace CapabilityPipeline

open Text (Symbol)

/-- Why a process does not start. -/
inductive StartError where
  /-- A text that is handed to the process holds the character that ends one. -/
  | nulCharacter
  | file (error : FileError)
  deriving DecidableEq, Repr

/-- The wording of the reason why a process does not start. -/
def StartError.message : StartError → String
  | nulCharacter => "nul byte found in provided data"
  | file error => error.message

/-- What a process leaves behind. -/
structure Process where
  /-- What it leaves if it ends at all. -/
  outcome : Option CommandOutcome
  /-- How many milliseconds it takes, one for its start included. -/
  duration : Nat
  files : FileTree

/-- Whatever starts programs: among files, in a directory, by name, with arguments and an input. A
process is started and seen to its end. -/
abbrev Launcher :=
  (files : FileTree) → (dir program : String) → (arguments : List String) →
    (stdin : List Symbol) → Except StartError Process

end CapabilityPipeline
