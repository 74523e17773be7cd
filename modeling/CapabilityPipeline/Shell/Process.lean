import CapabilityPipeline.Command.Process
import CapabilityPipeline.Shell.Execution

/-!
# Processes of the shell and its tools

The programs that can be started are the shell and the tools beside it. Their processes run in a
machine of their own, and leave behind what the machine holds in the end.

Results:

* `Process.start`: a process from its start to its end, or the reason why it does not start.
-/

namespace CapabilityPipeline

open Text (Octets Symbol)

namespace Process

open Shell

/-- The machine in which a process begins. -/
def machine (files : FileTree) (dir : String) (name : Octets) (stdin : List Symbol) :
    Machine where
  files := files
  streams := [.source (Octets.ofSymbols stdin) 0, .sink .empty, .sink .empty]
  clock := 0
  jobs := []
  shell := State.start name [] dir [(0, 0), (1, 1), (2, 2)]

/-- What is left behind when something stops a process, or nothing does. Its outputs have to be
let go of before it counts as ended. -/
def finished (m : Machine) (ending : Except Stop Nat) : Process :=
  let (out, errors) := (Act.outputAt m 1, Act.outputAt m 2)
  let outcome (success : Bool) (code : Option Int) : Option CommandOutcome :=
    some ⟨success, code, Octets.symbols out.octets, Octets.symbols errors.octets⟩
  { outcome := match ending with
      | .ok status | .error (.exit status) | .error (.finish status) =>
        outcome (status = 0) (some status)
      | .error (.killed _) => outcome false none
      | .error .never => none
      | .error (.leave _) | .error (.turn _) => outcome true (some 0)
    duration := max m.clock (max out.heldUntil errors.heldUntil) + 1
    files := m.files }

/-- The program of a name, as what a shell does. -/
def program? (name : String) : Option Tool :=
  if name = "sh" ∨ name = "dash" then some runShell else Tool.named? name

/-- Starts a program by name in a directory, with an input. It does not start if there is no such
directory or no such program. A file that is named by its path is no program. -/
def start : Launcher := fun files dir program arguments stdin => do
  let hasNul (text : String) : Bool := text.toList.contains '\x00'
  if hasNul dir || hasNul program || arguments.any hasNul then throw .nulCharacter
  if dir ≠ "" then
    match files.find dir with
    | .ok .directory => pure ()
    | .ok (.file _) => throw (.file .notADirectory)
    | .error e => throw (.file e)
  match program? (programName program) with
  | some tool =>
    let (ending, m) := (tool (arguments.map Octets.ofText)).run
      |>.run (machine files dir (Octets.ofText program) stdin)
    return finished m ending
  | none =>
    if program.toList.contains '/' then
      match files.find (Path.join dir program) with
      | .ok _ => throw (.file .permissionDenied)
      | .error e => throw (.file e)
    else if program = "." ∨ program = ".." then throw (.file .permissionDenied)
    else if FileTree.maxNameBytes < program.utf8ByteSize then throw (.file .nameTooLong)
    else throw (.file .notFound)

end Process

end CapabilityPipeline
