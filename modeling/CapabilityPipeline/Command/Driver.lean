import CapabilityPipeline.Command.Line
import CapabilityPipeline.Shell.Process

/-!
# Drivers that run commands of the shell

Results:

* `Driver.command`: the driver that runs a command, with the shell and its tools as programs.
-/

namespace CapabilityPipeline

/-- The driver that runs a command in a directory, with the shell and its tools as programs. -/
def Driver.command : CommandLine → (dir : String) → Driver FileTree :=
  Driver.launching Process.start

end CapabilityPipeline
