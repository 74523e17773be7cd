import CapabilityPipeline.Command.Driver
import CapabilityPipeline.Console.Tasks

/-!
# Command-line sessions

Results:

* `Console.run`: a session whose commands are run by the shell and its tools.
-/

namespace CapabilityPipeline.Console

/-- Answers an invocation, with the shell and its tools to run commands. -/
def run (s : Surroundings) : Finish :=
  answer Driver.command s

end CapabilityPipeline.Console
