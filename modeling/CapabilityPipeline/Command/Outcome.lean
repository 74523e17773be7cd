import CapabilityPipeline.Execution.Envelope
import CapabilityPipeline.Json.Reader
import CapabilityPipeline.Text.Blank

/-!
# What a command leaves behind

A command that serves a call writes its result to its output: an envelope, any other JSON value,
or plain text. Its verdict counts more than its exit status: only when the output holds no
envelope does a failed status make a failed call.

Results:

* `CommandOutcome.verdict?`: the envelope that the output holds.
* `CommandOutcome.result`: the envelope of the call, or why there is none.
-/

namespace CapabilityPipeline

open Json (Tree Value)
open Text (Symbol)

/-- What a finished command leaves behind. -/
structure CommandOutcome where
  /-- The command reports success. -/
  success : Bool
  /-- Its exit status, unless a signal ended it. -/
  code : Option Int
  stdout : List Symbol
  stderr : List Symbol
  deriving DecidableEq

/-- A command that failed without an envelope. -/
structure CommandFailure where
  /-- Its exit status, unless a signal ended it. -/
  code : Option Int
  /-- What it wrote to its error output, without the blanks around it. -/
  complaint : String
  deriving DecidableEq, Repr

/-- The wording of a failed command. -/
def CommandFailure.message (e : CommandFailure) : String :=
  let status := match e.code with
    | some code => s!"command exited with status {code}"
    | none => "command terminated by signal"
  if e.complaint = "" then status else s!"{status}: {e.complaint}"

namespace CommandOutcome

/-- What the command wrote to its output, without the blanks around it. -/
def output (o : CommandOutcome) : String :=
  Text.trimmed (Symbol.lossy o.stdout)

/-- The JSON value that the output holds. -/
def value? (o : CommandOutcome) : Option Value :=
  (Value.ofText o.output).toOption

/-- The envelope that the output holds: an object whose member for success is a truth value,
and whose other members have the shapes of an envelope. -/
def verdict? (o : CommandOutcome) : Option Envelope := do
  let value ← o.value?
  if ((← value.member? "success").isBool) then Envelope.ofTree? (Tree.ofValue value) else none

/-- The result of a successful command without an envelope: its value, its text, or nothing. -/
def data (o : CommandOutcome) : Envelope :=
  match o.value? with
  | some value => .succeeded value
  | none => if o.output = "" then .done else .succeeded (.string o.output)

/-- The failure of a command without an envelope. -/
def failure (o : CommandOutcome) : CommandFailure :=
  ⟨o.code, Text.trimmed (Symbol.lossy o.stderr)⟩

/-- Model of `envelope_from_output`: the result of a call that a command served. -/
def result (o : CommandOutcome) : Except CommandFailure Envelope :=
  match o.verdict? with
  | some envelope => .ok envelope
  | none => if o.success then .ok o.data else .error o.failure

end CommandOutcome

end CapabilityPipeline
