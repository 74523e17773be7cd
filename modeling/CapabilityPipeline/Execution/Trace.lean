import CapabilityPipeline.Execution.Driver
import CapabilityPipeline.Execution.Log
import CapabilityPipeline.Program.Basic

/-!
# What happens in a run

A run leaves a trace: which steps asked for which bindings, which drivers were called, when the
results of the calls arrived, how the evaluation of each step ended, and which entries were
written to the log, all in the order in which it happened. How far a step has come can be read
off the trace, and nothing else remembers it.

Results:

* `Event`, `Ending`: what is observed, of steps that are named by where they stand.
* `Trace.ending?`, `Trace.call?`, `Trace.answer?`, `Trace.keeper?`: how far a step or a binding
  has come.
* `Run`: a computation within a run, and the few ways in which it can change the state.
* `RunState.receive`: the results that arrive next.
* `RunState.entries`: the log so far, which is part of the trace.
-/

namespace CapabilityPipeline

/-! ## Events -/

/-- Where a step stands in a program. -/
inductive Occurrence where
  /-- The right-hand side of a binding. -/
  | binding (index : Nat)
  /-- A step of a group, found by going down the branches of the path. -/
  | leaf (pipeline group : Nat) (path : List Nat)
  /-- A step that belongs to no program. -/
  | alone
  deriving DecidableEq, Repr

/-- The step that a path leads to within a group. -/
def Group.stepAt? : List Nat → Group → Option Step
  | [], .single step => some step
  | position :: path, .parallel branches => branches[position]?.bind (stepAt? path)
  | position :: path, .fallback branches => branches[position]?.bind (stepAt? path)
  | _, _ => none

/-- The step of a program at an occurrence. -/
def Program.stepAt? (p : Program) : Occurrence → Option Step
  | .binding index => p.bindings[index]?.map Binding.step
  | .leaf pipeline group path => do (← (← p.pipelines[pipeline]?).groups[group]?).stepAt? path
  | .alone => none

/-- A call of a driver. -/
structure Call where
  driver : DriverKey
  action : String
  target : Option String
  params : Json.Object
  deriving DecidableEq

/-- How the evaluation of a step ends. -/
inductive Ending where
  /-- It mentions a variable that it cannot see. -/
  | unassigned (name : String)
  /-- A binding that it mentions has failed. -/
  | bindingFailed (name message : String)
  /-- No driver serves it. -/
  | refused (error : DispatchError)
  /-- A driver was called. -/
  | called (call : Call) (result : Envelope)
  deriving DecidableEq

/-- The envelope of a step that has ended. -/
def Ending.envelope : Ending → Envelope
  | unassigned name => .failed s!"variable '${name}' is not assigned before use"
  | bindingFailed name message => .failed s!"variable '${name}' failed: {message}"
  | refused error => .failed error.message
  | called _ result => result

/-- What is observed of a run. -/
inductive Event where
  /-- A step asks for the binding at an index. -/
  | forced (step : Occurrence) (index : Nat)
  /-- A driver is called for a step. -/
  | called (step : Occurrence) (call : Call)
  /-- The result of the call for a step arrives. -/
  | answered (step : Occurrence) (result : Envelope)
  /-- The evaluation of a step ends. -/
  | ended (step : Occurrence) (ending : Ending)
  /-- An entry is written to the log. -/
  | logged (entry : LogEntry)
  deriving DecidableEq

/-- The log entry that is written. -/
def Event.entry? : Event → Option LogEntry
  | logged entry => some entry
  | _ => none

/-! ## Traces -/

/-- What has been observed of a run, in the order in which it happened. -/
abbrev Trace := List Event

namespace Trace

/-- How the evaluation of a step has ended. -/
def ending? (trace : Trace) (step : Occurrence) : Option Ending :=
  trace.findSome? fun
    | .ended other ending => if other = step then some ending else none
    | _ => none

/-- The call that was made for a step. -/
def call? (trace : Trace) (step : Occurrence) : Option Call :=
  trace.findSome? fun
    | .called other call => if other = step then some call else none
    | _ => none

/-- The result that has arrived for a step. -/
def answer? (trace : Trace) (step : Occurrence) : Option Envelope :=
  trace.findSome? fun
    | .answered other result => if other = step then some result else none
    | _ => none

/-- The step that asked first for the binding at an index. It evaluates the binding, and all
others wait for the result. -/
def keeper? (trace : Trace) (index : Nat) : Option Occurrence :=
  trace.findSome? fun
    | .forced step other => if other = index then some step else none
    | _ => none

end Trace

/-! ## The state of a run -/

/-- A result on its way. -/
structure Delivery where
  step : Occurrence
  result : Envelope
  /-- How many milliseconds it takes to arrive. -/
  delay : Nat
  deriving DecidableEq

/-- What a run has done so far. -/
structure RunState (World : Type) where
  world : World
  /-- Results of calls that have been made, in the order of the calls. -/
  underway : List Delivery
  trace : Trace

namespace RunState

variable {World : Type}

/-- The log entries so far. -/
def entries (s : RunState World) : List LogEntry :=
  s.trace.filterMap Event.entry?

/-- The state after a time, in which some results have arrived. -/
def after (s : RunState World) (delay : Nat) : RunState World :=
  let (arrived, left) := s.underway.partition fun d => d.delay ≤ delay
  { s with
    underway := left.map fun d => { d with delay := d.delay - delay }
    trace := s.trace ++ arrived.map fun d => .answered d.step d.result }

/-- The state in which the results have arrived that take the least time. -/
def receive (s : RunState World) : RunState World :=
  match (s.underway.map Delivery.delay).min? with
  | some delay => s.after delay
  | none => s

end RunState

/-- A computation within a run. -/
abbrev Run (World : Type) := StateM (RunState World)

namespace Run

variable {World : Type}

/-- Adds an event to the trace. -/
def observe (event : Event) : Run World Unit :=
  modify fun s => { s with trace := s.trace ++ [event] }

/-- Adds an event to the trace if it is not there. -/
def observeOnce (event : Event) : Run World Unit :=
  modify fun s => if event ∈ s.trace then s else { s with trace := s.trace ++ [event] }

/-- Model of `record`: adds an entry to the log. Positions stop growing where a word of 32 bits
ends. -/
def record (place : Option (Nat × Nat)) (kind label : String) (result : Envelope)
    (time : String) : Run World Unit := do
  let state ← get
  observe (.logged {
    seq := min (state.entries.length + 1) (wordLimit32 - 1)
    pipeline := place.map Prod.fst
    group := place.map Prod.snd
    kind, label
    success := result.success
    summary := result.summary
    error := result.error
    startedAt := time
    durationMs := 0 })

/-- Advances a computation until it ends. Time passes only when an advance finds nothing to do:
then the results arrive that take the least time. The number bounds the advances. -/
def settle (advance : Run World (Option Envelope)) : (bound : Nat) → Run World Envelope
  | 0 => return .failed "evaluation did not end"
  | bound + 1 => do
    let before ← get
    match ← advance with
    | some result => return result
    | none =>
      modify fun state =>
        if state.trace.length = before.trace.length then state.receive else state.after 0
      settle advance bound

end Run

end CapabilityPipeline
