import CapabilityPipeline.Execution.Settings
import CapabilityPipeline.Execution.Trace
import CapabilityPipeline.Program.Printer
import CapabilityPipeline.Program.Substitution

/-!
# Running programs

A run takes the pipelines of a program in order and the groups of a pipeline in order. The steps
of a group are advanced in turns: each goes on until it waits for the result of a call, and when
all wait, the next results arrive. A binding is evaluated by the step that first mentions it, and
other steps that mention it wait for its result. The right-hand side of a binding sees only the
bindings before it. Every failure becomes an envelope.

To advance a step is to take it from the beginning once more, with the trace as memory: what has
happened is read off the trace and not done again.

Results:

* `Engine.run`: a program run, with results, log and trace.
* `Engine.runAlone`: one step run by itself.
* `Session.advanceStep`, `Session.advanceGroup`: steps and groups, as far as they can go.
* `Session.runGroup`: a group run to its end.
-/

namespace CapabilityPipeline

open Json (Value)

/-! ## Engines and sessions -/

/-- Model of `ExecutionEngine`: what programs are run with. -/
structure Engine (World : Type) where
  registry : Snapshot
  drivers : DriverTable World
  settings : Settings

/-- One run of an engine: the bindings that steps may mention, the context, and the time that
log entries are stamped with. -/
structure Session (World : Type) where
  engine : Engine World
  bindings : List Binding
  context : Context
  time : String

/-- The look-up in the bindings of `RunState`. The binding that a name stands for, with its index:
the last one of that name. -/
def lastBinding? (name : String) (bindings : List Binding) : Option (Nat × Binding) :=
  (bindings.zipIdx.reverse.find? fun (b, _) => b.name = name).map fun (b, index) => (index, b)

/-- Part of `dispatch`: the result of a call that ended with a reply. -/
def Reply.envelope (route : String) : Reply → Envelope
  | answered result => result
  | failed message => .failed message
  | panicked message =>
    let cause := message.getD "unknown panic"
    .failed s!"driver for {route} panicked: {cause}"
  | unanswered => .failed s!"driver for {route} was cancelled"

/-- Part of `dispatch`: the result of a call, on its way to the step that waits for it. No step
waits longer than the limit. -/
def Served.delivery (step : Occurrence) (route : String) (limit : Option Nat) (s : Served) :
    Delivery :=
  let timely : Delivery := ⟨step, s.reply.envelope route, s.duration⟩
  match limit with
  | some ms =>
    if s.reply = .unanswered ∨ ms < s.duration then
      ⟨step, .failed s!"{route} timed out after {ms} ms", ms⟩
    else timely
  | none => timely

/-- Model of `aggregate_parallel`. The result of branches that ran side by side: their envelopes in
order as data, the number of successes as summary, and the failures as error unless the group
succeeds. -/
def aggregate (policy : ParallelPolicy) (results : List Envelope) : Envelope :=
  let succeeded := (results.filter Envelope.success).length
  let success := policy.isSuccess succeeded results.length
  let errors := (results.zipIdx 1).filterMap fun (result, position) =>
    if result.success then none else some s!"branch {position}: {result.errorMessage}"
  { success
    data := some (.array (results.map Envelope.toValue))
    summary := some s!"{succeeded}/{results.length} parallel branches succeeded"
    error := if success then none else some ("; ".intercalate errors) }

/-- Part of `run_group`: the result of branches that have all failed with the given messages. -/
def exhausted (errors : List String) : Envelope :=
  let last := errors.getLast?.getD "no branches"
  { Envelope.failed s!"all {errors.length} fallback branches failed; last error: {last}" with
    data := some (.ofStrings errors) }

namespace Session

variable {World : Type}

/-! ## Steps -/

/-- Part of `dispatch`. The route of a resolved step: the driver to call, where it is registered,
and the name to call it by. -/
def route (s : Session World) (step : Step) :
    Except DispatchError (Driver World × DriverKey × String) :=
  if s.context.allows step.domain then
    match s.engine.registry.route step.domain step.action with
    | .ok action => s.engine.drivers.resolve step.domain step.action action
    | .error e => .error (.lookup e)
  else .error (.nodeNotAllowed step.domain)

/-- Ends the evaluation of a step. -/
def finish (site : Occurrence) (ending : Ending) : Run World (Option Envelope) := do
  Run.observe (.ended site ending)
  return some ending.envelope

/-- Model of `dispatch`: calls the driver of a resolved step. If there is one, its result is still
to come. -/
def dispatch (s : Session World) (site : Occurrence) (step : Step) :
    Run World (Option Envelope) := do
  match s.route step with
  | .error e => finish site (.refused e)
  | .ok (driver, key, action) =>
    Run.observe (.called site ⟨key, action, step.target, step.params⟩)
    modify fun state =>
      let (served, world) := driver.call ⟨action, step.target, step.params, s.context⟩ state.world
      let delivery := served.delivery site step.route s.engine.settings.timeoutMs
      { state with world, underway := state.underway ++ [delivery] }
    return none

/-- How far a step has come that asks for bindings. -/
inductive Gathering where
  /-- A binding is being evaluated. -/
  | waiting
  /-- A binding cannot be had. -/
  | blocked (ending : Ending)
  /-- The payloads of all bindings. -/
  | complete (found : NameMap Value)

/-- The loop of `run_step`: asks in order for the payloads of the bindings that names stand for.
Only bindings below the limit can be seen. The first name that cannot be had ends the evaluation. -/
def gather (s : Session World) (site : Occurrence) (limit : Nat)
    (force : (index : Nat) → index < limit → Binding → Run World (Option Envelope)) :
    List String → NameMap Value → Run World Gathering
  | [], found => return .complete found
  | name :: rest, found => do
    match lastBinding? name s.bindings with
    | none => return .blocked (.unassigned name)
    | some (index, binding) =>
      if visible : index < limit then
        Run.observeOnce (.forced site index)
        match ← force index visible binding with
        | none => return .waiting
        | some result =>
          if result.success then
            gather s site limit force rest (found.insert name result.payload)
          else return .blocked (.bindingFailed name result.errorMessage)
      else return .blocked (.unassigned name)

/-- Model of `run_step` and `evaluate_binding`: advances a step that sees the bindings below the
limit. -/
def advanceStep (s : Session World) (limit : Nat) (site : Occurrence) (step : Step)
    (previous : Option Value) : Run World (Option Envelope) := do
  let trace := (← get).trace
  match trace.ending? site, trace.call? site, trace.answer? site with
  | some ending, _, _ => return some ending.envelope
  | none, some call, some result => finish site (.called call result)
  | none, some _, none => return none
  | none, none, _ =>
    let force (index : Nat) (_ : index < limit) (binding : Binding) :
        Run World (Option Envelope) := do
      let trace := (← get).trace
      match trace.ending? (.binding index) with
      | some ending => return some ending.envelope
      | none =>
        if trace.keeper? index = some site then
          match ← advanceStep s index (.binding index) binding.step none with
          | none => return none
          | some result =>
            Run.record none "binding" s!"${binding.name}" result s.time
            return some result
        else return none
    match ← gather s site limit force step.mentions.keys .empty with
    | .waiting => return none
    | .blocked ending => finish site ending
    | .complete assigned =>
      let resolved := Substitution.resolve ⟨assigned, previous⟩ step
        s.engine.settings.injectPrevious
      s.dispatch site resolved
termination_by limit

/-! ## Groups -/

mutual

/-- Model of `run_group`: advances a group at a place of a pipeline. -/
def advanceGroup (s : Session World) (pipeline group : Nat) (path : List Nat)
    (previous : Option Value) : Group → Run World (Option Envelope)
  | .single step =>
    s.advanceStep s.bindings.length (.leaf pipeline group path) step previous
  | .parallel branches => do
    let results ← advanceBranches s pipeline group path previous 0 branches
    return results.map (aggregate s.engine.settings.parallel)
  | .fallback branches => advanceFallback s pipeline group path previous 0 [] branches

/-- The parallel case of `run_group`: advances branches one after another, each whatever became of
the others. There are results when all have ended. -/
def advanceBranches (s : Session World) (pipeline group : Nat) (path : List Nat)
    (previous : Option Value) :
    (position : Nat) → List Group → Run World (Option (List Envelope))
  | _, [] => return some []
  | position, branch :: rest => do
    let result ← advanceGroup s pipeline group (path ++ [position]) previous branch
    let results ← advanceBranches s pipeline group path previous (position + 1) rest
    return match result, results with
      | some result, some results => some (result :: results)
      | _, _ => none

/-- The loop of `run_group`: advances branches until one succeeds or has not ended. The messages are
those of the branches before. -/
def advanceFallback (s : Session World) (pipeline group : Nat) (path : List Nat)
    (previous : Option Value) :
    (position : Nat) → (errors : List String) → List Group → Run World (Option Envelope)
  | _, errors, [] => return some (exhausted errors)
  | position, errors, branch :: rest => do
    match ← advanceGroup s pipeline group (path ++ [position]) previous branch with
    | none => return none
    | some result =>
      if result.success then return some result
      advanceFallback s pipeline group path previous (position + 1)
        (errors ++ [result.errorMessage]) rest

end

/-- How often steps may have to be advanced. Every advance but the last adds an event or lets a
result arrive, and for each step, those of the bindings included, there are at most a call, a
result, an ending, and a question for each binding. -/
def advanceBound (s : Session World) (steps : Nat) : Nat :=
  (s.bindings.length + steps) * (s.bindings.length + 3) + 1

/-- Runs a group of a pipeline to its end. -/
def runGroup (s : Session World) (pipeline group : Nat) (previous : Option Value) (g : Group) :
    Run World Envelope :=
  Run.settle (s.advanceGroup pipeline group [] previous g) (s.advanceBound g.steps.length)

/-! ## Pipelines and programs -/

/-- Model of `run_pipeline`: runs the groups of a pipeline from a position on. Each sees the payload
of the one before. -/
def runGroups (s : Session World) (pipeline : Nat) :
    (position : Nat) → (previous : Option Envelope) → List Group → Run World Envelope
  | _, none, [] => return .failed "pipeline has no groups"
  | _, some previous, [] => return previous
  | position, previous, group :: rest => do
    let result ← s.runGroup pipeline position (previous.map Envelope.payload) group
    Run.record (some (pipeline, position)) group.kind group.render result s.time
    if !result.success && s.engine.settings.failure = .abort then return result
    runGroups s pipeline (position + 1) (some result) rest

/-- The loop of `run_program`: runs pipelines, of which the first has the given position. -/
def runPipelines (s : Session World) :
    (position : Nat) → List Pipeline → Run World (List Envelope)
  | _, [] => return []
  | position, pipeline :: rest => do
    let result ← s.runGroups position 0 none pipeline.groups
    let results ← runPipelines s (position + 1) rest
    return result :: results

end Session

/-- What a program run leaves behind. -/
structure ProgramRun where
  /-- One envelope for each pipeline. -/
  results : List Envelope
  log : ExecutionLog
  trace : Trace

/-- What the run of a single step leaves behind. -/
structure StepRun where
  result : Envelope
  trace : Trace

/-- Model of `success`: every pipeline has succeeded. -/
def ProgramRun.success (r : ProgramRun) : Bool :=
  r.results.all Envelope.success

namespace Engine

variable {World : Type}

/-- A run that has not begun. -/
def initial (world : World) : RunState World :=
  ⟨world, [], []⟩

/-- Model of `run_program`: runs a program in a world. -/
def run (e : Engine World) (program : Program) (context : Context) (time : String)
    (world : World) : ProgramRun × World :=
  let session : Session World := ⟨e, program.bindings, context, time⟩
  let (results, state) := (session.runPipelines 0 program.pipelines).run (initial world)
  let log := ExecutionLog.start context.runId context.agentId time
  let success := results.all Envelope.success
  let log := { log with entries := state.entries }.finish success time
  (⟨results, log, state.trace⟩, state.world)

/-- Model of `execute_step`: runs one step without bindings and without a previous result. -/
def runAlone (e : Engine World) (step : Step) (context : Context) (world : World) :
    StepRun × World :=
  let session : Session World := ⟨e, [], context, ""⟩
  let advance := session.advanceStep 0 .alone step none
  let (result, state) := (Run.settle advance (session.advanceBound 1)).run (initial world)
  (⟨result, state.trace⟩, state.world)

end Engine

end CapabilityPipeline
