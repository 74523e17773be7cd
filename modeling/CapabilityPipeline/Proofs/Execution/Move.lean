import CapabilityPipeline.Proofs.Execution.Trace
import Mathlib.Logic.Relation

/-!
# The moves of a run

While a group is run, the state changes in a few ways only: a step asks for a binding, calls its
driver or ends, an entry is logged, time passes, and results arrive. Every move has a guard that is
read off the trace, so whatever the order of the moves, each guard held when its move was made.

Results:

* `ask`: how far a step has come that asks for bindings, from the results there are.
* `StopsAt`, `ask_stops`, `ask_complete`: why asking stops, and what a step has when it does not.
* `Session.outcome?`: the envelope of a group, read off the trace.
* `Session.task?`: what a step has to do, once its turn has come.
* `Session.Move`: the moves that are possible while a group is run.
* `Session.task?_mono`: a turn that has come does not pass.
-/

namespace CapabilityPipeline

open Json (Value)

/-! ## Asking for bindings -/

/-- How far a step has come that asks for bindings. -/
inductive Asking where
  /-- The binding at an index has no result yet. -/
  | waiting (index : Nat)
  /-- A binding cannot be had. -/
  | blocked (ending : Ending)
  /-- The payloads of all bindings. -/
  | complete (found : NameMap Value)

/-- Asks in order for the bindings that names stand for, of which only those below the limit can
be seen, when some of the bindings have results. -/
def ask (bindings : List Binding) (value? : Nat → Option Envelope) (limit : Nat) :
    List String → NameMap Value → Asking
  | [], found => .complete found
  | name :: rest, found =>
    match lastBinding? name bindings with
    | none => .blocked (.unassigned name)
    | some (index, _) =>
      if index < limit then
        match value? index with
        | none => .waiting index
        | some result =>
          if result.success then
            ask bindings value? limit rest (found.insert name result.payload)
          else .blocked (.bindingFailed name result.errorMessage)
      else .blocked (.unassigned name)

/-- What a step that asks is told. -/
def Asking.gathering : Asking → Session.Gathering
  | waiting _ => .waiting
  | blocked ending => .blocked ending
  | complete found => .complete found

theorem lastBinding?_mem {name : String} {bindings : List Binding} {index : Nat} {b : Binding}
    (h : lastBinding? name bindings = some (index, b)) :
    bindings[index]? = some b ∧ b.name = name := by
  obtain ⟨⟨b', i⟩, found, same⟩ := Option.map_eq_some_iff.mp h
  cases same
  have hmem := List.mem_of_find?_eq_some found
  have named := List.find?_some found
  exact ⟨List.mem_zipIdx_iff_getElem?.mp (List.mem_reverse.mp hmem), of_decide_eq_true named⟩

/-- Asking for a binding that can be seen goes by its result. -/
theorem ask_cons_visible {bindings : List Binding} {value? : Nat → Option Envelope}
    {limit index : Nat} {name : String} {b : Binding}
    (same : lastBinding? name bindings = some (index, b)) (visible : index < limit)
    (rest : List String) (found : NameMap Value) :
    ask bindings value? limit (name :: rest) found =
      match value? index with
      | none => .waiting index
      | some result =>
        if result.success then ask bindings value? limit rest (found.insert name result.payload)
        else .blocked (.bindingFailed name result.errorMessage) := by
  rw [ask, same]
  exact if_pos visible

/-- Asking for a binding that cannot be seen ends with a refusal. -/
theorem ask_cons_hidden {bindings : List Binding} {value? : Nat → Option Envelope}
    {limit index : Nat} {name : String} {b : Binding}
    (same : lastBinding? name bindings = some (index, b)) (hidden : ¬index < limit)
    (rest : List String) (found : NameMap Value) :
    ask bindings value? limit (name :: rest) found = .blocked (.unassigned name) := by
  rw [ask, same]
  exact if_neg hidden

theorem ask_append {bindings : List Binding} {value? : Nat → Option Envelope} {limit : Nat}
    {before : List String} {start found : NameMap Value}
    (h : ask bindings value? limit before start = .complete found) (names : List String) :
    ask bindings value? limit (before ++ names) start =
      ask bindings value? limit names found := by
  induction before generalizing start with
  | nil =>
    cases h
    rfl
  | cons name rest ih =>
    rw [List.cons_append]
    rw [ask] at h ⊢
    split at h
    · cases h
    · split at h
      · next visible =>
        rw [if_pos visible]
        split at h
        · cases h
        · split at h
          · next success =>
            rw [if_pos success]
            exact ih h
          · cases h
      · cases h

/-- Why asking stops at a name: it stands for no binding that can be seen, or for one that has failed
or has no result yet. -/
inductive StopsAt (bindings : List Binding) (value? : Nat → Option Envelope) (limit : Nat)
    (name : String) : Asking → Prop
  | unseen (hidden : ∀ index b, lastBinding? name bindings = some (index, b) → ¬index < limit) :
      StopsAt bindings value? limit name (.blocked (.unassigned name))
  | failed {index : Nat} {b : Binding} {result : Envelope}
      (same : lastBinding? name bindings = some (index, b)) (visible : index < limit)
      (known : value? index = some result) (failure : result.success = false) :
      StopsAt bindings value? limit name (.blocked (.bindingFailed name result.errorMessage))
  | waiting {index : Nat} {b : Binding} (same : lastBinding? name bindings = some (index, b))
      (visible : index < limit) (unknown : value? index = none) :
      StopsAt bindings value? limit name (.waiting index)

/-- **Asking stops at the first name without a payload.** -/
theorem ask_stops {bindings : List Binding} {value? : Nat → Option Envelope} {limit : Nat}
    {names : List String} {start : NameMap Value} {asking : Asking}
    (h : ask bindings value? limit names start = asking)
    (incomplete : ∀ found, asking ≠ .complete found) :
    ∃ before name rest found, names = before ++ name :: rest ∧
      ask bindings value? limit before start = .complete found ∧
      StopsAt bindings value? limit name asking := by
  induction names generalizing start with
  | nil => exact absurd h.symm (incomplete start)
  | cons name rest ih =>
    have here (stops : StopsAt bindings value? limit name asking) :
        ∃ before name' rest' found, name :: rest = before ++ name' :: rest' ∧
          ask bindings value? limit before start = .complete found ∧
          StopsAt bindings value? limit name' asking :=
      ⟨[], name, rest, start, rfl, rfl, stops⟩
    cases same : lastBinding? name bindings with
    | none =>
      rw [ask, same] at h
      cases h
      exact here (.unseen fun _ _ found => by rw [same] at found; cases found)
    | some entry =>
      obtain ⟨index, b⟩ := entry
      by_cases visible : index < limit
      · rw [ask_cons_visible same visible] at h
        split at h
        · next unknown =>
          cases h
          exact here (.waiting same visible unknown)
        · next result known =>
          split at h
          · next success =>
            obtain ⟨before, name', rest', found, rfl, complete, stops⟩ := ih h
            refine ⟨name :: before, name', rest', found, rfl, ?_, stops⟩
            rw [ask_cons_visible same visible, known]
            exact (if_pos success).trans complete
          · next failure =>
            cases h
            exact here (.failed same visible known (Bool.eq_false_iff.mpr failure))
      · rw [ask_cons_hidden same visible] at h
        cases h
        refine here (.unseen fun index' b' found => ?_)
        cases same.symm.trans found
        exact visible

/-- A step that has all that it mentions sees a binding for each name, which has succeeded. -/
theorem ask_complete {bindings : List Binding} {value? : Nat → Option Envelope} {limit : Nat}
    {names : List String} {start found : NameMap Value}
    (h : ask bindings value? limit names start = .complete found) : ∀ name ∈ names,
    ∃ index b result, lastBinding? name bindings = some (index, b) ∧ index < limit ∧
      value? index = some result ∧ result.success = true := by
  induction names generalizing start with
  | nil => exact fun _ none => absurd none List.not_mem_nil
  | cons name rest ih =>
    cases same : lastBinding? name bindings with
    | none =>
      rw [ask, same] at h
      cases h
    | some entry =>
      obtain ⟨index, b⟩ := entry
      by_cases visible : index < limit
      · rw [ask_cons_visible same visible] at h
        split at h
        · cases h
        · next result known =>
          split at h
          · next success =>
            exact List.forall_mem_cons.mpr ⟨⟨index, b, result, same, visible, known, success⟩, ih h⟩
          · cases h
      · rw [ask_cons_hidden same visible] at h
        cases h

theorem ask_complete_mono {bindings : List Binding} {value? later? : Nat → Option Envelope}
    (grown : ∀ index result, value? index = some result → later? index = some result)
    {limit : Nat} {names : List String} {start found : NameMap Value}
    (h : ask bindings value? limit names start = .complete found) :
    ask bindings later? limit names start = .complete found := by
  induction names generalizing start with
  | nil => exact h
  | cons name rest ih =>
    rw [ask] at h ⊢
    split at h
    · cases h
    · split at h
      · next visible =>
        rw [if_pos visible]
        split at h
        · cases h
        · next result known =>
          rw [grown _ _ known]
          dsimp only
          split at h
          · next success =>
            rw [if_pos success]
            exact ih h
          · cases h
      · cases h

/-! ## Groups -/

namespace Session

variable {World : Type}

mutual

/-- The envelope of a group, once enough of its steps have ended. -/
def outcome? (s : Session World) (trace : Trace) (pipeline group : Nat) (path : List Nat) :
    Group → Option Envelope
  | .single _ => (trace.ending? (.leaf pipeline group path)).map Ending.envelope
  | .parallel branches =>
    (branchOutcomes? s trace pipeline group path 0 branches).map
      (aggregate s.engine.settings.parallel)
  | .fallback branches => fallbackOutcome? s trace pipeline group path 0 [] branches

/-- The envelopes of branches, once all have one. -/
def branchOutcomes? (s : Session World) (trace : Trace) (pipeline group : Nat)
    (path : List Nat) : (position : Nat) → List Group → Option (List Envelope)
  | _, [] => some []
  | position, branch :: rest =>
    match outcome? s trace pipeline group (path ++ [position]) branch,
      branchOutcomes? s trace pipeline group path (position + 1) rest with
    | some result, some results => some (result :: results)
    | _, _ => none

/-- The envelope of the first branch that succeeds, once those before have failed. -/
def fallbackOutcome? (s : Session World) (trace : Trace) (pipeline group : Nat)
    (path : List Nat) : (position : Nat) → (errors : List String) → List Group → Option Envelope
  | _, errors, [] => some (exhausted errors)
  | position, errors, branch :: rest =>
    match outcome? s trace pipeline group (path ++ [position]) branch with
    | none => none
    | some result =>
      if result.success then some result
      else fallbackOutcome? s trace pipeline group path (position + 1)
        (errors ++ [result.errorMessage]) rest

end

/-- All branches have failed. -/
def allFailed (s : Session World) (trace : Trace) (pipeline group : Nat) (path : List Nat) :
    (position : Nat) → List Group → Bool
  | _, [] => true
  | position, branch :: rest =>
    (match s.outcome? trace pipeline group (path ++ [position]) branch with
      | some result => !result.success
      | none => false) && allFailed s trace pipeline group path (position + 1) rest

/-- The step that a path leads to within a group, if its turn has come: the branches that it is a
fallback for have failed. -/
def reached? (s : Session World) (trace : Trace) (pipeline group : Nat) :
    (before path : List Nat) → Group → Option Step
  | _, [], .single step => some step
  | before, position :: path, .parallel branches =>
    branches[position]?.bind (reached? s trace pipeline group (before ++ [position]) path)
  | before, position :: path, .fallback branches =>
    if s.allFailed trace pipeline group before 0 (branches.take position) then
      branches[position]?.bind (reached? s trace pipeline group (before ++ [position]) path)
    else none
  | _, _, _ => none

end Session

/-! ## Tasks -/

/-- What a step has to do: the previous result that it sees, and the limit of the bindings that
it sees. -/
structure Task where
  step : Step
  previous : Option Value
  limit : Nat

/-- A group that is being run at a place of a pipeline, and the previous result. -/
structure Stage where
  pipeline : Nat
  group : Nat
  previous : Option Value
  body : Group

namespace Session

variable {World : Type}

/-- The task of a step whose turn has come. That of a binding comes when it is asked for. -/
def task? (s : Session World) (stage : Stage) (trace : Trace) : Occurrence → Option Task
  | .binding index =>
    if (trace.keeper? index).isSome then
      s.bindings[index]?.map fun b => ⟨b.step, none, index⟩
    else none
  | .leaf pipeline group path =>
    if pipeline = stage.pipeline ∧ group = stage.group then
      (s.reached? trace pipeline group [] path stage.body).map fun step =>
        ⟨step, stage.previous, s.bindings.length⟩
    else none
  | .alone => none

/-- How far the step of a task has come. -/
def asking (s : Session World) (trace : Trace) (task : Task) : Asking :=
  ask s.bindings trace.value? task.limit task.step.mentions.keys .empty

/-- The step of a task asks for the binding at an index: it has the payloads of the names that it
mentions before. -/
def Asks (s : Session World) (trace : Trace) (task : Task) (index : Nat) : Prop :=
  ∃ before name rest found b, task.step.mentions.keys = before ++ name :: rest ∧
    ask s.bindings trace.value? task.limit before .empty = .complete found ∧
    lastBinding? name s.bindings = some (index, b) ∧ index < task.limit

theorem Asks.visible {s : Session World} {trace : Trace} {task : Task} {index : Nat}
    (h : s.Asks trace task index) : index < task.limit := by
  obtain ⟨before, name, rest, found, b, mentions, complete, same, visible⟩ := h
  exact visible

/-- The step of a task with its tokens replaced. -/
def resolved (s : Session World) (task : Task) (found : NameMap Value) : Step :=
  Substitution.resolve ⟨found, task.previous⟩ task.step s.engine.settings.injectPrevious

/-- A driver that a step is routed to is found where it is registered. -/
theorem get?_of_route {s : Session World} {step : Step} {driver : Driver World}
    {key : DriverKey} {action : String}
    (h : s.route step = .ok (driver, key, action)) : s.engine.drivers.get? key = some driver := by
  rw [route] at h
  split at h
  · split at h
    · rw [DriverTable.resolve] at h
      dsimp only at h
      split at h
      · next found =>
        cases h
        exact found
      · cases h
    · cases h
  · cases h

/-! ## Moves -/

/-- The state after one more event. -/
def observed (st : RunState World) (event : Event) : RunState World :=
  { st with trace := st.trace ++ [event] }

/-- The state after the driver of a resolved step has been called. -/
def afterCall (s : Session World) (site : Occurrence) (step : Step) (driver : Driver World)
    (key : DriverKey) (action : String) (st : RunState World) : RunState World :=
  let (served, world) := driver.call ⟨action, step.target, step.params, s.context⟩ st.world
  { observed st (.called site ⟨key, action, step.target, step.params⟩) with
    world
    underway := st.underway ++ [served.delivery site step.route s.engine.settings.timeoutMs] }

/-- A step has a task and has neither called a driver nor ended. -/
structure Ready (s : Session World) (stage : Stage) (trace : Trace) (site : Occurrence)
    (task : Task) : Prop where
  task : s.task? stage trace site = some task
  uncalled : trace.call? site = none
  unended : trace.ending? site = none

/-- The moves that are possible while a group is run. -/
inductive Move (s : Session World) (stage : Stage) : RunState World → RunState World → Prop
  /-- A step asks for a binding. -/
  | force {st : RunState World} {site : Occurrence} {task : Task} {index : Nat}
      (ready : s.Ready stage st.trace site task) (asks : s.Asks st.trace task index)
      (new : .forced site index ∉ st.trace) : Move s stage st (observed st (.forced site index))
  /-- A step ends because a binding cannot be had. -/
  | block {st : RunState World} {site : Occurrence} {task : Task} {ending : Ending}
      (ready : s.Ready stage st.trace site task)
      (blocked : s.asking st.trace task = .blocked ending) :
      Move s stage st (observed st (.ended site ending))
  /-- A step ends because it reaches no driver. -/
  | refuse {st : RunState World} {site : Occurrence} {task : Task} {found : NameMap Value}
      {error : DispatchError} (ready : s.Ready stage st.trace site task)
      (complete : s.asking st.trace task = .complete found)
      (route : s.route (s.resolved task found) = .error error) :
      Move s stage st (observed st (.ended site (.refused error)))
  /-- A step calls its driver. -/
  | call {st : RunState World} {site : Occurrence} {task : Task} {found : NameMap Value}
      {driver : Driver World} {key : DriverKey} {action : String}
      (ready : s.Ready stage st.trace site task)
      (complete : s.asking st.trace task = .complete found)
      (route : s.route (s.resolved task found) = .ok (driver, key, action)) :
      Move s stage st (s.afterCall site (s.resolved task found) driver key action st)
  /-- A step ends with the result of its call. -/
  | finish {st : RunState World} {site : Occurrence} {task : Task} {call : Call}
      {result : Envelope} (task : s.task? stage st.trace site = some task)
      (called : st.trace.call? site = some call) (answered : st.trace.answer? site = some result)
      (unended : st.trace.ending? site = none) :
      Move s stage st (observed st (.ended site (.called call result)))
  /-- An entry is written to the log. -/
  | log {st : RunState World} (entry : LogEntry) : Move s stage st (observed st (.logged entry))
  /-- The result of a call arrives. -/
  | arrive {world : World} {before after : List Delivery} {delivery : Delivery} {trace : Trace} :
      Move s stage ⟨world, before ++ delivery :: after, trace⟩
        ⟨world, before ++ after, trace ++ [.answered delivery.step delivery.result]⟩
  /-- Time passes. -/
  | elapse {st : RunState World} (delay : Nat) :
      Move s stage st
        { st with underway := st.underway.map fun d => { d with delay := d.delay - delay } }

/-- Moves one after another. -/
abbrev Moves (s : Session World) (stage : Stage) : RunState World → RunState World → Prop :=
  Relation.ReflTransGen (s.Move stage)

theorem Move.trace_prefix {s : Session World} {stage : Stage} {st st' : RunState World}
    (h : s.Move stage st st') : st.trace <+: st'.trace := by
  cases h with
  | elapse => exact List.prefix_refl _
  | _ => exact List.prefix_append _ _

theorem Moves.trace_prefix {s : Session World} {stage : Stage} {st st' : RunState World}
    (h : s.Moves stage st st') : st.trace <+: st'.trace := by
  induction h with
  | refl => exact List.prefix_refl _
  | tail _ move ih => exact ih.trans move.trace_prefix

/-! ## What stays -/

section Prefix

variable (s : Session World) {trace later : Trace}

mutual

theorem outcome?_mono (grown : trace <+: later) (pipeline group : Nat) (path : List Nat) :
    ∀ (g : Group) {result : Envelope},
    s.outcome? trace pipeline group path g = some result →
    s.outcome? later pipeline group path g = some result
  | .single _, result, h => by
    rw [outcome?] at h ⊢
    obtain ⟨ending, found, same⟩ := Option.map_eq_some_iff.mp h
    exact Option.map_eq_some_iff.mpr ⟨ending, Trace.ending?_mono grown found, same⟩
  | .parallel branches, result, h => by
    rw [outcome?] at h ⊢
    obtain ⟨results, found, same⟩ := Option.map_eq_some_iff.mp h
    exact Option.map_eq_some_iff.mpr
      ⟨results, branchOutcomes?_mono grown _ _ path 0 branches found, same⟩
  | .fallback branches, result, h => by
    rw [outcome?] at h ⊢
    exact fallbackOutcome?_mono grown _ _ path 0 [] branches h

theorem branchOutcomes?_mono (grown : trace <+: later) (pipeline group : Nat)
    (path : List Nat) : ∀ (position : Nat) (branches : List Group) {results : List Envelope},
    s.branchOutcomes? trace pipeline group path position branches = some results →
    s.branchOutcomes? later pipeline group path position branches = some results
  | _, [], results, h => by
    rw [branchOutcomes?] at h ⊢
    exact h
  | position, branch :: rest, results, h => by
    rw [branchOutcomes?] at h ⊢
    split at h
    · next first others hfirst hothers =>
      rw [outcome?_mono grown _ _ _ branch hfirst,
        branchOutcomes?_mono grown _ _ path _ rest hothers]
      exact h
    · cases h

theorem fallbackOutcome?_mono (grown : trace <+: later) (pipeline group : Nat)
    (path : List Nat) : ∀ (position : Nat) (errors : List String) (branches : List Group)
    {result : Envelope},
    s.fallbackOutcome? trace pipeline group path position errors branches = some result →
    s.fallbackOutcome? later pipeline group path position errors branches = some result
  | _, errors, [], result, h => by
    rw [fallbackOutcome?] at h ⊢
    exact h
  | position, errors, branch :: rest, result, h => by
    rw [fallbackOutcome?] at h ⊢
    split at h
    · cases h
    · next first hfirst =>
      rw [outcome?_mono grown _ _ _ branch hfirst]
      dsimp only
      split at h
      · next success => rw [if_pos success, h]
      · next failure =>
        rw [if_neg failure]
        exact fallbackOutcome?_mono grown _ _ path _ _ rest h

end

variable (grown : trace <+: later) (pipeline group : Nat)

include grown

theorem allFailed_mono (path : List Nat) (position : Nat) (branches : List Group)
    (h : s.allFailed trace pipeline group path position branches = true) :
    s.allFailed later pipeline group path position branches = true := by
  induction branches generalizing position with
  | nil => rfl
  | cons branch rest ih =>
    rw [allFailed, Bool.and_eq_true] at h ⊢
    refine ⟨?_, ih _ h.2⟩
    have first := h.1
    split at first
    · next result found =>
      rw [outcome?_mono s grown pipeline group _ branch found]
      exact first
    · cases first

theorem reached?_mono (before path : List Nat) (g : Group) {step : Step}
    (h : s.reached? trace pipeline group before path g = some step) :
    s.reached? later pipeline group before path g = some step := by
  induction path generalizing before g with
  | nil => cases g <;> exact h
  | cons position path ih =>
    cases g with
    | single => exact h
    | parallel branches =>
      rw [reached?] at h ⊢
      obtain ⟨branch, found, deeper⟩ := Option.bind_eq_some_iff.mp h
      exact Option.bind_eq_some_iff.mpr ⟨branch, found, ih _ branch deeper⟩
    | fallback branches =>
      rw [reached?] at h ⊢
      split at h
      · next failed =>
        rw [if_pos (allFailed_mono s grown pipeline group before 0 _ failed)]
        obtain ⟨branch, found, deeper⟩ := Option.bind_eq_some_iff.mp h
        exact Option.bind_eq_some_iff.mpr ⟨branch, found, ih _ branch deeper⟩
      · cases h

/-- A turn that has come does not pass. -/
theorem task?_mono (stage : Stage) {site : Occurrence} {task : Task}
    (h : s.task? stage trace site = some task) : s.task? stage later site = some task := by
  cases site with
  | binding index =>
    rw [task?] at h ⊢
    split at h
    · next forced =>
      obtain ⟨keeper, kept⟩ := Option.isSome_iff_exists.mp forced
      rw [Trace.keeper?_mono grown kept]
      exact h
    · cases h
  | leaf p g path =>
    rw [task?] at h ⊢
    split at h
    · next here =>
      rw [if_pos here]
      obtain ⟨step, found, same⟩ := Option.map_eq_some_iff.mp h
      exact Option.map_eq_some_iff.mpr ⟨step, reached?_mono s grown p g [] path _ found, same⟩
    · cases h
  | alone => exact h

end Prefix

end Session

end CapabilityPipeline
