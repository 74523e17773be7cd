import CapabilityPipeline.Proofs.Execution.Assigned

/-!
# Why steps do what they do

What a step does is explained by the bindings that it mentions and by where it is routed. It asks
for a binding when it has all that it mentions before, calls a driver when it has all and is routed
to one, and ends without a call when a binding cannot be had or there is no driver. The explanation
of an event is read off the trace, stays true as the trace grows, and does not look at payloads.

Results:

* `Program.task?`: what the step at an occurrence has to do.
* `Session.destination`: where a step is routed.
* `Session.Explains`, `Session.Explained`: why something happens.
* `Engine.MayRun.explained`: whatever happens in a run is explained, in whatever order its moves
  are made.
-/

namespace CapabilityPipeline

open Json (Value)

/-- What the step at an occurrence has to do, the previous result aside. -/
def Program.task? (p : Program) (site : Occurrence) : Option Task :=
  (p.stepAt? site).map fun step => ⟨step, none, p.scope site⟩

/-- A binding that cannot be had cannot be had later. -/
theorem ask_blocked_mono {bindings : List Binding} {value? later? : Nat → Option Envelope}
    (grown : ∀ index result, value? index = some result → later? index = some result)
    {limit : Nat} {names : List String} {start : NameMap Value} {ending : Ending}
    (h : ask bindings value? limit names start = .blocked ending) :
    ask bindings later? limit names start = .blocked ending := by
  induction names generalizing start with
  | nil => cases h
  | cons name rest ih =>
    cases same : lastBinding? name bindings with
    | none =>
      rw [ask, same] at h ⊢
      exact h
    | some entry =>
      obtain ⟨index, b⟩ := entry
      by_cases visible : index < limit
      · rw [ask_cons_visible same visible] at h ⊢
        split at h
        · cases h
        · next result known =>
          rw [grown _ _ known]
          dsimp only
          split at h
          · next success =>
            rw [if_pos success]
            exact ih h
          · next failure =>
            rw [if_neg failure]
            exact h
      · rw [ask_cons_hidden same visible] at h ⊢
        exact h

/-- A step for which a binding cannot be had fails. -/
theorem ask_blocked_fails {bindings : List Binding} {value? : Nat → Option Envelope} {limit : Nat}
    {names : List String} {start : NameMap Value} {ending : Ending}
    (h : ask bindings value? limit names start = .blocked ending) :
    ending.envelope.success = false := by
  obtain ⟨before, name, rest, found, -, -, stops⟩ := ask_stops h nofun
  cases stops with
  | _ => rfl

namespace Session

variable {World : Type}

/-- Where a step is routed: the registration of a driver, and the name to call it by. -/
def destination (s : Session World) (step : Step) : Except DispatchError (DriverKey × String) :=
  (s.route step).map Prod.snd

/-- Tokens are not replaced in what a step is routed by. -/
theorem destination_resolved (s : Session World) (task : Task) (found : NameMap Value) :
    s.destination (s.resolved task found) = s.destination task.step :=
  rfl

/-- Why an event happens, as read off a trace. -/
inductive Explains (s : Session World) (p : Program) (trace : Trace) : Event → Prop
  | forced {site : Occurrence} {task : Task} {index : Nat} (has : p.task? site = some task)
      (asks : s.Asks trace task index) : Explains s p trace (.forced site index)
  | called {site : Occurrence} {task : Task} {found : NameMap Value} {call : Call}
      (has : p.task? site = some task) (complete : s.asking trace task = .complete found)
      (routed : s.destination task.step = .ok (call.driver, call.action)) :
      Explains s p trace (.called site call)
  | answered {site : Occurrence} {result : Envelope} : Explains s p trace (.answered site result)
  | blocked {site : Occurrence} {task : Task} {ending : Ending} (has : p.task? site = some task)
      (blocked : s.asking trace task = .blocked ending) : Explains s p trace (.ended site ending)
  | refused {site : Occurrence} {task : Task} {found : NameMap Value} {error : DispatchError}
      (has : p.task? site = some task) (complete : s.asking trace task = .complete found)
      (routed : s.destination task.step = .error error) :
      Explains s p trace (.ended site (.refused error))
  | finished {site : Occurrence} {task : Task} {found : NameMap Value} {call : Call}
      {result : Envelope} (has : p.task? site = some task)
      (complete : s.asking trace task = .complete found)
      (routed : s.destination task.step = .ok (call.driver, call.action))
      (called : .called site call ∈ trace) (answered : .answered site result ∈ trace) :
      Explains s p trace (.ended site (.called call result))
  | logged {entry : LogEntry} : Explains s p trace (.logged entry)

/-- Whatever happens in a trace is explained. -/
def Explained (s : Session World) (p : Program) (trace : Trace) : Prop :=
  ∀ event ∈ trace, s.Explains p trace event

variable {s : Session World} {p : Program} {trace later : Trace}

/-- What is explained stays explained. -/
theorem Explains.mono {event : Event} (h : s.Explains p trace event) (grown : trace <+: later) :
    s.Explains p later event := by
  have known (index : Nat) (result : Envelope) :
      trace.value? index = some result → later.value? index = some result :=
    Trace.value?_mono grown
  cases h with
  | forced task asks => exact .forced task (asks.mono grown)
  | called task complete routed => exact .called task (ask_complete_mono known complete) routed
  | answered => exact .answered
  | blocked task blocked => exact .blocked task (ask_blocked_mono known blocked)
  | refused task complete routed => exact .refused task (ask_complete_mono known complete) routed
  | finished task complete routed called answered =>
    exact .finished task (ask_complete_mono known complete) routed (grown.subset called)
      (grown.subset answered)
  | logged => exact .logged

theorem Explained.concat (h : s.Explained p trace) {event : Event}
    (new : s.Explains p trace event) : s.Explained p (trace ++ [event]) := by
  intro event' hmem
  rcases List.mem_append.mp hmem with old | added
  · exact (h event' old).mono (List.prefix_append _ _)
  · rw [List.mem_singleton.mp added]
    exact new.mono (List.prefix_append _ _)

/-- The task of a step in a group is that of the program, the previous result aside. -/
theorem programTask_of_task? (same : s.bindings = p.bindings) {stage : Stage}
    (here : p.HasStage stage) {site : Occurrence} {task : Task}
    (ready : s.task? stage trace site = some task) :
    p.task? site = some { task with previous := none } := by
  rw [Program.task?, stepAt?_of_task? same here ready, limit_of_task? same ready]
  rfl

/-- **Whatever a move makes happen is explained.** -/
theorem move_explained (same : s.bindings = p.bindings) {stage : Stage} (here : p.HasStage stage)
    {st st' : RunState World} (move : s.Move stage st st') (h : s.Explained p st.trace) :
    s.Explained p st'.trace := by
  cases move with
  | force ready asks new =>
    exact h.concat (.forced (programTask_of_task? same here ready.task) asks)
  | block ready blocked =>
    exact h.concat (.blocked (programTask_of_task? same here ready.task) blocked)
  | @refuse _ site task found error ready complete route =>
    refine h.concat (.refused (programTask_of_task? same here ready.task) complete ?_)
    rw [← s.destination_resolved task found, destination, route]
    rfl
  | @call _ site task found driver key action ready complete route =>
    refine h.concat (.called (programTask_of_task? same here ready.task) complete ?_)
    rw [← s.destination_resolved task found, destination, route]
    rfl
  | finish task called answered unended =>
    have called := Trace.mem_of_call? called
    cases h _ called with
    | called task complete routed =>
      exact h.concat (.finished task complete routed called (Trace.mem_of_answer? answered))
  | log entry => exact h.concat .logged
  | arrive => exact h.concat .answered
  | elapse => exact h

end Session

/-- **Whatever happens in a run is explained**, in whatever order its moves are made. -/
theorem Engine.MayRun.explained {World : Type} {e : Engine World} {p : Program} {context : Context}
    {time : String} {world : World} {results : List Envelope} {st : RunState World}
    (run : e.MayRun p context time world results st) :
    Session.Explained ⟨e, p.bindings, context, time⟩ p st.trace :=
  run.invariant (fun _ none => by cases none) fun _ here _ _ _ holds move =>
    Session.move_explained rfl here move holds

end CapabilityPipeline
