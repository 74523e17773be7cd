import CapabilityPipeline.Proofs.Execution.Runs

/-!
# Calls of drivers

A driver is called at most once for each step of a program, and for the right-hand side of a
binding only when a step that is executed mentions it, directly or through other bindings that are
executed. This holds for drivers of any kind, and in whatever order branches take turns.

Results:

* `Program.Needed`: a binding that a step has asked for, directly or through other bindings.
* `Engine.replay`: the world after the calls of a trace.
* `Engine.DispatchesOnce`: the law of calls.
* `Engine.run_dispatchesOnce`: every run keeps the law.
-/

namespace CapabilityPipeline

/-! ## The law -/

/-- A step asks for the binding at an index, which it mentions. -/
structure Program.AsksFor (p : Program) (trace : Trace) (site : Occurrence) (index : Nat) :
    Prop where
  asked : .forced site index ∈ trace
  mentions : ∃ step name b, p.stepAt? site = some step ∧ name ∈ step.mentions.keys ∧
    lastBinding? name p.bindings = some (index, b)

/-- A binding that is asked for by a step of a pipeline, or by an earlier needed binding's
right-hand side. -/
inductive Program.Needed (p : Program) (trace : Trace) : (index : Nat) → Prop
  | step {pipeline group index : Nat} {path : List Nat}
      (asks : p.AsksFor trace (.leaf pipeline group path) index) : Needed p trace index
  | binding {user index : Nat} (asks : p.AsksFor trace (.binding user) index)
      (needed : Needed p trace user) : Needed p trace index

namespace Engine

variable {World : Type}

/-- The world after an event: calls of drivers change it, and nothing else does. -/
def replayEvent (e : Engine World) (context : Context) (world : World) : Event → World
  | .called _ call =>
    match e.drivers.get? call.driver with
    | some driver => (driver.call ⟨call.action, call.target, call.params, context⟩ world).2
    | none => world
  | _ => world

/-- The world after the calls of a trace, made in order. -/
def replay (e : Engine World) (context : Context) (trace : Trace) (world : World) : World :=
  trace.foldl (e.replayEvent context) world

/-- What holds of the calls at any time of a run from one world to another. -/
structure Dispatches (e : Engine World) (p : Program) (context : Context)
    (world : World) (trace : Trace) (final : World) : Prop where
  /-- For no step is a driver called twice. -/
  once : trace.callers.Nodup
  /-- Drivers are called for steps of the program only. -/
  inside : ∀ site ∈ trace.callers, ∃ step, p.stepAt? site = some step
  /-- A binding is dispatched only after it has become needed. -/
  needed : ∀ before index call after,
    trace = before ++ .called (.binding index) call :: after → p.Needed before index
  /-- The calls of the trace are all that has been done to the world. -/
  replayed : final = e.replay context trace world

/-- The law of calls, for a whole run of a program from one world to another. -/
structure DispatchesOnce (e : Engine World) (p : Program) (context : Context)
    (world : World) (trace : Trace) (final : World) : Prop
    extends Dispatches e p context world trace final where
  /-- The steps that have asked for bindings, and all others that appear, have been executed. -/
  executed : Session.Executed trace

end Engine

/-! ## Needed bindings -/

theorem Program.AsksFor.mono {p : Program} {trace later : Trace} {site : Occurrence} {index : Nat}
    (h : p.AsksFor trace site index) (grown : trace ⊆ later) : p.AsksFor later site index :=
  ⟨grown h.asked, h.mentions⟩

theorem Program.Needed.mono {p : Program} {trace later : Trace} {index : Nat}
    (h : p.Needed trace index) (grown : trace ⊆ later) : p.Needed later index := by
  induction h with
  | step asks => exact .step (asks.mono grown)
  | binding asks _ ih => exact .binding (asks.mono grown) ih

namespace Session

variable {World : Type} {s : Session World} {stage : Stage} {p : Program}

/-- A step that has a task is a step of the program. -/
theorem stepAt?_of_task? (same : s.bindings = p.bindings) (here : p.HasStage stage)
    {trace : Trace} {site : Occurrence} {task : Task}
    (ready : s.task? stage trace site = some task) : p.stepAt? site = some task.step := by
  cases site with
  | binding index =>
    obtain ⟨-, b, found, rfl⟩ := task?_binding ready
    rw [Program.stepAt?, ← same, found]
    rfl
  | leaf =>
    obtain ⟨rfl, rfl, step, reached, rfl⟩ := task?_leaf ready
    obtain ⟨pipeline, hpipeline, hgroup⟩ := here
    rw [Program.stepAt?, hpipeline, Option.bind_eq_bind, Option.bind_some, hgroup,
      Option.bind_eq_bind, Option.bind_some]
    exact stepAt?_of_reached? reached
  | alone => cases ready

/-- Every binding that has been asked for is needed. -/
theorem move_asked (same : s.bindings = p.bindings) (here : p.HasStage stage)
    {st st' : RunState World} (move : s.Move stage st st')
    (h : ∀ site index, .forced site index ∈ st.trace → p.Needed st.trace index)
    (site : Occurrence) (index : Nat) (forced : .forced site index ∈ st'.trace) :
    p.Needed st'.trace index := by
  have grown := move.trace_prefix.subset
  by_cases old : .forced site index ∈ st.trace
  · exact (h site index old).mono grown
  · cases move with
    | @force st site' task index' ready asks new =>
      rcases List.mem_append.mp forced with old' | added
      · exact absurd old' old
      · cases List.mem_singleton.mp added
        have asksFor : p.AsksFor (st.trace ++ [.forced site index]) site index := by
          obtain ⟨before, name, rest, found, b, mentions, -, refers, -⟩ := asks
          refine ⟨forced, task.step, name, b, stepAt?_of_task? same here ready.task, ?_, ?_⟩
          · rw [mentions]
            exact List.mem_append_right _ (List.mem_cons_self ..)
          · rw [← same]
            exact refers
        cases site with
        | binding user =>
          obtain ⟨⟨keeper, kept⟩, -⟩ := task?_binding ready.task
          have needed := h keeper user (Trace.mem_of_keeper? kept)
          exact .binding asksFor (needed.mono grown)
        | leaf => exact .step asksFor
        | alone => cases ready.task
    | elapse => exact absurd forced old
    | _ =>
      rcases List.mem_append.mp forced with old' | added
      · exact absurd old' old
      · cases List.mem_singleton.mp added

/-- A binding for which a driver is called has been asked for. -/
theorem move_needed {st st' : RunState World} (move : s.Move stage st st')
    (asked : ∀ site index, .forced site index ∈ st.trace → p.Needed st.trace index)
    (h : ∀ before index call after,
      st.trace = before ++ .called (.binding index) call :: after → p.Needed before index)
    (before : Trace) (index : Nat) (call : Call) (after : Trace)
    (same : st'.trace = before ++ .called (.binding index) call :: after) :
    p.Needed before index := by
  have last {event : Event} (grown : st'.trace = st.trace ++ [event])
      (new : event = .called (.binding index) call → p.Needed st.trace index) :
      p.Needed before index := by
    rw [grown] at same
    rcases List.eq_nil_or_concat after with rfl | ⟨after', event', rfl⟩
    · obtain ⟨rfl, added⟩ := List.append_inj' same rfl
      exact new (List.cons.inj added).1
    · rw [List.concat_eq_append, ← List.cons_append, ← List.append_assoc] at same
      exact h before index call after' (List.append_inj' same rfl).1
  cases move with
  | call ready complete route =>
    refine last rfl fun called => ?_
    cases called
    obtain ⟨⟨keeper, kept⟩, -⟩ := task?_binding ready.task
    exact asked keeper index (Trace.mem_of_keeper? kept)
  | elapse => exact h before index call after same
  | _ => exact last rfl nofun

/-- The calls of a move are all that it does to the world. -/
theorem Move.replayed {st st' : RunState World}
    (move : s.Move stage st st') : ∃ added, st'.trace = st.trace ++ added ∧
      st'.world = s.engine.replay s.context added st.world := by
  cases move with
  | call ready complete route =>
    refine ⟨_, rfl, ?_⟩
    dsimp only [Session.afterCall, Session.observed]
    rw [Engine.replay, List.foldl_cons, List.foldl_nil, Engine.replayEvent]
    dsimp only
    rw [get?_of_route route]
  | elapse => exact ⟨[], (List.append_nil _).symm, rfl⟩
  | _ => exact ⟨_, rfl, rfl⟩

end Session

namespace Engine

variable {World : Type} {e : Engine World} {p : Program} {context : Context} {time : String}
  {world : World}

/-! ## Every run keeps the law -/

theorem replay_append (e : Engine World) (context : Context) (trace added : Trace) (world : World) :
    e.replay context (trace ++ added) world = e.replay context added (e.replay context trace world) :=
  List.foldl_append

theorem replay_concat (e : Engine World) (context : Context) (trace : Trace) (event : Event)
    (world : World) : e.replay context (trace ++ [event]) world =
      e.replayEvent context (e.replay context trace world) event :=
  e.replay_append context trace [event] world

/-- Events that are no calls leave the world alone. -/
theorem replay_quiet {trace : Trace} {event : Event} (quiet : event.caller? = none)
    (world : World) : e.replay context (trace ++ [event]) world = e.replay context trace world := by
  rw [replay_concat]
  cases event with
  | called => cases quiet
  | _ => rfl

/-- Every move keeps what holds of the calls. -/
theorem Dispatches.move {stage : Stage} (here : p.HasStage stage) {st st' : RunState World}
    (sound : Session.Sound ⟨e, p.bindings, context, time⟩ stage st)
    (move : Session.Move ⟨e, p.bindings, context, time⟩ stage st st')
    (asked : ∀ site index, .forced site index ∈ st.trace → p.Needed st.trace index)
    (h : e.Dispatches p context world st.trace st.world) :
    e.Dispatches p context world st'.trace st'.world where
  once := Trace.callers_nodup (sound.move move).keys
  inside := by
    intro site hsite
    obtain ⟨added, grown, about⟩ := sound.move_event move
    obtain ⟨call, called⟩ := Trace.mem_callers.mp hsite
    rw [grown] at called
    rcases List.mem_append.mp called with old | new
    · exact h.inside site (Trace.mem_callers.mpr ⟨call, old⟩)
    · obtain ⟨task, ready, -⟩ := about _ new site rfl
      exact ⟨task.step, Session.stepAt?_of_task? rfl here ready⟩
  needed := Session.move_needed move asked h.needed
  replayed := by
    obtain ⟨added, grown, replayed⟩ := move.replayed
    rw [grown, replay_append, ← h.replayed]
    exact replayed

/-- **Every run keeps the law of calls**, in whatever order its moves are made. -/
theorem MayRun.dispatchesOnce {results : List Envelope} {st : RunState World}
    (run : e.MayRun p context time world results st) :
    e.DispatchesOnce p context world st.trace st.world := by
  let kept (st : RunState World) : Prop :=
    (∀ site index, .forced site index ∈ st.trace → p.Needed st.trace index) ∧
      e.Dispatches p context world st.trace st.world
  have start : kept (initial world) := by
    refine ⟨fun _ _ hmem => absurd hmem List.not_mem_nil, List.nodup_nil, ?_, ?_, rfl⟩
    · exact fun _ hmem => absurd hmem List.not_mem_nil
    · intro before index call after same
      exact absurd same.symm (List.append_ne_nil_of_right_ne_nil _ (List.cons_ne_nil _ _))
  have holds : kept st := by
    refine run.invariant start fun stage here st st' sound holds move => ?_
    obtain ⟨asked, law⟩ := holds
    exact ⟨Session.move_asked rfl here move asked, law.move here sound move asked⟩
  exact ⟨holds.2, run.executed⟩

/-- **At most one call for each step.** -/
theorem run_dispatchesOnce (e : Engine World) (p : Program) (context : Context) (time : String)
    (world : World) :
    e.DispatchesOnce p context world (e.run p context time world).1.trace
        (e.run p context time world).2 ∧
      ∀ results st, e.MayRun p context time world results st →
        e.DispatchesOnce p context world st.trace st.world := by
  obtain ⟨st, run, trace, final⟩ := run_mayRun e p context time world
  refine ⟨?_, fun results st run => run.dispatchesOnce⟩
  rw [← trace, ← final]
  exact run.dispatchesOnce

/-- Bindings that are mentioned from all sides are dispatched once, and one without an action is
not dispatched at all. -/
theorem run_dispatchesOnce_diamond :
    (echoing.run .diamond (.ofRun "r") "" ()).1.trace.callers =
        [.binding 0, .binding 1, .leaf 0 0 [1], .leaf 0 0 [0], .leaf 1 0 [1]] ∧
      ∃ results st, echoing.MayRun .diamond (.ofRun "r") "" () results st ∧
        echoing.DispatchesOnce .diamond (.ofRun "r") () st.trace st.world := by
  obtain ⟨st, run, -, -⟩ := run_mayRun echoing .diamond (.ofRun "r") "" ()
  refine ⟨by decide +kernel, _, st, run, ?_⟩
  exact (run_dispatchesOnce echoing .diamond (.ofRun "r") "" ()).2 _ st run

end Engine

end CapabilityPipeline
